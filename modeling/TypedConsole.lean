import TypedConsole.Text.Blank
import TypedConsole.Text.Numeric
import TypedConsole.Text.Identifier
import TypedConsole.Text.Lowercase
import TypedConsole.Text.Quoted
import TypedConsole.Ty.Name
import TypedConsole.Ty.Reading
import TypedConsole.Value
import TypedConsole.Interpretation
import TypedConsole.Help.Printer
import TypedConsole.Console
import TypedConsole.Stack
import TypedConsole.Catalogue.Commands
import TypedConsole.Derive.OfSource
import TypedConsole.Proofs.DepthCounter
import TypedConsole.Proofs.Spans
import TypedConsole.Proofs.Scalars
import TypedConsole.Proofs.Groups
import TypedConsole.Proofs.GroupSyntax
import TypedConsole.Proofs.Pieces
import TypedConsole.Proofs.Claims
import TypedConsole.Proofs.CommandLine
import TypedConsole.Proofs.Items
import TypedConsole.Proofs.Building
import TypedConsole.Proofs.Names
import TypedConsole.Proofs.Lines
import TypedConsole.Proofs.Acceptance
import TypedConsole.Proofs.Termination
import TypedConsole.Proofs.Alike
import TypedConsole.Proofs.Spelling
import TypedConsole.Proofs.Resolution
import TypedConsole.Proofs.Lookahead
import TypedConsole.Proofs.Interleaving
import TypedConsole.Proofs.Sorting
import TypedConsole.Proofs.Contents
import TypedConsole.Proofs.Rounding
import TypedConsole.Proofs.Typing
import TypedConsole.Proofs.TypedArguments
import TypedConsole.Proofs.Registration
import TypedConsole.Proofs.TypeSoundness
import TypedConsole.Proofs.Writing
import TypedConsole.Proofs.RoundTrip
import TypedConsole.Proofs.StringLiterals
import TypedConsole.Proofs.RecordLiterals
import TypedConsole.Proofs.Creation
import TypedConsole.Proofs.CollectionLiterals
import TypedConsole.Proofs.History
import TypedConsole.Proofs.Agreement
import TypedConsole.Proofs.Failure
import TypedConsole.Proofs.Lowercasing
import TypedConsole.Proofs.TableOrder
import TypedConsole.Proofs.ConsoleTable
import TypedConsole.Proofs.ConsoleHistory
import TypedConsole.Proofs.UsageErrors
import TypedConsole.Proofs.HelpSections
import TypedConsole.Proofs.HelpGrammar
import TypedConsole.Proofs.HelpHint
import TypedConsole.Proofs.Validation
import TypedConsole.Proofs.Continuation
import TypedConsole.Proofs.FaultPlaces
import TypedConsole.Proofs.SettingEffects
import TypedConsole.Proofs.IntegerLiterals
import TypedConsole.Proofs.LongNames
import TypedConsole.Proofs.DefaultTexts
import TypedConsole.Proofs.Rearrangement
import TypedConsole.Proofs.DeclarationOrder
import TypedConsole.Proofs.Wrapping
import TypedConsole.Proofs.SettingOrder
import TypedConsole.Proofs.TypeNames
import TypedConsole.Proofs.NestedCreations
import TypedConsole.Proofs.RecursionLimit
import TypedConsole.Proofs.Nearest
import TypedConsole.Proofs.FloatLiterals
import TypedConsole.Proofs.FormatRows
import TypedConsole.Proofs.HelpRows
import TypedConsole.Proofs.ShortNames
import TypedConsole.Proofs.CursorContract
import TypedConsole.Proofs.DelimiterCoverage
