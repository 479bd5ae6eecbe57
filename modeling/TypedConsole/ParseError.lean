import TypedConsole.Text.Blank

/-!
# TypedConsole.ParseError

Faults of command lines. Every fault has an offset into the line, and is shown as the line with a
caret under that place.
-/

namespace TypedConsole

/-- What is wrong with the value of an option. -/
inductive OptionFault
  | takesNoValue
  | needsValue
  /-- Anything else, in the words of whoever finds it. -/
  | other (reason : String)
deriving DecidableEq, Repr

/-- The fault as the end of a sentence about the option. -/
def OptionFault.reason : OptionFault → String
  | takesNoValue => "does not take a value"
  | needsValue => "requires a value"
  | other reason => reason

/-- Why a line does not fit a grammar. -/
inductive ParseError
  | missingRequired (name : String) (offset : Nat)
  /-- There is no positional left for the value. -/
  | unexpectedArgument (offset : Nat)
  | duplicateParameter (name : String) (offset : Nat)
  | unknownOption (option : String) (offset : Nat)
  | invalidValue (name : String) (offset : Nat)
  /-- The number of elements is not permitted. -/
  | elementCount (name : String) (count offset : Nat)
  | malformedOption (option : String) (fault : OptionFault) (offset : Nat)
deriving DecidableEq, Repr

namespace ParseError

/-- The number of characters before the fault. -/
def offset : ParseError → Nat
  | missingRequired _ o | unexpectedArgument o | duplicateParameter _ o | unknownOption _ o
  | invalidValue _ o | elementCount _ _ o | malformedOption _ _ o => o

/-- The wording of the fault. -/
def message : ParseError → String
  | missingRequired n _ => s!"Parse error: missing required parameter '{n}'."
  | unexpectedArgument o => s!"Parse error: unexpected argument at offset {o}."
  | duplicateParameter n _ => s!"Parse error: parameter '{n}' cannot be supplied more than once."
  | unknownOption option _ => s!"Parse error: unknown option '{option}'."
  | invalidValue n _ => s!"Parse error: invalid value for parameter '{n}'."
  | elementCount n count _ => s!"Parse error: parameter '{n}' cannot have {count} elements."
  | malformedOption option fault _ => s!"Parse error: option '{option}' {fault.reason}."

/-- A text with a caret below the character at the offset, or below its end. -/
def caretUnder (offset : Nat) (text : List Char) : List Char :=
  text ++ '\n' :: List.replicate (min offset text.length) ' ' ++ ['^']

/-- The text with a caret below the fault. -/
def context (e : ParseError) (text : List Char) : String :=
  String.ofList (caretUnder e.offset text)

end ParseError

end TypedConsole
