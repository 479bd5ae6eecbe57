import TypedConsole.Grammar
import TypedConsole.Help.Layout

/-!
# TypedConsole.Help.Printer

Usage lines and help messages of grammars. A usage line names the required positionals, the
optional ones nested in brackets, the required switches and then the optional switches. A help
message adds a description, a section with the types and templates of the values, and sections
with the texts of the required and of the optional parameters. All sections share the width of
the left column.
-/

namespace TypedConsole

/-- Prints messages, wrapped to a width or not at all. -/
structure Printer where
  width : Option Nat := none
deriving DecidableEq, Repr

namespace Printer

/-- A printer that never wraps. -/
def unbounded : Printer := {}

/-! ## usage -/

/-- A switch in a usage line: a name and, unless it is a flag, the name of its value. -/
def switchUsage (d : Descriptor) : String :=
  let name := match d.short with
    | some c => s!"-{c}"
    | none => d.label
  if d.kind = .flag then name else s!"{name} {d.metavar}"

/-- Names in nested brackets: each one can only be given if those before it are. -/
def nested : List String → String
  | [] => ""
  | [name] => s!"[{name}]"
  | name :: names => s!"[{name} {nested names}]"

/-- The usage line of a command. -/
def usage (command : String) (g : Grammar) : String :=
  let required := g.positionals.filter (·.required)
  let optional := g.positionals.filter (!·.required)
  let brackets := nested (optional.map (·.metavar))
  let parts := [s!"usage: {command}"] ++ required.map (·.metavar) ++
    (if brackets.isEmpty then [] else [brackets]) ++
    (g.switches.filter (·.required)).map switchUsage ++
    (g.switches.filter (!·.required)).map fun d => s!"[{switchUsage d}]"
  Text.trimEnd (" ".intercalate parts)

/-! ## sections -/

/-- A row about a type: the parameters of the type, its name, and its template. -/
structure FormatRow where
  names : List String
  typeName : String
  template : Option String

/-- Add a parameter to the row of its type. -/
def addFormat (d : Descriptor) : List FormatRow → List FormatRow
  | [] => [⟨[d.metavar], d.typeName, d.template⟩]
  | row :: rows =>
    if row.typeName = d.typeName then { row with names := row.names ++ [d.metavar] } :: rows
    else row :: addFormat d rows

/-- One row for each type among the parameters that have values to write. The types with a
template come first. -/
def formatRows (g : Grammar) : List FormatRow :=
  let valued := g.parameters.filter (·.kind ≠ .flag)
  let rows := valued.foldl (fun rows d => addFormat d rows) []
  rows.filter (·.template.isSome) ++ rows.filter (·.template.isNone)

/-- The names of the row. -/
def FormatRow.label (row : FormatRow) : List Char := (commaSeparated row.names).toList

/-- The text about a parameter: its description and its bounds. -/
def parameterText (d : Descriptor) : String :=
  match d.description, d.arity.describe with
  | some text, some bounds => s!"{text} {bounds}."
  | some text, none => text
  | none, some bounds => s!"{bounds}."
  | none, none => ""

/-- The parameters that have a text. -/
def describedParameters (g : Grammar) : List Descriptor :=
  g.parameters.filter fun d => !(parameterText d).isEmpty

/-- The width of the left column, over all sections. -/
def leftWidth (g : Grammar) : Nat :=
  let widths := (formatRows g).map (·.label.length) ++
    (describedParameters g).map (·.displayName.length)
  (Text.greatest? widths).getD 1

/-- The layout of rows, fitted to the width of the printer. -/
def layout (p : Printer) (left : Nat) (rows : List (List Char × Option (List Char))) :
    Help.Layout :=
  let l := Help.Layout.ofRows left rows
  match p.width with
  | some total => l.fit total
  | none => l

/-- The layout of the section about the types. -/
def formatLayout (p : Printer) (g : Grammar) : Help.Layout :=
  p.layout (leftWidth g)
    ((formatRows g).map fun row => (row.typeName.toList, row.template.map String.toList))

/-- The layout of the sections about the parameters. -/
def parameterLayout (p : Printer) (g : Grammar) : Help.Layout :=
  p.layout (leftWidth g) ((describedParameters g).map fun d => ((parameterText d).toList, none))

/-- A section: a blank line, the title and the rows. A section without rows is left out. -/
def titled (title : String) (rows : List (List (List Char))) : List String :=
  if rows.isEmpty then [] else ["", title] ++ rows.flatten.map String.ofList

/-- The section about the types, if each row fits the layout: there are no rows with templates that
are all empty. -/
def formatSection? (p : Printer) (g : Grammar) : Option (List String) := do
  let l := p.formatLayout g
  let lines ← (formatRows g).mapM fun r =>
    l.render? r.label r.typeName.toList (r.template.map String.toList)
  pure (titled "Format:" lines)

/-- The section about the parameters that are required, or about the others. -/
def parameterSection (p : Printer) (g : Grammar) (title : String) (required : Bool) :
    List String :=
  let l := p.parameterLayout g
  let shown := (describedParameters g).filter (·.required = required)
  titled title (shown.map fun d =>
    l.lines d.displayName.toList (parameterText d).toList [])

/-- The paragraph that describes the command, behind a blank line. -/
def descriptionLines (p : Printer) (description : Option String) : List String :=
  match description.map Text.trim with
  | none | some "" => []
  | some text =>
    "" :: match p.width with
      | some width =>
        (Help.wrap (max width Help.leastMiddle) text.toList).map String.ofList
      | none => [text]

/-- The help message of a command. There is none if a row of a type fits no layout. -/
def help? (p : Printer) (command : String) (description : Option String) (g : Grammar) :
    Option String := do
  let formats ← p.formatSection? g
  pure (Text.joinLines ([usage command g] ++ p.descriptionLines description ++ formats ++
    p.parameterSection g "Mandatory Parameters:" true ++
    p.parameterSection g "Optional Parameters:" false))

end Printer

end TypedConsole
