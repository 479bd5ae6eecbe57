import TypedConsole.Console.NameTable
import TypedConsole.Help.Printer
import TypedConsole.Interpretation

/-!
# TypedConsole.Console.Entry

The entries of a console: commands that parse their arguments, commands that take their text as it
is, and commands that leave the work to a verb. Handlers run on the state `σ` of the application.
An entry can print its usage line and its help message.
-/

namespace TypedConsole

/-- What runs a command line. -/
inductive Handler (σ : Type)
  /-- Receives the arguments that the grammar parsed, and may fail to take them. -/
  | parsed (grammar : Grammar) (run : Arguments → σ → Except ArgumentError String × σ)
  /-- Receives the text without blanks at its ends. -/
  | raw (run : String → σ → String × σ)

/-- A verb of a command. Verbs have no verbs of their own. -/
structure Verb (σ : Type) where
  description : String
  handler : Handler σ

/-- What a command does. -/
inductive Action (σ : Type)
  | run (handler : Handler σ)
  /-- The first word of the text selects the verb. -/
  | verbs (table : NameTable (Verb σ))

/-- A command. -/
structure Entry (σ : Type) where
  description : String
  action : Action σ

/-! ## listings -/

/-- A title and rows of two columns, the first as wide as its widest name. -/
def listing (title : String) (rows : List (String × String)) : String :=
  let width := (Text.greatest? (rows.map (·.1.length))).getD 0
  let lines := rows.map fun (name, description) =>
    String.ofList (Text.dropTrailingBlanks (Text.spaces Help.indentation ++
      Text.padTo width name.toList ++ Text.spaces Help.gap ++ description.toList))
  Text.joinLines (title :: lines)

/-- The names and descriptions of verbs. -/
def NameTable.verbRows (t : NameTable (Verb σ)) : List (String × String) :=
  t.entries.map fun (name, verb) => (name, verb.description)

/-- A usage line, a description if there is one, and further lines. -/
def plainHelp (usage description : String) (more : List String) : String :=
  let text := Text.trim description
  Text.joinLines ([usage] ++ (if text.isEmpty then [] else ["", text]) ++ more)

/-- The usage line of a command with verbs. -/
def verbUsage (name : String) : String := s!"usage: {name} VERB ..."

/-- The help message of a command with verbs, which lists them. -/
def NameTable.verbHelp (t : NameTable (Verb σ)) (name description : String) : String :=
  plainHelp (verbUsage name) description
    (if t.isEmpty then [] else ["", listing "Verbs:" t.verbRows])

/-! ## usage and help -/

namespace Handler

/-- The usage line under a name. -/
def usage (name : String) : Handler σ → String
  | parsed g _ => Printer.usage name g
  | raw _ => s!"usage: {name} ..."

/-- The help message under a name, if it can be laid out. -/
def help? (p : Printer) (name description : String) : Handler σ → Option String
  | parsed g _ => p.help? name (some description) g
  | raw _ => some (plainHelp s!"usage: {name} ..." description [])

end Handler

/-- The help message under the name of command and verb, if it can be laid out. -/
def Verb.help? (p : Printer) (name : String) (v : Verb σ) : Option String :=
  v.handler.help? p name v.description

namespace Entry

/-- The usage line under a name. -/
def usage (name : String) (e : Entry σ) : String :=
  match e.action with
  | .run handler => handler.usage name
  | .verbs _ => verbUsage name

/-- The help message under a name, if it can be laid out. -/
def help? (p : Printer) (name : String) (e : Entry σ) : Option String :=
  match e.action with
  | .run handler => handler.help? p name e.description
  | .verbs table => some (table.verbHelp name e.description)

end Entry

end TypedConsole
