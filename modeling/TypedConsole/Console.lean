import TypedConsole.Console.Entry
import TypedConsole.Command
import TypedConsole.Text.Lowercase

/-!
# TypedConsole.Console

Consoles: tables of commands over a registry. Names of commands and verbs are kept in lower case,
and case does not matter when they are looked up. The command `help` is built in: it lists the
commands or shows the help of one command or verb.
-/

namespace TypedConsole

/-! ## errors -/

/-- Why the table of commands was not changed. -/
inductive ConsoleError
  /-- The name is empty or has a blank in it. -/
  | invalidName (name : String)
  | duplicateCommand (name : String)
  | unknownCommand (name : String)
  /-- The command has no verbs. -/
  | notVerbCommand (name : String)
  | unknownVerb (command verb : String)
  /-- The command's grammar is at fault. -/
  | config (error : ConfigError)
deriving DecidableEq

/-- The wording of the error. -/
def ConsoleError.message : ConsoleError → String
  | invalidName n => s!"Console error: invalid command name '{n}'."
  | duplicateCommand n => s!"Console error: command '{n}' is already registered."
  | unknownCommand n => s!"Console error: no command '{n}' is registered."
  | notVerbCommand n => s!"Console error: command '{n}' does not take verbs."
  | unknownVerb c v => s!"Console error: command '{c}' has no verb '{v}'."
  | config e => e.message

/-- Why a command line was not executed. -/
inductive ExecuteError
  | unknownCommand (name : String)
  /-- With the verbs that the command has. -/
  | unknownVerb (command verb : String) (verbs : List String)
  /-- The text does not fit the grammar of the command or verb of this name. -/
  | usage (name usage : String) (error : ParseError)
  /-- The handler could not take its arguments. -/
  | arguments (error : ArgumentError)
  /-- The help of the command or verb of this name has a row that fits no layout. -/
  | unprintable (name : String)
deriving DecidableEq

namespace ExecuteError

/-- The verbs of a command as an addition to a message. -/
def possibleVerbs (command : String) (verbs : List String) : String :=
  if verbs.isEmpty then ""
  else "\nPossible subcommands are:" ++ String.join (verbs.map fun v => s!"\n    * {command} {v}")

/-- The wording of the error. -/
def message : ExecuteError → String
  | unknownCommand n => s!"Unknown command '{n}'"
  | unknownVerb c v vs => s!"'{c}': no such verb '{v}'.{possibleVerbs c vs}"
  | usage n u _ => s!"{u}\nTry 'help {n}' for more information."
  | arguments e => e.message
  | unprintable n => s!"The help of '{n}' cannot be laid out."

/-- The text after its first `count` words. -/
def afterWords : Nat → List Char → List Char
  | 0, line => line
  | count + 1, line => afterWords count (((Text.splitWord line).map (·.2)).getD [])

/-- For a text that does not fit its grammar: the text after the name of the command and, if
there is one, of the verb, with a caret under the fault. -/
def context (e : ExecuteError) (line : List Char) : Option String :=
  match e with
  | usage name _ error =>
    some (error.context (afterWords (name.toList.count ' ' + 1) line))
  | _ => none

end ExecuteError

/-! ## consoles -/

/-- A console whose handlers run on a state of type `σ`. -/
structure Console (σ : Type) where
  registry : Registry
  printer : Printer := .unbounded
  /-- The grammar of the command `help`. -/
  help : Grammar
  commands : NameTable (Entry σ) := {}

namespace Console

/-- The name of the built-in command. -/
def helpName : String := "help"

/-- The description of the built-in command. -/
def helpDescription : String := "Show the commands, or the help of one command."

/-- The parameters of the built-in command: a command and a verb, both optional. -/
def helpParameters : List Parameter :=
  [(Parameter.positional .string "command").optional,
   (Parameter.positional .string "verb").optional]

/-- A console without commands that builds grammars from the registry. -/
def ofRegistry (r : Registry) : Console σ :=
  let (help, registry) := Grammar.build helpParameters r
  { registry, help := help.toOption.getD ⟨[]⟩ }

/-- A name as it is looked up: without blanks at its ends, in lower case. -/
def canonical (name : String) : String := Text.lowercase (Text.trim name)

/-- A name as it is registered. It has to be one word. -/
def normalize (name : String) : Except ConsoleError String :=
  let lowered := canonical name
  if lowered.isEmpty || lowered.toList.any Text.isBlank then .error (.invalidName name)
  else .ok lowered

/-! ## registering commands -/

/-- Register an entry under a name. -/
def insert (c : Console σ) (name : String) (e : Entry σ) : Except ConsoleError (Console σ) := do
  let name ← normalize name
  if name = helpName || c.commands.contains name then .error (.duplicateCommand name)
  else .ok { c with commands := c.commands.insert name e }

/-- Register a command with a grammar. -/
def register (c : Console σ) (name description : String) (g : Grammar)
    (run : Arguments → σ → Except ArgumentError String × σ) : Except ConsoleError (Console σ) :=
  c.insert name ⟨description, .run (.parsed g run)⟩

/-- Register a command that takes its text as it is. -/
def registerRaw (c : Console σ) (name description : String) (run : String → σ → String × σ) :
    Except ConsoleError (Console σ) :=
  c.insert name ⟨description, .run (.raw run)⟩

/-- Register a command that has verbs, none for now. -/
def registerVerbs (c : Console σ) (name description : String) : Except ConsoleError (Console σ) :=
  c.insert name ⟨description, .verbs {}⟩

/-- Remove a command. -/
def unregister (c : Console σ) (name : String) : Except ConsoleError (Console σ) :=
  let name := canonical name
  if c.commands.contains name then .ok { c with commands := c.commands.erase name }
  else .error (.unknownCommand name)

/-! ## registering verbs -/

/-- The command that has verbs: its name, its description and its verbs. -/
def verbTable (c : Console σ) (command : String) :
    Except ConsoleError (String × String × NameTable (Verb σ)) :=
  let name := canonical command
  match c.commands.find? name with
  | some ⟨description, .verbs table⟩ => .ok (name, description, table)
  | some _ => .error (.notVerbCommand name)
  | none => .error (.unknownCommand name)

/-- Give a command other verbs. -/
def setVerbs (c : Console σ) (name description : String) (table : NameTable (Verb σ)) :
    Console σ :=
  { c with commands := c.commands.insert name ⟨description, .verbs table⟩ }

/-- Register a verb of a command. -/
def insertVerb (c : Console σ) (command verb : String) (v : Verb σ) :
    Except ConsoleError (Console σ) := do
  let verb ← normalize verb
  let (name, description, table) ← c.verbTable command
  if table.contains verb then .error (.duplicateCommand s!"{name} {verb}")
  else .ok (c.setVerbs name description (table.insert verb v))

/-- Register a verb with a grammar. -/
def registerVerb (c : Console σ) (command verb description : String) (g : Grammar)
    (run : Arguments → σ → Except ArgumentError String × σ) : Except ConsoleError (Console σ) :=
  c.insertVerb command verb ⟨description, .parsed g run⟩

/-- Register a verb that takes its text as it is. -/
def registerRawVerb (c : Console σ) (command verb description : String)
    (run : String → σ → String × σ) : Except ConsoleError (Console σ) :=
  c.insertVerb command verb ⟨description, .raw run⟩

/-- Remove a verb of a command. -/
def unregisterVerb (c : Console σ) (command verb : String) : Except ConsoleError (Console σ) := do
  let (name, description, table) ← c.verbTable command
  let verb := canonical verb
  if table.contains verb then .ok (c.setVerbs name description (table.erase verb))
  else .error (.unknownVerb name verb)

/-! ## registering declared commands -/

/-- The handler of a declared command: it receives the values of the fields. -/
def commandHandler (command : Command) (run : List Value → σ → String × σ) :
    Arguments → σ → Except ArgumentError String × σ := fun arguments state =>
  match command.fromArguments arguments with
  | .error e => (.error e, state)
  | .ok fields =>
    let (output, state) := run fields state
    (.ok output, state)

/-- Build the grammar of a declared command, then register it by `add`. The parsers made for the
grammar stay in the registry in any case. -/
def addCommand (c : Console σ) (command : Command)
    (add : Console σ → Grammar → Except ConsoleError (Console σ)) :
    Except ConsoleError Unit × Console σ :=
  let (grammar, registry) := command.grammar c.registry
  let c := { c with registry }
  match grammar with
  | .error e => (.error (.config e), c)
  | .ok g =>
    match add c g with
    | .error e => (.error e, c)
    | .ok c => (.ok (), c)

/-- Register a declared command. -/
def registerCommand (c : Console σ) (name description : String) (command : Command)
    (run : List Value → σ → String × σ) : Except ConsoleError Unit × Console σ :=
  c.addCommand command fun c g => c.register name description g (commandHandler command run)

/-- Register a declared command as a verb. -/
def registerVerbCommand (c : Console σ) (name verb description : String) (command : Command)
    (run : List Value → σ → String × σ) : Except ConsoleError Unit × Console σ :=
  c.addCommand command fun c g =>
    c.registerVerb name verb description g (commandHandler command run)

/-! ## listing -/

/-- The commands and their descriptions, by name. -/
def commandRows (c : Console σ) : List (String × String) :=
  c.commands.entries.map fun (name, entry) => (name, entry.description)

/-- The verbs of a command and their descriptions, by name. -/
def verbRows (c : Console σ) (command : String) : Option (List (String × String)) :=
  match c.commands.find? (canonical command) with
  | some ⟨_, .verbs table⟩ => some table.verbRows
  | _ => none

/-- The usage line of a command. -/
def usage (c : Console σ) (name : String) : Option String :=
  let name := canonical name
  if name = helpName then some (Printer.usage helpName c.help)
  else (c.commands.find? name).map (·.usage name)

/-- The list of all commands, the built-in one among them. -/
def overview (c : Console σ) : String :=
  let all := NameTable.insertEntry helpName helpDescription c.commandRows
  listing "Commands:" all

/-! ## help -/

/-- The help under a name as a result of a command line. -/
def shown (name : String) (help : Option String) : Except ExecuteError String :=
  match help with
  | some text => .ok text
  | none => .error (.unprintable name)

/-- The help of a command or verb, or the list of commands. -/
def helpText (c : Console σ) (command verb : String) : Except ExecuteError String :=
  let command := canonical command
  let verb := canonical verb
  if command.isEmpty then .ok c.overview
  else if command = helpName then
    shown helpName (c.printer.help? helpName (some helpDescription) c.help)
  else
    match c.commands.find? command with
    | none => .error (.unknownCommand command)
    | some entry =>
      if verb.isEmpty then shown command (entry.help? c.printer command)
      else
        match entry.action with
        | .run _ => .error (.unknownVerb command verb [])
        | .verbs table =>
          match table.find? verb with
          | some v =>
            let name := s!"{command} {verb}"
            shown name (v.help? c.printer name)
          | none => .error (.unknownVerb command verb table.names)

/-- Execute the built-in command. -/
def executeHelp (c : Console σ) (text : List Char) : Except ExecuteError String :=
  match c.help.parse c.registry.special text with
  | .error e => .error (.usage helpName (Printer.usage helpName c.help) e)
  | .ok arguments =>
    let taken := do
      let (command, arguments) ← arguments.take 0 .string
      let (verb, _) ← arguments.take 1 .string
      pure (command, verb)
    match taken with
    | .error e => .error (.arguments e)
    | .ok (.string command, .string verb) => c.helpText command verb
    | .ok _ => .error (.arguments (.wrongType 0 .string))

/-! ## executing -/

/-- Run a handler on the text behind its name. -/
def runHandler (c : Console σ) (name : String) (text : List Char) (h : Handler σ) (state : σ) :
    Except ExecuteError String × σ :=
  match h with
  | .raw run =>
    let (output, state) := run (Text.trim (String.ofList text)) state
    (.ok output, state)
  | .parsed g run =>
    match g.parse c.registry.special text with
    | .error e => (.error (.usage name (Printer.usage name g) e), state)
    | .ok arguments =>
      let (output, state) := run arguments state
      (output.mapError .arguments, state)

/-- Run an entry on the text behind its name. A command with verbs and no verb shows its help. -/
def runEntry (c : Console σ) (name : String) (text : List Char) (e : Entry σ) (state : σ) :
    Except ExecuteError String × σ :=
  match e.action with
  | .run handler => c.runHandler name text handler state
  | .verbs table =>
    match Text.splitWord text with
    | none => (.ok (table.verbHelp name e.description), state)
    | some (word, text) =>
      let verb := Text.lowercase (String.ofList word)
      match table.find? verb with
      | some v => c.runHandler s!"{name} {verb}" text v.handler state
      | none => (.error (.unknownVerb name verb table.names), state)

/-- Execute a command line on the state of the application. A blank line does nothing. -/
def execute (c : Console σ) (line : List Char) (state : σ) : Except ExecuteError String × σ :=
  match Text.splitWord line with
  | none => (.ok "", state)
  | some (word, text) =>
    let name := Text.lowercase (String.ofList word)
    if name = helpName then (c.executeHelp text, state)
    else
      match c.commands.find? name with
      | some entry => c.runEntry name text entry state
      | none => (.error (.unknownCommand name), state)

end Console

end TypedConsole
