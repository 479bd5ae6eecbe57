import TypedConsole.Parameter
import TypedConsole.Registry.Resolve

/-!
# TypedConsole.Grammar

Grammars of commands: lists of parameters that have been checked against each other and have
their parsers. Building a grammar goes through the parameters in order and reports the first one
that is at fault.
-/

namespace TypedConsole

/-! ## faults of declarations -/

/-- Why parameters make no grammar. -/
inductive ConfigError
  | duplicateLong (long : String)
  | duplicateShort (short : Char)
  | duplicateMetavar (name : String)
  /-- The required positional could never be filled alone. -/
  | requiredAfterOptional (name : String)
  /-- The short name cannot be typed after a dash. -/
  | invalidShort (short : Char)
  /-- The long name cannot be typed after two dashes. -/
  | invalidLong (long : String)
  | emptyMetavar
  | invalidArity (name : String) (min max : Nat)
  /-- The type has no parser. -/
  | unresolved (error : ResolveError)
deriving DecidableEq

/-- The wording of the fault. -/
def ConfigError.message : ConfigError → String
  | duplicateLong l => s!"Config error: cannot duplicate the long name '--{l}'."
  | duplicateShort c => s!"Config error: cannot duplicate the short name '-{c}'."
  | duplicateMetavar n => s!"Config error: cannot duplicate the meta name '{n}'."
  | requiredAfterOptional n =>
    s!"Config error: the required positional '{n}' cannot follow an optional positional."
  | invalidShort c => s!"Config error: invalid short name '{c}'."
  | invalidLong l => s!"Config error: invalid long name '{l}'."
  | emptyMetavar => "Config error: a parameter's meta name cannot be empty."
  | invalidArity n least most =>
    s!"Config error: the parameter '{n}' cannot have a minimum of {least} above its maximum of {most}."
  | unresolved e => s!"Config error: {e.message}"

/-! ## descriptors -/

/-- A parameter of a grammar, with its place among the parameters and its parser. -/
structure Descriptor where
  index : Nat
  kind : ParameterKind
  metavar : String
  short : Option Char
  long : Option String
  required : Bool
  arity : Arity
  description : Option String
  type : Ty
  parser : Parser
  fallback : Option Fallback
  /-- The initial value of the type. -/
  zero : Value
  counted : Bool

namespace Descriptor

/-- The name of the parsed type. -/
def typeName (d : Descriptor) : String := d.parser.name

/-- The template of the parsed literal. -/
def template (d : Descriptor) : Option String := d.parser.template

/-- The name in listings: both names of a switch that has two. -/
def displayName (d : Descriptor) : String :=
  match d.kind, d.short, d.long with
  | .positional, _, _ => d.metavar
  | _, some c, some long => s!"-{c}, --{long}"
  | _, some c, none => s!"-{c}"
  | _, none, some long => s!"--{long}"
  | _, none, none => d.metavar

/-- The name as it is typed: the long one of a switch that has one. -/
def label (d : Descriptor) : String :=
  match d.kind, d.short, d.long with
  | .positional, _, _ => d.metavar
  | _, _, some long => s!"--{long}"
  | _, some c, none => s!"-{c}"
  | _, none, none => d.metavar

/-- The parameter in one line. -/
def summary (d : Descriptor) : String :=
  s!"{d.kind.name}[{d.index}, {d.displayName}, {d.typeName}, {Parameter.necessity d.required}]"

end Descriptor

/-- The parameters of a command, in the order of their declaration. -/
structure Grammar where
  parameters : List Descriptor

namespace Grammar

/-- The positionals, in the order in which they are filled. -/
def positionals (g : Grammar) : List Descriptor := g.parameters.filter (·.kind = .positional)

/-- The switches and flags. -/
def switches (g : Grammar) : List Descriptor := g.parameters.filter (·.kind ≠ .positional)

/-- The switch or flag with the short name. -/
def findShort (g : Grammar) (c : Char) : Option Descriptor :=
  g.switches.find? (·.short = some c)

/-- The switch or flag with the long name. -/
def findLong (g : Grammar) (long : String) : Option Descriptor :=
  g.switches.find? (·.long = some long)

/-- The grammar in one line. -/
def summary (g : Grammar) : String := s!"[{commaSeparated (g.parameters.map (·.summary))}]"

/-! ## building -/

/-- What the parameters seen so far have used up. -/
structure Used where
  metavars : List String := []
  shorts : List Char := []
  longs : List String := []
  /-- An optional positional has been seen. -/
  optionalPositional : Bool := false

/-- The character before a short name, and twice before a long one. -/
def dash : Char := '-'

/-- The character between a long name and a value attached to it. -/
def assignment : Char := '='

/-- A short name that can be typed: neither a blank nor a character with another meaning. -/
def validShort (c : Char) : Bool := !(Text.isBlank c || c = dash || c = assignment)

/-- A long name that can be typed: not empty, without a dash in front or an equals sign in it. -/
def validLong (long : String) : Bool :=
  let cs := long.toList
  !(cs.isEmpty || cs.head? = some dash || cs.contains assignment)

/-- Check the name shown for the value. -/
def checkMetavar (used : Used) (name : String) : Except ConfigError Used :=
  if name = "" then .error .emptyMetavar
  else if used.metavars.contains name then .error (.duplicateMetavar name)
  else .ok { used with metavars := name :: used.metavars }

/-- Check the short name. -/
def checkShort (used : Used) : Option Char → Except ConfigError Used
  | none => .ok used
  | some c =>
    if !validShort c then .error (.invalidShort c)
    else if used.shorts.contains c then .error (.duplicateShort c)
    else .ok { used with shorts := c :: used.shorts }

/-- Check the long name. -/
def checkLong (used : Used) : Option String → Except ConfigError Used
  | none => .ok used
  | some long =>
    if !validLong long then .error (.invalidLong long)
    else if used.longs.contains long then .error (.duplicateLong long)
    else .ok { used with longs := long :: used.longs }

/-- Check that no required positional follows an optional one. -/
def checkOrder (used : Used) (p : Parameter) : Except ConfigError Used :=
  if p.kind ≠ .positional then .ok used
  else if p.required && used.optionalPositional then
    .error (.requiredAfterOptional p.shownName)
  else .ok { used with optionalPositional := used.optionalPositional || !p.required }

/-- Check that the bounds leave a number between them. -/
def checkArity (used : Used) (p : Parameter) : Except ConfigError Used :=
  match p.arity.min, p.arity.max with
  | some least, some most =>
    if most < least then .error (.invalidArity p.shownName least most) else .ok used
  | _, _ => .ok used

/-- Check a parameter against those before it. -/
def check (used : Used) (p : Parameter) : Except ConfigError Used := do
  let used ← checkMetavar used p.shownName
  let used ← checkShort used p.short
  let used ← checkLong used p.long
  let used ← checkOrder used p
  checkArity used p

/-- The parameter at a place, with its parser. -/
def describe (index : Nat) (p : Parameter) (parser : Parser) (zero : Value) : Descriptor where
  index := index
  kind := p.kind
  metavar := p.shownName
  short := p.short
  long := p.long
  required := p.required
  arity := p.arity
  description := p.description
  type := p.type
  parser := parser
  fallback := p.fallback
  zero := zero
  counted := p.counted

/-- The parser of a parameter: its own, or the registry's for its type. -/
def parserFor (p : Parameter) (r : Registry) : Except ResolveError Parser × Registry :=
  match p.parser with
  | some parser => (.ok parser, r)
  | none => r.resolve p.type

/-- Check the parameters from the one at `index` on and find their parsers. -/
def buildFrom (index : Nat) (used : Used) :
    List Parameter → Registry → Except ConfigError (List Descriptor) × Registry
  | [], r => (.ok [], r)
  | p :: ps, r =>
    match check used p with
    | .error e => (.error e, r)
    | .ok used =>
      match parserFor p r with
      | (.error e, r) => (.error (.unresolved e), r)
      | (.ok parser, r) =>
        let (rest, r') := buildFrom (index + 1) used ps r
        (rest.map (describe index p parser (p.type.zero r.types) :: ·), r')

/-- Build the grammar of the parameters: the grammar or the first fault, and the registry with
the parsers that were made. -/
def build (ps : List Parameter) (r : Registry) : Except ConfigError Grammar × Registry :=
  let (descriptors, r) := buildFrom 0 {} ps r
  (descriptors.map Grammar.mk, r)

end Grammar

end TypedConsole
