import TypedConsole.Arity
import TypedConsole.Declaration

/-!
# TypedConsole.Parameter

The declaration of a parameter. A positional is identified by its order, a switch by a short name
`-x` or a long name `--name`. A switch of truth values is a flag, set by its presence alone, unless
that is turned off. Parameters are required, or optional with something to fall back to; the
modifiers below change one thing each and may be applied in any order.
-/

namespace TypedConsole

/-! ## kinds -/

/-- How a parameter is supplied. -/
inductive ParameterKind
  | positional
  | switch
  | flag
deriving DecidableEq, Repr

/-- The kind in one word. -/
def ParameterKind.name : ParameterKind → String
  | positional => "positional"
  | switch => "switch"
  | flag => "flag"

/-- How a parameter is identified. -/
inductive Identification
  | byOrder
  | byName
deriving DecidableEq, Repr

/-- What an optional parameter takes when it is not supplied. -/
inductive Fallback
  /-- The initial value of its type. -/
  | zero
  | value (v : Value)
  /-- A text to be read as a value of the type, or else the initial value. -/
  | text (literal : String)

/-! ## declarations -/

/-- A declared parameter. -/
structure Parameter where
  type : Ty
  identification : Identification
  /-- The name shown for the value. -/
  metavar : Option String := none
  short : Option Char := none
  long : Option String := none
  required : Bool := true
  /-- A switch of truth values is a flag. -/
  flagMode : Bool := true
  arity : Arity := {}
  description : Option String := none
  fallback : Option Fallback := none
  /-- The number of elements is checked against the arity. -/
  counted : Bool := false
  /-- Reads the values in place of the parser that the registry has for the type. -/
  parser : Option Parser := none

namespace Parameter

/-! ## constructors and modifiers -/

/-- Make the parameter optional, with the initial value of its type. -/
def optional (p : Parameter) : Parameter := { p with required := false, fallback := some .zero }

/-- A required positional. -/
def positional (type : Ty) (metavar : String) : Parameter :=
  { type, identification := .byOrder, metavar := some metavar }

/-- A required switch. -/
def requiredSwitch (type : Ty) (short : Char) : Parameter :=
  { type, identification := .byName, short := some short }

/-- An optional switch. -/
def switch (type : Ty) (short : Char) : Parameter := (requiredSwitch type short).optional

/-- Set the long name: the text without blanks at its ends, with a dash for each blank inside. -/
def withLong (long : String) (p : Parameter) : Parameter :=
  let name := (Text.trim long).toList.map fun c => if Text.isBlank c then '-' else c
  { p with long := some (String.ofList name) }

/-- Set the name shown for the value. -/
def withMetavar (metavar : String) (p : Parameter) : Parameter := { p with metavar := some metavar }

/-- Describe the parameter in help messages. -/
def withDescription (text : String) (p : Parameter) : Parameter :=
  { p with description := some text }

/-- Make the parameter required. -/
def require (p : Parameter) : Parameter := { p with required := true, fallback := none }

/-- Make the parameter optional, falling back to a value. -/
def withDefault (v : Value) (p : Parameter) : Parameter :=
  { p with required := false, fallback := some (.value v) }

/-- Make the parameter optional, falling back to a text that is read as a value. -/
def withDefaultText (text : String) (p : Parameter) : Parameter :=
  { p with required := false, fallback := some (.text text) }

/-- Turn flag mode on or off. -/
def withFlagMode (enabled : Bool) (p : Parameter) : Parameter := { p with flagMode := enabled }

/-- Require at least this many elements. -/
def withMin (least : Nat) (p : Parameter) : Parameter :=
  { p with arity := { p.arity with min := some least }, counted := true }

/-- Require at most this many elements. -/
def withMax (most : Nat) (p : Parameter) : Parameter :=
  { p with arity := { p.arity with max := some most }, counted := true }

/-- Read the values with this parser. -/
def withParser (parser : Parser) (p : Parameter) : Parameter := { p with parser := some parser }

/-! ## what is declared -/

/-- How the parameter is supplied. -/
def kind (p : Parameter) : ParameterKind :=
  match p.identification with
  | .byOrder => .positional
  | .byName => if p.flagMode && p.type = .bool then .flag else .switch

/-- The name shown for the value: the one that was set without blanks at its ends, or else the
long name, or else the short one. -/
def shownName (p : Parameter) : String :=
  match p.metavar, p.long, p.short with
  | some name, _, _ => Text.trim name
  | none, some name, _ => name
  | none, none, some c => String.singleton c
  | none, none, none => ""

/-- The word for a parameter that must or need not be supplied. -/
def necessity (required : Bool) : String := if required then "required" else "optional"

/-- The declaration in one line. -/
def summary (p : Parameter) : String :=
  let style := match p.identification with
    | .byOrder => "Positional"
    | .byName => "Switch"
  let name := match p.identification, p.metavar, p.short, p.long with
    | .byOrder, some name, _, _ => name
    | _, _, some c, some long => s!"-{c}, --{long}"
    | _, _, some c, none => s!"-{c}"
    | _, _, _, _ => "?"
  s!"{style}[{p.type.fullName}, {name}, {necessity p.required}]"

end Parameter

end TypedConsole
