/-!
# TypedConsole.Derive.Fault

What can be wrong with a struct that describes a command or a compound.
-/

namespace TypedConsole.Derive

/-- What a struct describes. -/
inductive Kind
  /-- A command, with a parameter for every field. -/
  | command
  /-- A grouped literal, with an element for every field. -/
  | compound
deriving DecidableEq, Repr

/-- The kind as messages name it. -/
def Kind.name : Kind → String
  | command => "Command"
  | compound => "Compound"

/-- Why a struct describes nothing. -/
inductive Fault
  /-- An expression among the settings is no setting. -/
  | unparseable (expression : String)
  | unknownSetting (name : String)
  /-- A setting has two values. -/
  | repeated (name : String)
  /-- Two settings exclude each other. -/
  | incompatible (field left right : String)
  /-- The value of a setting must be a string. -/
  | notString (setting : String)
  | generic (kind : Kind)
  /-- The item is no struct with named fields. -/
  | notRecord (kind : Kind)
  | reference (field : String)
  | noFields
deriving DecidableEq, Repr

/-- The wording of the fault. -/
def Fault.message : Fault → String
  | unparseable expression => s!"Invalid - unparseable attribute `{expression}`."
  | unknownSetting name => s!"Invalid - unknown attribute `#[devcon({name})]`."
  | repeated name => s!"Invalid - `#[devcon({name} = ..)]` may only appear once."
  | incompatible field left right =>
    s!"Invalid - field '{field}' cannot be both `{left}` and `{right}`."
  | notString setting => s!"Invalid - `#[devcon({setting} = ..)]` expects a string literal."
  | generic kind => s!"Invalid - {kind.name} does not support generic structs."
  | notRecord kind => s!"Invalid - {kind.name} requires a struct with named fields."
  | reference field => s!"Invalid - field '{field}' cannot be a reference."
  | noFields => "Invalid - Compound requires at least one field."

/-- Why a source text describes nothing. -/
inductive DeriveError (ε : Type)
  /-- The text is no item, or the arguments of an attribute are no expressions. -/
  | malformed (reason : ε)
  | fault (fault : Fault)
deriving DecidableEq, Repr

end TypedConsole.Derive
