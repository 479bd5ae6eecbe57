import TypedConsole.Derive.Setting

/-!
# TypedConsole.Derive.Plan

Plans of commands and compounds, made from structs with any library for the language. A field of a
command is a parameter: a switch if it has a short name, and otherwise a positional. A field of a
compound is a slot, which may have a default. The checks of a struct come before those of its
fields, and the fields are checked in order; within a field the type comes first, then the names of
its settings, then how often each has a value, and then which of them exclude each other.
-/

namespace TypedConsole.Derive

open Source

/-! ## plans -/

/-- How a parameter appears in a command line. -/
inductive Role
  | positional
  | switch (short : Snippet)
  /-- A switch that must be given. -/
  | requiredSwitch (short : Snippet)
deriving Repr

/-- What a parameter receives when it is not given. -/
inductive Requirement
  /-- It must be given. -/
  | required
  /-- The default of its type. -/
  | optional
  /-- A value. -/
  | default (value : Snippet)
  /-- What a text is read as. -/
  | defaultText (text : Snippet)
deriving Repr

/-- The plan of a parameter. -/
structure ParameterPlan where
  field : String
  type : Snippet
  role : Role
  /-- What stands for a positional in messages, or the long name of a switch. -/
  name : String
  requirement : Requirement
  /-- What stands for the value of a switch in messages. -/
  valueName : Option Snippet
  flag : Option Snippet
  min : Option Snippet
  max : Option Snippet
  description : Option Snippet
  parser : Option Snippet
deriving Repr

/-- The plan of a command. -/
structure CommandPlan where
  name : String
  parameters : List ParameterPlan
deriving Repr

/-- The plan of an element of a compound. -/
structure SlotPlan where
  field : String
  type : Snippet
  default : Option Snippet
deriving Repr

/-- The plan of a compound. -/
structure CompoundPlan where
  name : String
  /-- The condition that values satisfy. -/
  validate : Option Snippet
  slots : List SlotPlan
deriving Repr

/-! ## shared checks -/

section
variable {ε : Type} (lang : Language ε)

/-- The fields of an item that is a struct with named fields or with none. -/
def namedFields (kind : Kind) (item : Item) : Except Fault (List Field) :=
  if item.generic then .error (.generic kind)
  else
    match item.shape with
    | .record fields => .ok fields
    | .unit => .ok []
    | _ => .error (.notRecord kind)

/-- Refuses a field whose value would be borrowed. -/
def ownedType (field : Field) : Except Fault Unit :=
  if lang.isReference field.type then .error (.reference field.name) else .ok ()

/-! ## parameters -/

/-- The settings of a parameter. -/
def parameterSettings : List String :=
  ["short", "long", "meta", "optional", "required", "default", "default_raw", "flag", "min", "max",
   "description", "parser"]

/-- A setting as messages show it. -/
def shownFlag (name : String) : String := s!"#[devcon({name})]"

/-- A setting with a value as messages show it. -/
def shownValue (name : String) : String := s!"#[devcon({name} = ..)]"

/-- Refuses a field that has two of the named properties. The first two are named. -/
def exclusive (field : String) (properties : List (Bool × String)) : Except Fault Unit :=
  match properties.filter (·.1) with
  | (_, left) :: (_, right) :: _ => .error (.incompatible field left right)
  | _ => .ok ()

/-- Refuses a field that has one of the named properties beside `property`. -/
def excluded (field property : String) (properties : List (Bool × String)) : Except Fault Unit :=
  match properties.find? (·.1) with
  | some (_, other) => .error (.incompatible field property other)
  | none => .ok ()

/-- The string that a setting's value is. -/
def stringOf (setting : String) (value : Snippet) : Except Fault String :=
  match lang.string? value.tokens with
  | some text => .ok text
  | none => .error (.notString setting)

/-- The string that a setting's value is, or the given one if it has none. -/
def stringOr (setting : String) (value : Option Snippet) (otherwise : String) :
    Except Fault String :=
  match value with
  | some v => stringOf lang setting v
  | none => .ok otherwise

/-- The long name of a switch that has none of its own: the field's, with dashes. -/
def dashed (field : String) : String :=
  String.ofList (field.toList.map fun c => if c == '_' then '-' else c)

/-- What a parameter receives when it is not given, by its settings and its role. -/
def requirementOf (role : Role) (default defaultText : Option Snippet) (optional : Bool) :
    Requirement :=
  match default, defaultText with
  | some value, _ => .default value
  | none, some text => .defaultText text
  | none, none =>
    if optional then .optional
    else
      match role with
      | .switch _ => .optional
      | .positional | .requiredSwitch _ => .required

/-- The role and name of a parameter, and what stands for the value of a switch. -/
def roleOf (field : String) (short long valueName flag : Option Snippet) (required : Bool) :
    Except Fault (Role × String × Option Snippet) :=
  match short with
  | none => do
    excluded field "positional"
      [(long.isSome, shownValue "long"), (flag.isSome, shownValue "flag"),
       (required, shownFlag "required")]
    return (.positional, ← stringOr lang "meta" valueName field, none)
  | some short => do
    let name ← stringOr lang "long" long (dashed field)
    return (if required then .requiredSwitch short else .switch short, name, valueName)

/-- The plan of a parameter with the given settings. -/
def ParameterPlan.ofSettings (field : Field) (settings : Settings) :
    Except Fault ParameterPlan := do
  settings.allowOnly parameterSettings
  let short ← settings.single "short"
  let long ← settings.single "long"
  let valueName ← settings.single "meta"
  let default ← settings.single "default"
  let defaultText ← settings.single "default_raw"
  let flag ← settings.single "flag"
  let optional := settings.has "optional"
  let required := settings.has "required"
  exclusive field.name
    [(optional, shownFlag "optional"), (required, shownFlag "required"),
     (default.isSome, shownValue "default"), (defaultText.isSome, shownValue "default_raw")]
  let (role, name, valueName) ← roleOf lang field.name short long valueName flag required
  return {
    field := field.name
    type := ⟨field.type⟩
    role, name, valueName, flag
    requirement := requirementOf role default defaultText optional
    min := ← settings.single "min"
    max := ← settings.single "max"
    description := ← settings.single "description"
    parser := ← settings.single "parser" }

/-- The plan of a parameter. -/
def ParameterPlan.ofField (field : Field) : Except (DeriveError ε) ParameterPlan := do
  (ownedType lang field).mapError .fault
  let settings ← Setting.collect lang field.attributes
  (ofSettings lang field settings).mapError .fault

/-! ## commands -/

/-- The plan of the command that an item describes. The item itself has no settings. -/
def CommandPlan.ofItem (item : Item) : Except (DeriveError ε) CommandPlan := do
  let settings ← Setting.collect lang item.attributes
  (settings.allowOnly []).mapError .fault
  let fields ← (namedFields .command item).mapError .fault
  return ⟨item.name, ← fields.mapM (ParameterPlan.ofField lang)⟩

/-! ## compounds -/

/-- The plan of a slot with the given settings. -/
def SlotPlan.ofSettings (field : Field) (settings : Settings) : Except Fault SlotPlan := do
  settings.allowOnly ["default"]
  return ⟨field.name, ⟨field.type⟩, ← settings.single "default"⟩

/-- The plan of a slot. -/
def SlotPlan.ofField (field : Field) : Except (DeriveError ε) SlotPlan := do
  (ownedType lang field).mapError .fault
  let settings ← Setting.collect lang field.attributes
  (ofSettings field settings).mapError .fault

/-- The condition on the values of a compound with the given settings. -/
def CompoundPlan.validateOf (settings : Settings) : Except Fault (Option Snippet) := do
  settings.allowOnly ["validate"]
  settings.single "validate"

/-- The plan of the compound that an item describes. It has at least one slot. -/
def CompoundPlan.ofItem (item : Item) : Except (DeriveError ε) CompoundPlan := do
  let settings ← Setting.collect lang item.attributes
  let validate ← (validateOf settings).mapError .fault
  let fields ← (namedFields .compound item).mapError .fault
  let slots ← fields.mapM (SlotPlan.ofField lang)
  if slots.isEmpty then .error (.fault .noFields) else return ⟨item.name, validate, slots⟩

end

end TypedConsole.Derive
