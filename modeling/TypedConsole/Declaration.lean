import TypedConsole.Parser

/-!
# TypedConsole.Declaration

What a declared type is. Most are records, which say what their slots are, how the literal is
grouped and how the elements become a value; tuples are records that are built in. A type may
also be another type under a name of its own, or have no literal at all until a parser is
registered for it.
-/

namespace TypedConsole

/-! ## records -/

/-- A slot as it is declared: a type, and perhaps a default. -/
structure SlotSpec where
  type : Ty
  default : Option Value := none

/-- How a resolved slot is shown to a user. -/
structure SlotLabel where
  name : String
  template : Option String
  hasDefault : Bool

/-- The slot's template, or else the name of its type. -/
def SlotLabel.templateOrName (l : SlotLabel) : String := l.template.getD l.name

/-- A record type. -/
structure RecordSpec where
  slots : List SlotSpec
  groupings : Groupings := .brackets
  separator : Char := memberSeparator
  /-- The types that assembling takes from the elements, one after the other. Elements that are
  not taken are dropped. -/
  taken : List Ty := slots.map (·.type)
  /-- Whether the values taken make a record. -/
  accepts : List Value → Bool := fun _ => true
  /-- The name of the type, from its slots. -/
  name : List SlotLabel → String
  /-- The template of the literal, from its slots. -/
  template : List SlotLabel → String :=
    fun labels => Parser.enclose groupings (" ".intercalate (labels.map (·.templateOrName)))

namespace RecordSpec

/-- Take one element of each type, in order. -/
def take : List Ty → List TypedValue → Option (List Value)
  | [], _ => some []
  | _ :: _, [] => none
  | t :: ts, v :: vs => do
    let v ← v.as? t
    let vs ← take ts vs
    pure (v :: vs)

/-- The record made of the elements: the list of what is taken, if it is accepted. -/
def assemble (r : RecordSpec) (elements : List TypedValue) : Option Value := do
  let vs ← take r.taken elements
  if r.accepts vs then pure (.list vs) else none

/-- A template that names the slots. -/
def namedTemplate (names : List String) : List SlotLabel → String :=
  fun _ => Parser.enclose .brackets (" ".intercalate names)

/-- A tuple. -/
def tuple (components : List Ty) : RecordSpec where
  slots := components.map fun t => ⟨t, none⟩
  name labels := tupleName (labels.map (·.name))

/-- The parser of a record whose slots have been resolved. -/
def parser (r : RecordSpec) (slots : List (Slot Parser)) : Parser :=
  let labels := slots.map fun s => ⟨s.parser.name, s.parser.template, s.default.isSome⟩
  .record slots ⟨r.groupings, r.separator, r.name labels, r.template labels, r.assemble⟩

end RecordSpec

/-! ## declarations -/

/-- What a declared type is. -/
inductive TypeBody
  /-- No literal of its own. -/
  | opaqueType
  /-- The literals of another type, shown under the given name. -/
  | alias (name : String) (type : Ty)
  | record (spec : RecordSpec)

/-- A declared type: what it is, and its initial value in terms of those of its arguments. -/
structure Declaration where
  body : TypeBody
  zero : List Value → Value

/-- The declared types by path and arguments. -/
abbrev Declarations := String → List Ty → Option Declaration

/-! ## initial values -/

mutual
/-- The value that an optional parameter of the type has when nothing else is said: zero, empty,
false, absent, or the same for each component. -/
def Ty.zero (types : Declarations) : Ty → Value
  | .string => .string ""
  | .char => .char '\x00'
  | .bool => .bool false
  | .integer _ => .integer 0
  | .float t => .float t.zero
  | .optional _ => .absent
  | .sequence (.array n) t => .list (List.replicate n (t.zero types))
  | .sequence _ _ | .set _ _ | .map _ _ _ => .list []
  | .pair k v => .pair (k.zero types) (v.zero types)
  | .tuple ts => .list (Ty.zeros types ts)
  | .declared path args =>
    match types path args with
    | some d => d.zero (Ty.zeros types args)
    | none => .unit

/-- The initial values of types. -/
def Ty.zeros (types : Declarations) : List Ty → List Value
  | [] => []
  | t :: ts => t.zero types :: Ty.zeros types ts
end

end TypedConsole
