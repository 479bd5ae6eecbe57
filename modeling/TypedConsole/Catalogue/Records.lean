import TypedConsole.Registry.Resolve
import TypedConsole.Ty.Reading

/-!
# TypedConsole.Catalogue.Records

A catalogue of declared types: vectors, colours, ranges and other records, a pair of any two
types, a type without a literal and a type that contains itself. One more record can be described
freely; it goes by the name of `Dyn`.
-/

namespace TypedConsole.Catalogue

/-- The path of a declared type of this catalogue. -/
def pathOf (name : String) : String := "driver::types::" ++ name

/-- A declared type of this catalogue. -/
def type (name : String) (arguments : List Ty := []) : Ty := .declared (pathOf name) arguments

/-- The short name of a declared type, which is its name in help messages. -/
def shortName (name : String) (arguments : List Ty := []) : String :=
  Ty.shorten (type name arguments).fullName

/-- A double width floating point type. -/
def f64 : Ty := .float .f64

/-- A single width floating point type. -/
def f32 : Ty := .float .f32

/-- The least byte type. -/
def byte : Ty := .integer .u8

/-- The greatest number of 32 bits with a sign. -/
def greatestI32 : Value := .integer IntegerType.i32.greatest

/-! ## records that name their fields -/

/-- A record whose template shows the names of its fields. -/
def namedRecord (name : String) (fields : List (String × SlotSpec))
    (accepts : List Value → Bool := fun _ => true) : RecordSpec where
  slots := fields.map (·.2)
  accepts := accepts
  name _ := shortName name
  template := RecordSpec.namedTemplate (fields.map (·.1))

/-- Two or three coordinates. -/
def vector : RecordSpec :=
  namedRecord "Vector"
    [("x", { type := f64 }), ("y", { type := f64 }),
     ("z", { type := f64, default := some (.float FloatType.f64.zero) })]

/-- A channel of a colour lies between zero and one. -/
def isChannel : Value → Bool
  | .float x => BinaryFloat.le FloatType.f32.zero x && BinaryFloat.le x FloatType.f32.one
  | _ => false

/-- Three channels and an opacity. -/
def colour : RecordSpec :=
  namedRecord "Colour"
    [("r", { type := f32 }), ("g", { type := f32 }), ("b", { type := f32 }),
     ("a", { type := f32, default := some (.float FloatType.f32.one) })]
    (·.all isChannel)

/-- Two numbers in order. -/
def isOrdered : List Value → Bool
  | [.integer low, .integer high] => low ≤ high
  | _ => false

/-- A lower bound, and perhaps an upper one. -/
def range : RecordSpec :=
  namedRecord "Range"
    [("low", { type := .integer .i32 }),
     ("high", { type := .integer .i32, default := some greatestI32 })]
    isOrdered

/-- A slot with a default in front of one without. -/
def gap : RecordSpec :=
  namedRecord "Gap"
    [("first", { type := byte, default := some (.integer 7) }), ("second", { type := byte }),
     ("third", { type := .string, default := some (.string "end") })]

/-! ## other records -/

/-- Two ends between angle brackets, with a semicolon between them. -/
def span : RecordSpec where
  slots := [{ type := byte, default := some (.integer 0) },
    { type := byte, default := some (.integer 9) }]
  groupings := ⟨⟨'<', '>'⟩, []⟩
  separator := ';'
  name _ := shortName "Span"

/-- Two components of any types. -/
def twin (left right : Ty) : RecordSpec where
  slots := [{ type := left }, { type := right }]
  name _ := shortName "Pair" [left, right]

/-- A record that is described freely. -/
structure FreeRecord where
  slots : List SlotSpec := []
  /-- The types to be taken, if they are not those of the slots. -/
  taken : Option (List Ty) := none
  groupings : Groupings := .brackets
  separator : Char := memberSeparator
  name : String := "Dyn"
  /-- The name stands alone, without the names of the slots. -/
  exact : Bool := false
  template : Option String := none

/-- A slot in the template of a free record: a question mark follows one that has a default. -/
def freeSlot (l : SlotLabel) : String :=
  if l.hasDefault then l.templateOrName ++ "?" else l.templateOrName

/-- The record type of a description. -/
def FreeRecord.spec (r : FreeRecord) : RecordSpec where
  slots := r.slots
  groupings := r.groupings
  separator := r.separator
  taken := r.taken.getD (r.slots.map (·.type))
  name labels :=
    if r.exact then r.name
    else r.name ++ "<" ++ "|".intercalate (labels.map (·.name)) ++ ">"
  template labels :=
    r.template.getD (Parser.enclose r.groupings (" ".intercalate (labels.map freeSlot)))

/-! ## the declarations -/

/-- A record with an initial value. -/
def declareRecord (spec : RecordSpec) (zero : List Value) : Declaration :=
  ⟨.record spec, fun _ => .list zero⟩

/-- What a name of the catalogue stands for. -/
def declaration (free : FreeRecord) : String → List Ty → Option Declaration
  | "Vector", [] =>
    some (declareRecord vector (List.replicate 3 (.float FloatType.f64.zero)))
  | "Colour", [] =>
    some (declareRecord colour (List.replicate 4 (.float FloatType.f32.zero)))
  | "Range", [] => some (declareRecord range [.integer 0, .integer 0])
  | "Gap", [] => some (declareRecord gap [.integer 0, .integer 0, .string ""])
  | "Span", [] => some (declareRecord span [.integer 0, .integer 0])
  | "Pair", [left, right] => some ⟨.record (twin left right), .list⟩
  | "Dyn", [] => some (declareRecord free.spec [])
  | "Opaque", [] => some ⟨.opaqueType, fun _ => .unit⟩
  | "Node", [] => some ⟨.alias "Node" (.sequence .vector (type "Node")), fun _ => .list []⟩
  | _, _ => none

/-- The names of the catalogue. -/
def names : List String :=
  ["Vector", "Colour", "Range", "Gap", "Span", "Pair", "Dyn", "Opaque", "Node"]

/-- The declared types of the catalogue, with the free record as described. -/
def types (free : FreeRecord) : Declarations := fun path arguments => do
  let name ← names.find? (pathOf · = path)
  declaration free name arguments

/-- The path of a name, if it is one of the catalogue. -/
def findPath (name : String) : Option String :=
  if names.contains name then some (pathOf name) else none

/-- The type of a short name. -/
def typeNamed (name : String) : Option Ty := Ty.ofShortName? findPath name

/-- The names of a record's fields. -/
def fieldNames : String → Option (List String)
  | "Vector" => some ["x", "y", "z"]
  | "Colour" => some ["r", "g", "b", "a"]
  | "Range" => some ["low", "high"]
  | "Gap" => some ["first", "second", "third"]
  | "Span" => some ["from", "to"]
  | "Pair" => some ["left", "right"]
  | _ => none

end TypedConsole.Catalogue
