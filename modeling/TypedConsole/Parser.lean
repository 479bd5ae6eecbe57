import TypedConsole.Reader.Scalar
import TypedConsole.Reader.Group
import TypedConsole.Value
import TypedConsole.Ty.Name

/-!
# TypedConsole.Parser

Parsers of literals, as data. A parser describes how the values of one type are written; `read`
reads a literal the way a parser describes, `name` and `template` say how the type is shown to a
user. The special characters are not part of a parser: reading takes the set that holds at the
time.
-/

namespace TypedConsole

/-! ## parts -/

/-- A parser supplied from outside: a name, a template and a reader of its own.  The reader keeps
the contract of parsers: it only ever claims characters from the front, and in front of anything but
a blank it claims one if it gives a value.  What is proved about all parsers and grammars is about
those whose parsers from outside do. -/
structure CustomParser where
  name : String
  template : Option String
  read : Reader Value
  claims : read.Claims
  progresses : read.Progresses

/-- One position of a record literal: its type, its parser, and the value it takes when the
literal closes before it. -/
structure Slot (α : Type) where
  type : Ty
  parser : α
  default : Option Value

/-- How bindings are collected: the map with one more binding, and whether its key was new. -/
abbrev Binder := List (Value × Value) → Value → Value → List (Value × Value) × Bool

/-- The form of a record literal and what becomes of its elements. -/
structure RecordForm where
  groupings : Groupings
  separator : Char
  name : String
  template : String
  /-- Builds the value from one element for each slot, or rejects them. -/
  assemble : List TypedValue → Option Value

/-- A parser of literals. -/
inductive Parser
  | string
  | char
  | bool
  | integer (type : IntegerType)
  | float (type : FloatType)
  /-- A literal of `inner`, as a value that is present. -/
  | optional (inner : Parser)
  /-- A group of elements, turned into a container or rejected by `collect`. -/
  | sequence (element : Parser) (groupings : Groupings) (name : String)
      (collect : List Value → Option Value)
  /-- A key, a colon and a value. -/
  | pair (key value : Parser)
  /-- A group of pairs in braces. -/
  | map (pair : Parser) (name : String) (bind : Binder)
  | record (slots : List (Slot Parser)) (form : RecordForm)
  /-- A literal of `inner` under another name, shown without a template. -/
  | renamed (inner : Parser) (name : String)
  | custom (parser : CustomParser)

/-- Between the members of a group stands a comma. -/
def memberSeparator : Char := ','

/-- Between a key and its value stands a colon. -/
def keySeparator : Char := ':'

namespace Parser

/-! ## names and templates -/

/-- The name of the parsed type. -/
def name : Parser → String
  | string => "String"
  | char => "char"
  | bool => "bool"
  | integer t => t.name
  | float t => t.name
  | optional p => s!"Option<{p.name}>"
  | sequence _ _ name _ => name
  | pair k v => s!"KeyValue<{k.name}, {v.name}>"
  | map _ name _ => name
  | record _ form => form.name
  | renamed _ name => name
  | custom p => p.name

/-- A text between the first of the groupings. -/
def enclose (g : Groupings) (text : String) : String :=
  String.singleton g.first.opening ++ text ++ String.singleton g.first.closing

/-- The template of the parsed literal, for the types that have one. -/
def template : Parser → Option String
  | string | char | integer _ | float _ | renamed _ _ => none
  | bool => some "t/f"
  | optional p => p.template
  | sequence p g _ _ => some (enclose g (p.template.getD p.name ++ " ..."))
  | pair k v => some (k.template.getD "key" ++ ": " ++ v.template.getD "value")
  | map p _ _ => some (enclose .braces (p.template.getD p.name ++ " ..."))
  | record _ form => some form.template
  | custom p => p.template

/-- The template, or else the name. -/
def templateOrName (p : Parser) : String := p.template.getD p.name

/-! ## reading -/

/-- A key, a colon with blanks around it or none, and a value. -/
def readPair (key value : Reader Value) : Reader (Value × Value) := fun s =>
  match key s with
  | (none, t) => (none, t)
  | (some k, t) =>
    match Text.skipBlanks t with
    | [] => (none, [])
    | c :: t =>
      if c = keySeparator then
        let (v, u) := value (Text.skipBlanks t)
        (v.map ((k, ·)), u)
      else (none, t)

/-- Bind the pairs in order; a key that is not new spoils the map. -/
def bindAll (bind : Binder) (pairs : List (Value × Value)) : Option (List (Value × Value)) :=
  let (entries, unique) := pairs.foldl (fun (entries, unique) (k, v) =>
    let (entries, new) := bind entries k v
    (entries, unique && new)) ([], true)
  if unique then some entries else none

/-- The defaults of slots, if every one of them has one. -/
def defaults : List (Slot α) → Option (List TypedValue)
  | [] => some []
  | slot :: slots => do
    let v ← slot.default
    let vs ← defaults slots
    pure (⟨slot.type, v⟩ :: vs)

/-- The record of the elements read: the slots that they do not reach take their defaults. -/
def complete (slots : List (Slot α)) (form : RecordForm) (read : List Value) : Option Value := do
  let supplied := List.zipWith (fun slot v => ⟨slot.type, v⟩) slots read
  let rest ← defaults (slots.drop read.length)
  form.assemble (supplied ++ rest)

mutual
/-- Read a literal as the parser describes. -/
def read (special : SpecialSet) : Parser → Reader Value
  | string => (Reader.string special).map .string
  | char => (Reader.char special).map .char
  | bool => (Reader.bool special).map .bool
  | integer t => (Reader.integer t special).map .integer
  | float t => (Reader.float t special).map .float
  | optional p => (read special p).map .present
  | sequence p g _ collect =>
    (Reader.group g memberSeparator fun _ => read special p).mapOption collect
  | pair k v => (readPair (read special k) (read special v)).map fun (k, v) => .pair k v
  | map p _ bind =>
    (Reader.group .braces memberSeparator fun _ => read special p).mapOption fun pairs =>
      (bindAll bind (pairs.filterMap fun
        | .pair k v => some (k, v)
        | _ => none)).map Value.ofEntries
  | record slots form =>
    let readers := readSlots special slots
    (Reader.group form.groupings form.separator fun i =>
      readers.getD i fun s => (none, s)).mapOption (complete slots form)
  | renamed p _ => read special p
  | custom p => p.read

/-- The readers of the slots. -/
def readSlots (special : SpecialSet) : List (Slot Parser) → List (Reader Value)
  | [] => []
  | ⟨_, p, _⟩ :: slots => read special p :: readSlots special slots
end

end Parser

end TypedConsole
