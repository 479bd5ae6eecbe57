import TypedConsole.Ty

/-!
# TypedConsole.Value

Parsed values. A value does not name its type: all sequences, sets, tuples and records are lists,
a map is the list of its pairs, and a stack lists its elements from the top. Sets and maps are
kept in increasing order of their keys, so equal ones are equal lists.
-/

namespace TypedConsole

/-- The value of a literal. -/
inductive Value
  | bool (b : Bool)
  | integer (n : Int)
  | float (x : BinaryFloat)
  | char (c : Char)
  | string (s : String)
  /-- The value of an optional type that holds nothing. -/
  | absent
  | present (v : Value)
  | pair (key value : Value)
  | list (vs : List Value)
  /-- The one value of a type without content. -/
  | unit
deriving Repr

/-- A value together with the type it was parsed or made for. -/
structure TypedValue where
  type : Ty
  value : Value
deriving Repr

/-- The value, if the type is the expected one. -/
def TypedValue.as? (v : TypedValue) (t : Ty) : Option Value :=
  if v.type = t then some v.value else none

namespace Value

/-! ## elements -/

/-- The number of elements of a container; an optional container that is absent has none. -/
def elementCount : Value → Nat
  | list vs => vs.length
  | present v => elementCount v
  | _ => 0

/-! ## order -/

/-- The place of a value's form among the forms. -/
def rank : Value → Nat
  | bool _ => 0 | integer _ => 1 | float _ => 2 | char _ => 3 | string _ => 4
  | absent => 5 | present _ => 6 | pair _ _ => 7 | list _ => 8 | unit => 9

/-- Integers that order floating point numbers of one format by value, with the negative zero below
the positive one. -/
def floatKey (x : BinaryFloat) : List Int :=
  if x.negative then [-1, -x.exponent, -x.significand] else [0, x.exponent, x.significand]

mutual
/-- The order of values: numbers by value, characters by code point, false before true, texts and
lists lexicographically, where a list comes after its beginnings. -/
def compare : Value → Value → Ordering
  | bool a, bool b => Ord.compare a b
  | integer a, integer b => Ord.compare a b
  | float a, float b => Ord.compare (floatKey a) (floatKey b)
  | char a, char b => Ord.compare a.toNat b.toNat
  | string a, string b => Ord.compare (a.toList.map Char.toNat) (b.toList.map Char.toNat)
  | present a, present b => compare a b
  | pair k a, pair l b => (compare k l).then (compare a b)
  | list as, list bs => compareLists as bs
  | a, b => Ord.compare a.rank b.rank

/-- The lexicographic order of lists of values. -/
def compareLists : List Value → List Value → Ordering
  | [], [] => .eq
  | [], _ :: _ => .lt
  | _ :: _, [] => .gt
  | a :: as, b :: bs => (compare a b).then (compareLists as bs)
end

/-! ## sets and maps -/

/-- Insert into an increasing list, unless the value is there already. -/
def insert (v : Value) : List Value → List Value
  | [] => [v]
  | w :: ws =>
    match compare v w with
    | .lt => v :: w :: ws
    | .eq => w :: ws
    | .gt => w :: insert v ws

/-- The distinct values among `vs`, in increasing order. -/
def distinct (vs : List Value) : List Value := vs.foldl (fun set v => insert v set) []

/-- The value bound to the key. -/
def find? (key : Value) (entries : List (Value × Value)) : Option Value :=
  (entries.find? fun e => compare key e.1 == .eq).map (·.2)

/-- Bind a key in a list of bindings with increasing keys, in place of an earlier binding. -/
def bind (key value : Value) : List (Value × Value) → List (Value × Value)
  | [] => [(key, value)]
  | e :: es =>
    match compare key e.1 with
    | .lt => (key, value) :: e :: es
    | .eq => (key, value) :: es
    | .gt => e :: bind key value es

/-- The map with these bindings, as a list of pairs. -/
def ofEntries (entries : List (Value × Value)) : Value :=
  list (entries.map fun e => pair e.1 e.2)

end Value

end TypedConsole
