import TypedConsole.Ty
import TypedConsole.Text.Blank
import TypedConsole.Number.Decimal

/-!
# TypedConsole.Ty.Reading

Reading the short name of a type, such as `Vec<(String, u8)>` or `[i32; 3]`. A name that is none of
the built-in ones is a declared type, and the caller says under which path.
-/

namespace TypedConsole.Ty

/-- The built-in type of a bare name. -/
def scalarNamed (name : String) : Option Ty :=
  if name = "String" then some string
  else if name = "char" then some char
  else if name = "bool" then some bool
  else if name = "f32" then some (float .f32)
  else if name = "f64" then some (float .f64)
  else (IntegerType.all.find? (·.name = name)).map integer

/-- The built-in type of a name with arguments. -/
def containerNamed : String → List Ty → Option Ty
  | "Option", [t] => some (optional t)
  | "Vec", [t] => some (sequence .vector t)
  | "VecDeque", [t] => some (sequence .deque t)
  | "Stack", [t] => some (sequence .stack t)
  | "HashSet", [t] => some (set .hashed t)
  | "BTreeSet", [t] => some (set .ordered t)
  | "HashMap", [k, v] => some (map .hashed k v)
  | "BTreeMap", [k, v] => some (map .ordered k v)
  | "KeyValue", [k, v] => some (pair k v)
  | _, _ => none

/-- The type of a name and its arguments, for declared types found through `pathOf`. -/
def named (pathOf : String → Option String) (name : String) (arguments : List Ty) : Option Ty :=
  let builtIn := if arguments.isEmpty then scalarNamed name else containerNamed name arguments
  builtIn.or ((pathOf name).map (declared · arguments))

/-- A character of a type's own name. -/
def isNameChar (c : Char) : Bool := c.isAlphanum || c == '_'

mutual
/-- Read a type at the front of a text, in at most `fuel` nested steps. -/
def read (pathOf : String → Option String) (fuel : Nat) (s : List Char) :
    Option (Ty × List Char) :=
  match fuel with
  | 0 => none
  | fuel + 1 =>
    match Text.skipBlanks s with
    | '(' :: r => do
      let (ts, r) ← readList pathOf fuel ')' r
      pure (tuple ts, r)
    | '[' :: r => do
      let (t, r) ← read pathOf fuel r
      match Text.skipBlanks r with
      | ';' :: r =>
        let r := Text.skipBlanks r
        match r.dropWhile Decimal.isDigit with
        | ']' :: rest =>
          pure (sequence (.array (Decimal.value (r.takeWhile Decimal.isDigit))) t, rest)
        | _ => none
      | _ => none
    | s => do
      let name := String.ofList (s.takeWhile isNameChar)
      match s.dropWhile isNameChar with
      | '<' :: '[' :: r =>
        guard (name = "Box")
        let (t, r) ← read pathOf fuel r
        match r with
        | ']' :: '>' :: r => pure (sequence .slice t, r)
        | _ => none
      | '<' :: r =>
        let (ts, r) ← readList pathOf fuel '>' r
        let t ← named pathOf name ts
        pure (t, r)
      | r =>
        let t ← named pathOf name []
        pure (t, r)

/-- Read types separated by commas up to the character `close`. A comma may precede it. -/
def readList (pathOf : String → Option String) (fuel : Nat) (close : Char) (s : List Char) :
    Option (List Ty × List Char) :=
  match fuel with
  | 0 => none
  | fuel + 1 =>
    match Text.skipBlanks s with
    | [] => none
    | c :: r =>
      if c = close then some ([], r)
      else do
        let (t, r) ← read pathOf fuel (c :: r)
        match Text.skipBlanks r with
        | ',' :: r =>
          let (ts, r) ← readList pathOf fuel close r
          pure (t :: ts, r)
        | d :: r =>
          guard (d = close)
          pure ([t], r)
        | [] => none
end

/-- The type with this short name. -/
def ofShortName? (pathOf : String → Option String) (name : String) : Option Ty :=
  let s := name.toList
  match read pathOf (2 * s.length + 2) s with
  | some (t, []) => some t
  | _ => none

end TypedConsole.Ty
