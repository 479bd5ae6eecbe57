import TypedConsole.Ty
import TypedConsole.Text.Numeric

/-!
# TypedConsole.Ty.Name

The names of types. The full name gives every type with its whole path and is what messages show;
shortening a name keeps only the last segment of each path.
-/

namespace TypedConsole

/-- Texts with commas between them. -/
def commaSeparated (texts : List String) : String := ", ".intercalate texts

/-- A tuple's name from the names of its components: one component is followed by a comma. -/
def tupleName : List String → String
  | [name] => s!"({name},)"
  | names => s!"({commaSeparated names})"

namespace Ty

/-! ## full names -/

/-- The path of a set. -/
def setPath : Indexing → String
  | .hashed => "std::collections::hash::set::HashSet"
  | .ordered => "alloc::collections::btree::set::BTreeSet"

/-- The path of a map. -/
def mapPath : Indexing → String
  | .hashed => "std::collections::hash::map::HashMap"
  | .ordered => "alloc::collections::btree::map::BTreeMap"

/-- The full name of a sequence, from the full name of its elements. -/
def sequenceFullName (kind : SequenceKind) (element : String) : String :=
  match kind with
  | .vector => s!"alloc::vec::Vec<{element}>"
  | .deque => s!"alloc::collections::vec_deque::VecDeque<{element}>"
  | .stack => s!"devcon_builder::parser::sequence::Stack<{element}>"
  | .slice => s!"alloc::boxed::Box<[{element}]>"
  | .array length => s!"[{element}; {length}]"

mutual
/-- The name of a type with all paths in full. -/
def fullName : Ty → String
  | string => "alloc::string::String"
  | char => "char"
  | bool => "bool"
  | integer t => t.name
  | float t => t.name
  | optional t => s!"core::option::Option<{fullName t}>"
  | sequence k t => sequenceFullName k (fullName t)
  | set i t => s!"{setPath i}<{fullName t}>"
  | map i k v => s!"{mapPath i}<{fullName k}, {fullName v}>"
  | pair k v => s!"devcon_builder::parser::map::KeyValue<{fullName k}, {fullName v}>"
  | tuple ts => tupleName (fullNames ts)
  | declared path [] => path
  | declared path (a :: as) => s!"{path}<{commaSeparated (fullName a :: fullNames as)}>"

/-- The full names of types. -/
def fullNames : List Ty → List String
  | [] => []
  | t :: ts => fullName t :: fullNames ts
end

/-! ## short names -/

/-- A character of a path: of its segments or of the marks between them. -/
def isPathChar (c : Char) : Bool := Text.isAlphanumeric c || c == '_' || c == ':'

/-- What follows the last `::` of `path`, or `found` if there is none. -/
def lastSegmentFrom (found : List Char) : List Char → List Char
  | ':' :: ':' :: r => lastSegmentFrom r (':' :: r)
  | _ :: r => lastSegmentFrom found r
  | [] => found

/-- What follows the last `::` of a path. -/
def lastSegment (path : List Char) : List Char := lastSegmentFrom path path

/-- Shorten what remains of a name, `segment` being the path read so far, last character first. -/
def shortenFrom (segment : List Char) : List Char → List Char
  | [] => lastSegment segment.reverse
  | c :: r =>
    if isPathChar c then shortenFrom (c :: segment) r
    else lastSegment segment.reverse ++ c :: shortenFrom [] r

/-- The name with every path cut down to its last segment. -/
def shorten (name : String) : String := String.ofList (shortenFrom [] name.toList)

end Ty

end TypedConsole
