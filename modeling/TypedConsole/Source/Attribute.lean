import TypedConsole.Source.Declaration
import TypedConsole.Source.Rules

/-!
# TypedConsole.Source.Attribute

Attributes: a path behind `#` in brackets, which a group of arguments or a value may follow. An
attribute describes what stands after it, or with a `!` behind the `#`, what it stands in.
-/

namespace TypedConsole.Source

open Phrase

/-! ## plain paths -/

namespace PathPhrase

/-- A word that may stand in a path comes next, be it a keyword. -/
def startsSegment (ts : Tokens) : Bool :=
  startsName ts || startsOneOf ["super", "self", "Self", "crate"] ts

/-- A path whose segments have no arguments. -/
def plainPath : Phrase :=
  inOrder [optionalOperator "::", tree startsSegment,
    whileNext (nextOperator "::") (andThen (operator "::") (tree startsSegment))]

end PathPhrase

/-! ## attributes -/

namespace Attribute

/-- An equals sign and a value. The value has no attributes of its own. -/
def value (g : Rules) : Phrase := do
  let equals ← operator "="
  let described ← next fun ts => startsOperator ['#'] ts && startsGroup .brackets (afterTree ts)
  if described then failure else return equals ++ (← g.expressionTrees true)

/-- A value comes next. -/
def nextValue : Reading Bool :=
  next fun ts => startsEquals ts && !startsOperator "==".toList ts

/-- What stands in the brackets of an attribute. -/
def content (g : Rules) : Reading Attribute := do
  let path ← if ← nextWord "unsafe" then word "unsafe" else PathPhrase.plainPath
  match ← get with
  | .group d arguments :: rest =>
    set rest
    return ⟨path, some arguments, path ++ [.group d arguments]⟩
  | _ => return ⟨path, none, path ++ (← whenNext nextValue (value g))⟩

/-- An attribute that comes next. -/
def read (g : Rules) : Reading Attribute := do
  let mark ← operator "#"
  let found ← contentOf .brackets (content g)
  return { found with trees := mark ++ [.group .brackets found.trees] }

/-- All attributes that come next. -/
def readAll (g : Rules) : Reading (List Attribute) := allNext (nextOperator "#") (read g)

/-- Any number of attributes as a phrase. -/
def phrases (g : Rules) : Phrase := do return (← readAll g).flatMap (·.trees)

/-- An attribute of what it stands in. -/
def inner (g : Rules) : Phrase := do
  let mark ← andThen (operator "#") (operator "!")
  let found ← contentOf .brackets (content g)
  return mark ++ [.group .brackets found.trees]

/-- An attribute of what it stands in comes next. -/
def startsInner (ts : Tokens) : Bool := startsOperator ['#'] ts && startsOperator ['!'] (ts.drop 1)

/-- Any number of attributes of what they stand in. -/
def inners (g : Rules) : Phrase := whileNext (next startsInner) (inner g)

end Attribute

end TypedConsole.Source
