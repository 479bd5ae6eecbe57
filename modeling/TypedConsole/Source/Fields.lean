import TypedConsole.Source.BoundPhrase

/-!
# TypedConsole.Source.Fields

The fields of data types in the Rust language, by name or by position, and who may see them; and
the alternatives of an enumeration. Who may see an alternative is not kept.
-/

namespace TypedConsole.Source

open Phrase PathPhrase

/-! ## visibility -/

namespace Visibility

/-- The content of the parentheses behind `pub`: a single word, or `in` and a path. -/
def scope : Phrase := do
  if ← nextWord "in" then andThen (word "in") plainPath
  else tree (startsOneOf ["crate", "self", "super"])

/-- A restriction of `pub` comes next. Parentheses with anything else belong to a type. -/
def nextScope : Reading Bool := next fun
  | .group .parentheses content :: _ => (whole? scope content).isSome
  | _ => false

/-- Who may see what follows. -/
def phrase : Phrase :=
  whenNext (nextWord "pub") (andThen (word "pub") (whenNext nextScope (inside .parentheses scope)))

end Visibility

/-! ## fields -/

namespace Fields

section
variable (g : Rules)

/-- Named fields in braces, each with the comma behind it. The type of a field whose name is an
underscore may be a list of fields itself, which is kept as it is written. -/
def recordWithin : Nat → Reading (List (Field × Bool))
  | 0 => failure
  | depth + 1 => contentOf .braces <| items nextEnd "," do
    let attributes ← Attribute.readAll g
    let visibility ← Visibility.phrase
    let label ← tree fun ts => startsName ts || startsWord "_" ts
    let colon ← operator ":"
    let nested ← next fun ts => startsWord "_" label &&
      (startsWord "struct" ts || (startsWord "union" ts && startsGroup .braces (afterTree ts)))
    let type ←
      if nested then asWritten (do let _ ← anyWord; recordWithin depth) else g.typeTrees true
    match label with
    | [.name text] =>
      let before := attributes.flatMap (·.trees) ++ visibility
      return ⟨attributes, text, type, before ++ label ++ colon ++ type⟩
    | _ => failure

/-- Named fields in braces, each with the comma behind it. -/
def record : Reading (List (Field × Bool)) := do recordWithin g (Tokens.size (← get))

/-- Named fields in braces as a phrase. -/
def recordPhrase : Phrase := do
  let fields ← record g
  return [.group .braces (fields.flatMap fun (f, comma) => itemTrees "," (f.trees, comma))]

/-- Types of fields that have positions, in parentheses. -/
def positions : Phrase :=
  inside .parentheses
    (commas (inOrder [Attribute.phrases g, Visibility.phrase, g.typeTrees true]))

/-- An alternative of an enumeration. -/
def alternative : Phrase := do
  let attributes ← Attribute.phrases g
  let _ ← Visibility.phrase
  let head ← name
  let fields ←
    if ← nextGroup .braces then recordPhrase g
    else whenNext (nextGroup .parentheses) (positions g)
  let value ← whenNext (nextOperator "=") (andThen (operator "=") (g.expressionTrees true))
  return attributes ++ head ++ fields ++ value

/-- The alternatives of an enumeration, in braces. -/
def alternatives : Phrase := inside .braces (commas (alternative g))

end

end Fields

end TypedConsole.Source
