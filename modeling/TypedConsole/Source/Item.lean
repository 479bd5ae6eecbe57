import TypedConsole.Source.Fields
import TypedConsole.Source.Lexer
import TypedConsole.Source.Nesting

/-!
# TypedConsole.Source.Item

Reading declarations of data types in the Rust language: structs, enums and unions, with their
attributes, generic parameters and fields. A source text is a declaration if it is one from end to
end. What is not kept of it is only checked.
-/

namespace TypedConsole.Source

open Phrase BoundPhrase

namespace Item

section
variable (g : Rules)

/-- The body of a struct. Conditions stand before named fields and behind positions. -/
def struct : Reading Shape := do
  let conditioned ← nextWord "where"
  let _ ← conditions g
  if !conditioned && (← nextGroup .parentheses) then
    let _ ← inOrder [Fields.positions g, conditions g, operator ";"]
    return .tuple
  else if ← nextGroup .braces then return .record ((← Fields.record g).map (·.1))
  else
    let _ ← operator ";"
    return .unit

/-- The body of an enumeration. -/
def enumeration : Reading Shape := do
  let _ ← andThen (conditions g) (Fields.alternatives g)
  return .enumeration

/-- The body of a union. -/
def union : Reading Shape := do
  let _ ← andThen (conditions g) (Fields.recordPhrase g)
  return .union

/-- The declaration of a data type: attributes, visibility, the kind of type, its name and
parameters, and its body. -/
def read : Reading Item := do
  let attributes ← Attribute.readAll g
  let _ ← Visibility.phrase
  let kinds := [("struct", struct g), ("enum", enumeration g), ("union", union g)]
  let ts ← get
  match kinds.find? (fun (kind, _) => startsWord kind ts) with
  | some (kind, body) =>
    let _ ← word kind
    match ← Phrase.name with
    | [.name text] =>
      let generic := !(← parameters g).isEmpty
      return ⟨attributes, text, generic, ← body⟩
    | _ => failure
  | none => failure

end

/-- The declaration that a source text is. -/
def ofString? (source : String) : Option Item := do
  let ts ← Tokens.ofString? source
  whole? (read (Rules.of ts)) ts

end Item

end TypedConsole.Source
