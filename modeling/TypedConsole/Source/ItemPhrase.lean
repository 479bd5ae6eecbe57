import TypedConsole.Source.MemberPhrase

/-!
# TypedConsole.Source.ItemPhrase

Items of the Rust language: functions, types, constants, variables, modules, traits and their
implementations, uses of other names, and macros. What an item of its kind does not provide for,
such as a function without a body, is kept as it is written, attributes included.
-/

namespace TypedConsole.Source.ItemPhrase

open Phrase PathPhrase BoundPhrase MemberPhrase

/-! ## uses of names -/

/-- A name that is used, perhaps under another one. -/
def renamed (label : Tokens) : Phrase := do
  if ← nextWord "as" then
    return label ++ (← word "as") ++ (← tree fun ts => startsName ts || startsWord "_" ts)
  else return label

/-- The names that are used, nested no deeper than `depth`. A path in a list that starts from the
root has no normal form; it is allowed if nothing but lists stands before it. -/
def usedWithin (rooted : Bool) : Nat → Normal
  | 0 => failure
  | depth + 1 => do
    if ← next (fun ts => startsSegment ts && !startsWord "Self" ts || startsWord "try" ts) then
      let label ← anyWord
      if ← nextOperator "::" then
        let mark ← operator "::"
        return (← usedWithin false depth).map (label ++ mark ++ ·)
      else return some (← renamed label)
    else if ← nextOperator "*" then return some (← operator "*")
    else
      let found ← contentOf .braces <| items nextEnd "," do
        let fromRoot := rooted && (← nextOperator "::")
        let _ ← if fromRoot then operator "::" else empty
        let used ← usedWithin (rooted && !fromRoot) depth
        return if fromRoot then none else used
      let normal := found.mapM fun (used, comma) => used.map fun trees =>
        itemTrees "," (trees, comma)
      return normal.map fun parts => [.group .braces parts.flatten]

/-- A use of other names. -/
def uses : Normal := do
  let mark ← andThen (word "use") (optionalOperator "::")
  let used ← usedWithin (mark.length == 1) (Tokens.size (← get))
  let stop ← operator ";"
  return used.map (mark ++ · ++ stop)

/-- A use of another package. -/
def package : Phrase := do
  let head ← inOrder [word "extern", word "crate",
    tree fun ts => startsName ts || startsWord "self" ts]
  return (← renamed head) ++ (← operator ";")

section
variable (g : Rules)

/-! ## functions and variables -/

/-- A function. Without a body it has no normal form. -/
def function : Normal := implementedFunction g

/-- A variable. Without a type or without a value it has no normal form. -/
def staticItem : Normal := do
  let head ← inOrder [word "static", optionalWord "mut", name]
  let type ← whenNext (do return !(← nextOperator "=")) (andThen (operator ":") (g.typeTrees true))
  let value ← whenNext (do return type.isEmpty || !(← nextOperator ";"))
    (andThen (operator "=") (g.expressionTrees true))
  let stop ← operator ";"
  return normalIf (!type.isEmpty && !value.isEmpty) (head ++ type ++ value ++ stop)

/-! ## modules and interfaces -/

/-- A module, with its items or without. -/
def moduleItem : Phrase := do
  let head ← inOrder [optionalWord "unsafe", word "mod",
    tree fun ts => startsName ts || startsWord "try" ts]
  if ← nextOperator ";" then return head ++ (← operator ";")
  else
    return head ++ (← inside .braces (andThen (Attribute.inners g)
      (whileNext (do return !(← nextEnd)) g.item)))

/-- A foreign interface. -/
def interface : Phrase :=
  inOrder [optionalWord "unsafe", TypePhrase.convention, members g (foreignMember g)]

/-! ## data types -/

/-- A type by another name. Bounds, or no definition, have no normal form. -/
def namedType : Normal := do
  let t ← typeParts g .beforeDefinition
  return normalIf (!t.bounded && !t.definition.isEmpty)
    (t.head ++ t.before ++ t.definition ++ t.stop)

/-- The word of a data type, its name and its parameters. -/
def dataHead (kind : String) : Phrase := inOrder [word kind, name, parameters g]

/-- A struct. -/
def struct : Phrase := do
  let head ← dataHead g "struct"
  let conditioned ← nextWord "where"
  let before ← conditions g
  if !conditioned && (← nextGroup .parentheses) then
    return head ++ (← inOrder [Fields.positions g, conditions g, operator ";"])
  else if ← nextGroup .braces then return head ++ before ++ (← Fields.recordPhrase g)
  else return head ++ before ++ (← operator ";")

/-- An enumeration. -/
def enumeration : Phrase := inOrder [dataHead g "enum", conditions g, Fields.alternatives g]

/-- A union. -/
def union : Phrase := inOrder [dataHead g "union", conditions g, Fields.recordPhrase g]

/-! ## traits -/

/-- The traits that a trait builds on, its conditions and its members. -/
def traitBody : Phrase :=
  inOrder [
    behindColon (list (next fun ts => startsWord "where" ts || startsGroup .braces ts) "+"
      (g.boundTrees false true)),
    conditions g, members g (traitMember g)]

/-- A trait with words before it. -/
def markedTrait : Phrase :=
  inOrder [optionalWord "unsafe", optionalWord "auto", dataHead g "trait", traitBody g]

/-- A trait, or another name for bounds. -/
def traitOrAlias : Phrase := do
  let head ← dataHead g "trait"
  if ← nextOperator "=" then
    return head ++ (← inOrder [operator "=",
      list (next fun ts => startsWord "where" ts || startsOperator [';'] ts) "+"
        (g.boundTrees false false),
      conditions g, operator ";"])
  else return head ++ (← traitBody g)

/-! ## implementations -/

/-- The mark of an implementation that holds in constants, perhaps under a condition. -/
def constancy : Phrase := do
  let marked ← next fun ts => startsWord "const" ts ||
    (startsOperator ['?'] ts && startsWord "const" (afterTree ts))
  if marked then andThen (optionalOperator "?") (word "const") else empty

/-- The mark of an implementation that must not exist. -/
def negation : Phrase :=
  whenNext (next fun ts => startsOperator ['!'] ts && !startsGroup .braces (afterTree ts))
    (operator "!")

/-- An implementation of a trait for a type, or of a type. If it holds in constants, or if what it
implements is no path, it has no normal form. -/
def implementation : Normal := do
  let head ← inOrder [optionalWord "default", optionalWord "unsafe", word "impl",
    whenNext (next startsParameters) (parameters g)]
  let constant ← constancy
  let negative ← negation
  let first ← g.type true
  let ofTrait ← nextWord "for"
  let second ← whenNext (nextWord "for") (andThen (word "for") (g.typeTrees true))
  if !ofTrait && !negative.isEmpty then failure
  else
    let body ← andThen (conditions g) (members g (implementedMember g))
    let isPath := match first.kind with
      | .segment | .path => true
      | .bound _ | .other => false
    return normalIf (constant.isEmpty && (!ofTrait || isPath))
      (head ++ negative ++ first.trees ++ second ++ body)

/-! ## macros -/

/-- A macro of the newer kind: its name, perhaps parameters, and its body. -/
def newerMacro : Phrase :=
  inOrder [word "macro", name,
    whenNext (nextGroup .parentheses) (tree (startsGroup .parentheses)),
    tree (startsGroup .braces)]

/-- The call of a macro, which may declare a name. -/
def call : Phrase := do
  let head ← inOrder [plainPath, operator "!",
    whenNext (next fun ts => startsName ts || startsWord "try" ts) anyWord]
  let arguments ← anyGroup
  return head ++ arguments ++ (← callEnd arguments)

/-! ## all items -/

/-- An item that starts with `extern`. -/
def external : Phrase := do
  if ← next (fun ts => startsWord "crate" (afterTree ts)) then package else interface g

/-- An item that starts with `unsafe` and is no function. -/
def unsafeItem (visibility : Tokens) : Normal := do
  if ← next (fun ts => startsOneOf ["trait", "auto"] (afterTree ts)) then
    return some (← markedTrait g)
  else if ← next (fun ts => startsWord "impl" (afterTree ts)) then
    return (← implementation g).filter fun _ => visibility.isEmpty
  else if ← next (fun ts => startsWord "extern" (afterTree ts)) then
    if visibility.isEmpty then return some (← interface g) else failure
  else return some (← moduleItem g)

/-- An item behind its attributes and `visibility`, which says who may see it. -/
def afterVisibility (visibility : Tokens) : Normal := do
  if ← next (FunctionPhrase.startsFunction false) then function g
  else if ← nextWord "extern" then
    if visibility.isEmpty || (← next fun ts => startsWord "crate" (afterTree ts)) then
      return some (← external g)
    else failure
  else if ← nextWord "use" then uses
  else if ← nextWord "static" then staticItem g
  else if ← nextWord "const" then constant g true
  else if ← nextWord "unsafe" then unsafeItem g visibility
  else if ← nextWord "mod" then return some (← moduleItem g)
  else if ← nextWord "type" then namedType g
  else if ← nextWord "struct" then return some (← struct g)
  else if ← nextWord "enum" then return some (← enumeration g)
  else if ← next (fun ts => startsWord "union" ts && startsName (afterTree ts)) then
    return some (← union g)
  else if ← nextWord "trait" then return some (← traitOrAlias g)
  else if ← next (fun ts => startsWord "auto" ts && startsWord "trait" (afterTree ts)) then
    return some (← markedTrait g)
  else if ← next (fun ts => startsWord "impl" ts ||
      (startsWord "default" ts && !startsOperator ['!'] (afterTree ts))) then
    return (← implementation g).filter fun _ => visibility.isEmpty
  else if ← nextWord "macro" then
    let _ ← newerMacro
    return none
  else if visibility.isEmpty && (← next startsCallPath) then return some (← call)
  else failure

/-- An item. -/
def rule : Phrase := withAttributes g do
  let visibility ← Visibility.phrase
  return (← afterVisibility g visibility).map (visibility ++ ·)

end

end TypedConsole.Source.ItemPhrase
