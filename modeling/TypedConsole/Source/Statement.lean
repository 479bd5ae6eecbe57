import TypedConsole.Source.Expression

/-!
# TypedConsole.Source.Statement

What a block of the Rust language holds: bindings, items, calls of macros and expressions, each
with its attributes, and semicolons. An expression without a semicolon is the last statement unless
it ends with a block, or is the call of a macro with its arguments in braces.
-/

namespace TypedConsole.Source.Statement

open Phrase PathPhrase

/-! ## looking ahead -/

/-- A constant as an item comes next, and no constant block or closure. -/
def startsConstantItem (ts : Tokens) : Bool :=
  let second := afterTree ts
  startsWord "const" ts &&
    !(startsGroup .braces second || startsOneOf ["static", "move"] second ||
      startsOperator ['|'] second ||
      (startsWord "async" second &&
        !startsOneOf ["unsafe", "extern", "fn"] (afterTree second)))

/-- Words of which each starts an item. -/
def itemWords : List String :=
  ["pub", "extern", "use", "fn", "mod", "type", "struct", "enum", "trait", "impl", "macro"]

/-- An item comes next, its attributes excepted. -/
def startsItem (ts : Tokens) : Bool :=
  let second := afterTree ts
  startsOneOf itemWords ts || startsConstantItem ts ||
    (startsWord "crate" ts && !startsOperator "::".toList second) ||
    (startsWord "static" ts && (startsWord "mut" second || startsName second)) ||
    (startsWord "unsafe" ts && !startsGroup .braces second) ||
    (startsWord "async" ts && startsOneOf ["unsafe", "extern", "fn"] second) ||
    (startsWord "union" ts && startsName second) ||
    (startsWord "auto" ts && startsWord "trait" second) ||
    (startsWord "default" ts && startsOneOf ["unsafe", "impl"] second)

/-- What follows a plain path, if one comes next and a mark of a call behind it. -/
def afterCalledPath (ts : Tokens) : Option Tokens :=
  match plainPath.run ts with
  | some (_, rest) => if startsOperator ['!'] rest then some (rest.drop 1) else none
  | none => none

/-- A macro that declares a name comes next. -/
def startsItemMacro (ts : Tokens) : Bool :=
  (afterCalledPath ts).any fun rest => startsName rest || startsWord "try" rest

/-- A macro with its arguments in braces comes next, and no step from it. -/
def startsBracedCall (ts : Tokens) : Bool :=
  (afterCalledPath ts).any fun rest =>
    let behind := afterTree rest
    startsGroup .braces rest && !(startsPoint behind || startsOperator ['?'] behind)

section
variable (g : Rules)

/-! ## statements -/

/-- The block behind `else`. Only an initial value that ends in no brace has one. -/
def otherwise (value : Expression) : Phrase := do
  if !value.endsInBraces && (← nextWord "else") then andThen (word "else") (g.block false)
  else empty

/-- The initial value of a binding, and the block that runs when the pattern does not match. -/
def initial : Phrase := do
  let equals ← operator "="
  let value ← g.expression true
  return equals ++ value.trees ++ (← otherwise g value)

/-- A binding. -/
def binding : Phrase :=
  inOrder [word "let", do return (← g.pattern).trees,
    whenNext (nextOperator ":") (andThen (operator ":") (g.typeTrees true)),
    whenNext (nextOperator "=") (initial g), operator ";"]

/-- A statement, and whether another one may follow it. -/
def read : Reading (Tokens × Bool) := do
  let start ← get
  let attributes ← Attribute.phrases g
  if ← next startsBracedCall then
    let call ← andThen plainPath callTail
    return (attributes ++ call ++ (← optionalOperator ";"), true)
  else if ← nextWord "let" then return (attributes ++ (← binding g), true)
  else if ← next (fun ts => startsItem ts || startsItemMacro ts) then
    set start
    return (← g.item, true)
  else
    let found ← g.leading
    let trees := (found.withAttributes attributes).trees
    if ← nextOperator ";" then return (trees ++ (← operator ";"), true)
    else return (trees, found.endsStatement)

/-- Up to `count` statements and semicolons. -/
def readWithin : Nat → Phrase
  | 0 => empty
  | count + 1 => do
    if ← nextEnd then empty
    else if ← nextOperator ";" then andThen (operator ";") (readWithin count)
    else
      let (statement, complete) ← read g
      if complete then return statement ++ (← readWithin count) else return statement

/-- What a block holds, with attributes of its own if `marked`. -/
def body (marked : Bool) : Phrase := do
  let attributes ← if marked then Attribute.inners g else empty
  return attributes ++ (← readWithin g ((← get).length + 1))

end

end TypedConsole.Source.Statement
