import TypedConsole.Source.Fields
import TypedConsole.Source.FunctionPhrase

/-!
# TypedConsole.Source.MemberPhrase

What traits, implementations and foreign interfaces of the Rust language hold: functions,
constants, types and calls of macros. A member that its place does not provide for, such as a
function without a body in an implementation, is kept as it is written.
-/

namespace TypedConsole.Source.MemberPhrase

open Phrase PathPhrase BoundPhrase

/-- A phrase in its normal form, or nothing if it has none and is kept as it is written. -/
abbrev Normal := Reading (Option Tokens)

/-- The normal form of a phrase, or else its trees as they are written. -/
def normalOrWritten (p : Normal) : Phrase := do
  let start ← get
  match ← p with
  | some trees => return trees
  | none => since start

/-- The trees if the condition holds, and otherwise nothing. -/
def normalIf (condition : Bool) (trees : Tokens) : Option Tokens :=
  if condition then some trees else none

/-! ## calls of macros -/

/-- The call of a macro comes next that stands for items. -/
def startsCallPath (ts : Tokens) : Bool :=
  startsName ts || startsOneOf ["self", "super", "crate"] ts || startsOperator "::".toList ts

/-- The semicolon behind the call of a macro, unless its arguments are in braces. -/
def callEnd (call : Tokens) : Phrase := do
  if endsInBraces call then empty else operator ";"

/-- The call of a macro that stands for members. -/
def call : Phrase := do
  let found ← andThen plainPath callTail
  return found ++ (← callEnd found)

section
variable (g : Rules)

/-! ## constants -/

/-- A constant with its type and perhaps its value. With parameters or conditions it has no normal
form, nor without a value where one is `required`. -/
def constant (required : Bool) : Normal := do
  let head ← andThen (word "const") (tree fun ts => startsName ts || startsWord "_" ts)
  let parametrised ← nextOperator "<"
  let declared ← parameters g
  let type ← andThen (operator ":") (g.typeTrees true)
  let value ← whenNext (nextOperator "=") (andThen (operator "=") (g.expressionTrees true))
  let conditioned ← nextWord "where"
  let given ← conditions g
  let stop ← operator ";"
  return normalIf (!parametrised && !conditioned && !(required && value.isEmpty))
    (head ++ declared ++ type ++ value ++ given ++ stop)

/-! ## types -/

/-- Where the conditions on a named type may stand. -/
inductive Place
  | beforeDefinition
  | afterDefinition
  | either
deriving DecidableEq

/-- The parts of a named type. -/
structure TypeParts where
  head : Tokens
  /-- Bounds are announced, be there any or not. -/
  bounded : Bool
  bounds : Tokens
  before : Tokens
  definition : Tokens
  after : Tokens
  stop : Tokens

/-- A named type with its bounds, its definition and the conditions on it. -/
def typeParts (place : Place) : Reading TypeParts := do
  let head ← inOrder [word "type", name, parameters g]
  let bounded ← nextOperator ":"
  let ended (ts : Tokens) : Bool :=
    startsWord "where" ts || startsOperator ['='] ts || startsOperator [';'] ts
  let bounds ← behindColon (list (next ended) "+" (g.boundTrees false true))
  let early ← nextWord "where"
  let before ← if place == .afterDefinition then empty else conditions g
  let definition ← whenNext (nextOperator "=") (andThen (operator "=") (g.typeTrees true))
  let late := place == .afterDefinition || (place == .either && !early)
  let after ← if late then conditions g else empty
  return ⟨head, bounded, bounds, before, definition, after, ← operator ";"⟩

/-- A type that a trait asks for. -/
def traitType : Phrase := do
  let t ← typeParts g .afterDefinition
  return t.head ++ t.bounds ++ t.definition ++ t.after ++ t.stop

/-- A type that an implementation gives. Only a definition without bounds has a normal form. -/
def implementedType : Normal := do
  let t ← typeParts g .afterDefinition
  return normalIf (!t.bounded && !t.definition.isEmpty)
    (t.head ++ t.definition ++ t.after ++ t.stop)

/-- A type of a foreign interface. Bounds or a definition have no normal form. -/
def foreignType : Normal := do
  let t ← typeParts g .either
  return normalIf (!t.bounded && t.definition.isEmpty) (t.head ++ t.before ++ t.after ++ t.stop)

/-! ## members of traits -/

/-- The body of a function, or a semicolon. -/
def bodyOrEnd : Phrase := do
  if ← nextGroup .braces then g.block true else operator ";"

/-- A member of a trait behind its attributes. -/
def traitMember : Normal := do
  let visibility ← Visibility.phrase
  let default ← optionalWord "default"
  let usual := visibility.isEmpty && default.isEmpty
  let found ←
    if ← next (FunctionPhrase.startsFunction false) then
      let head ← FunctionPhrase.head g false
      pure (some (head.2 ++ (← bodyOrEnd g)))
    else if ← nextWord "const" then constant g false
    else if ← nextWord "type" then pure (some (← traitType g))
    else if usual && (← next startsCallPath) then pure (some (← call))
    else failure
  return if usual then found else none

/-! ## members of implementations -/

/-- A function that an implementation gives. Without a body it has no normal form. -/
def implementedFunction : Normal := do
  let head ← FunctionPhrase.head g false
  if ← nextOperator ";" then
    let _ ← operator ";"
    return none
  else return some (head.2 ++ (← g.block true))

/-- The word before a member that other implementations may replace. -/
def replaceable : Phrase :=
  whenNext (next fun ts => startsWord "default" ts && !startsOperator ['!'] (afterTree ts))
    (word "default")

/-- A member of an implementation behind its attributes. -/
def implementedMember : Normal := do
  let before ← andThen Visibility.phrase replaceable
  let found ←
    if ← next (FunctionPhrase.startsFunction false) then implementedFunction g
    else if ← nextWord "const" then constant g true
    else if ← nextWord "type" then implementedType g
    else if before.isEmpty && (← next startsCallPath) then pure (some (← call))
    else failure
  return found.map (before ++ ·)

/-! ## members of foreign interfaces -/

/-- A function of a foreign interface. With a body, or declared safe, it has no normal form. -/
def foreignFunction : Normal := do
  let (safe, head) ← FunctionPhrase.head g true
  if ← nextGroup .braces then
    let _ ← g.block true
    return none
  else
    let stop ← operator ";"
    return normalIf (!safe) (head ++ stop)

/-- A variable of a foreign interface comes next, which may be declared unsafe or safe. -/
def startsForeignVariable (ts : Tokens) : Bool :=
  startsWord "static" ts ||
    (startsOneOf ["unsafe", "safe"] ts && startsWord "static" (afterTree ts))

/-- A variable of a foreign interface. With a value, or with a word on its safety, it has no normal
form. -/
def foreignVariable : Normal := do
  let safety ← if ← nextOneOf ["unsafe", "safe"] then anyWord else empty
  let head ← inOrder [word "static", optionalWord "mut", name, operator ":", g.typeTrees true]
  let value ← whenNext (nextOperator "=") (andThen (operator "=") (g.expressionTrees true))
  let stop ← operator ";"
  return normalIf (safety.isEmpty && value.isEmpty) (head ++ stop)

/-- A member of a foreign interface behind its attributes. -/
def foreignMember : Normal := do
  let visibility ← Visibility.phrase
  let found ←
    if ← next (FunctionPhrase.startsFunction true) then foreignFunction g
    else if ← next startsForeignVariable then foreignVariable g
    else if ← nextWord "type" then foreignType g
    else if visibility.isEmpty && (← next startsCallPath) then pure (some (← call))
    else failure
  return found.map (visibility ++ ·)

/-! ## all members -/

/-- A member with its attributes. -/
def withAttributes (member : Normal) : Phrase := normalOrWritten do
  let attributes ← Attribute.phrases g
  return (← member).map (attributes ++ ·)

/-- Members in braces, behind attributes of what holds them. -/
def members (member : Normal) : Phrase :=
  inside .braces (andThen (Attribute.inners g)
    (whileNext (do return !(← nextEnd)) (withAttributes g member)))

end

end TypedConsole.Source.MemberPhrase
