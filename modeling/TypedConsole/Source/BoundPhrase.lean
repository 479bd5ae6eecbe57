import TypedConsole.Source.PathPhrase

/-!
# TypedConsole.Source.BoundPhrase

Bounds in the Rust language and what declares with them: the lifetimes over which a bound is
quantified, the parameters of an item, and the conditions on types. An empty list of any of these
is not kept, nor is the colon before no bounds.
-/

namespace TypedConsole.Source

open Phrase

namespace BoundPhrase

open PathPhrase

/-- The phrase behind a colon, or nothing if it is empty. -/
def behindColon (p : Phrase) : Phrase := do
  if ← nextOperator ":" then
    let colon ← operator ":"
    let found ← p
    return if found.isEmpty then [] else colon ++ found
  else empty

/-- Lifetimes between plus signs. -/
def lifetimes (ended : Tokens → Bool) : Phrase := list (next ended) "+" lifetime

/-- One of the characters comes next, or nothing. -/
def startsAny (cs : List Char) (ts : Tokens) : Bool :=
  ts.isEmpty || cs.any fun c => startsOperator [c] ts

section
variable (g : Rules)

/-! ## parameters -/

/-- A lifetime as a parameter, and the lifetimes that it outlives. -/
def lifetimeParameter : Phrase :=
  andThen lifetime (behindColon (lifetimes (startsAny [',', '>'])))

/-- A type as a parameter, with its bounds and what it is by default. -/
def typeParameter : Phrase :=
  inOrder [name,
    behindColon (list (next (startsAny [',', '>', '='])) "+" (g.boundTrees false true)),
    whenNext (nextOperator "=") (andThen (operator "=") (g.typeTrees true))]

/-- A constant as a parameter, with its type and what it is by default. -/
def constantParameter : Phrase :=
  inOrder [word "const", name, operator ":", g.typeTrees true,
    whenNext (nextOperator "=") (andThen (operator "=") (constant g))]

/-- A parameter, marked if it is a lifetime. Only an item may have one without a name. -/
def parameter (ofItem : Bool) : Reading (Bool × Tokens) := do
  let attributes ← Attribute.phrases g
  if ← next startsLifetime then return (true, attributes ++ (← lifetimeParameter))
  else if ← nextWord "const" then return (false, attributes ++ (← constantParameter g))
  else if ofItem && (← nextWord "_") then return (false, attributes ++ (← word "_"))
  else return (false, attributes ++ (← typeParameter g))

/-- The parameters of an item, if it has any. -/
def parameters : Phrase := do
  if ← nextOperator "<" then
    let opening ← operator "<"
    let found ← items (nextOperator ">") "," (parameter g true)
    let closing ← operator ">"
    return if found.isEmpty then [] else opening ++ lifetimesFirst found ++ closing
  else empty

/-- Parameters come next and not a qualified path, which starts with the same bracket. -/
def startsParameters (ts : Tokens) : Bool :=
  let second := afterTree ts
  let third := afterTree second
  startsOperator ['<'] ts &&
    (startsOperator ['>'] second || startsOperator ['#'] second || startsWord "const" second ||
      ((startsLifetime second || startsName second) &&
        (startsColon third || [',', '>', '='].any fun c => startsOperator [c] third)))

/-- The parameters over which a type or bound is quantified. -/
def binder : Phrase :=
  inOrder [word "for", operator "<",
    list (nextOperator ">") "," (do return (← parameter g false).2), operator ">"]

/-- The parameters over which a type or bound is quantified, if there are any. -/
def optionalBinder : Phrase := whenNext (nextWord "for") (binder g)

/-! ## bounds -/

/-- The result of a function, if it is said. -/
def result (sums : Bool) : Phrase :=
  whenNext (nextOperator "->") (andThen (operator "->") (g.typeTrees sums))

/-- The path of a trait, and the arguments and result of a function if they follow a path without
arguments. They take the place of empty brackets; a double colon before them is not kept. -/
def traitPath : Phrase := do
  let path ← unqualified g false
  let follow ← next fun ts =>
    startsGroup .parentheses ts || startsQualified (startsGroup .parentheses) ts
  match path.openTrees?, follow with
  | some name, true =>
    let _ ← optionalOperator "::"
    return name ++ (← inside .parentheses (commas (g.typeTrees true))) ++ (← result g false)
  | _, _ => return path.trees

/-- The mark of a bound that holds in constants: always, or in brackets under a condition. -/
def constancy : Phrase := do
  if ← nextGroup .brackets then inside .brackets (word "const")
  else optionalWord "const"

/-- A trait as a bound, which may be relaxed or else quantified. It is marked if it holds in
constants, where that is allowed. -/
def traitBound (constants : Bool) : Reading (Bool × Tokens) := do
  let before ← optionalBinder g
  let constant ← constancy
  let relaxed ← optionalOperator "?"
  let behind ← whenNext (pure (before.isEmpty && !relaxed.isEmpty)) (optionalBinder g)
  let trait ← traitPath g
  let quantified := !before.isEmpty || !behind.isEmpty
  if (quantified && !relaxed.isEmpty) || (!constants && !constant.isEmpty) then failure
  else return (!constant.isEmpty, relaxed ++ before ++ trait)

/-- The parameters that a hidden type captures. -/
def capture : Phrase := do
  let opening ← andThen (word "use") (operator "<")
  let found ← items (nextOperator ">") "," do
    if ← next startsLifetime then return (true, ← lifetime)
    else return (false, ← tree fun ts => startsName ts || startsWord "Self" ts)
  return opening ++ lifetimesFirst found ++ (← operator ">")

/-- A bound: a lifetime, a trait, which may stand in parentheses, or a capture. -/
def bound (captures constants : Bool) : Reading BoundForm := do
  if ← next startsLifetime then return ⟨.lifetime, ← lifetime⟩
  else if ← nextWord "use" then
    let found ← capture
    if captures then return ⟨.capture, found⟩ else failure
  else
    let start ← get
    let enclosed ← nextGroup .parentheses
    let (constant, trait) ←
      if enclosed then contentOf .parentheses (traitBound g constants)
      else traitBound g constants
    if constant then return ⟨.constant, ← since start⟩
    else if enclosed then return ⟨.trait, [.group .parentheses trait]⟩
    else return ⟨.trait, trait⟩

/-- A bound may come next behind a plus sign. -/
def startsBound (constants : Bool) (ts : Tokens) : Bool :=
  startsAnyWord ts || startsOperator "::".toList ts || startsOperator ['?'] ts ||
    startsLifetime ts || startsGroup .parentheses ts ||
    (constants && startsGroup .brackets ts)

/-- Bounds between plus signs, of which one may follow the last bound. -/
def bounds (captures constants : Bool) : Reading (List (BoundForm × Bool)) :=
  items (next (!startsBound constants ·)) "+" (bound g captures constants)

/-- Further bounds behind a first one. -/
def moreBounds : Phrase :=
  whenNext (nextOperator "+")
    (andThen (operator "+") (list (next (!startsBound false ·)) "+" (g.boundTrees false false)))

/-- Bounds of which at least one is a trait, or if there is no `sums`, a single trait. -/
def traits (sums captures constants : Bool) : Phrase := do
  let found ←
    if sums then bounds g captures constants
    else pure [(← bound g captures constants, false)]
  if found.any fun (b, _) => b.kind == .trait || b.kind == .constant then
    return found.flatMap fun (b, plus) => itemTrees "+" (b.trees, plus)
  else failure

/-! ## conditions -/

/-- The conditions on types, or the bounds of one, end here. -/
def endsConditions (ts : Tokens) : Bool :=
  startsAny [',', ';', '='] ts || startsGroup .braces ts || startsColon ts

/-- A condition on a lifetime or a type. -/
def condition : Phrase := do
  if ← next (fun ts => startsLifetime ts && startsOperator [':'] (afterTree ts)) then
    inOrder [lifetime, operator ":",
      lifetimes fun ts => endsConditions ts || startsOperator [':'] ts]
  else
    inOrder [optionalBinder g, g.typeTrees true, operator ":",
      list (next endsConditions) "+" (g.boundTrees false true)]

/-- The conditions on types, if there are any. Parameters cannot be declared here. -/
def conditions : Phrase := do
  if ← nextWord "where" then
    let mark ← word "where"
    if ← next startsParameters then failure
    else
      let found ← list (next endsConditions) "," (condition g)
      return if found.isEmpty then [] else mark ++ found
  else empty

end

end BoundPhrase

end TypedConsole.Source
