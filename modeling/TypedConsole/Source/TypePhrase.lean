import TypedConsole.Source.BoundPhrase

/-!
# TypedConsole.Source.TypePhrase

Types of the Rust language: paths, macro calls, tuples, arrays and slices, references and
pointers, functions, traits, and the types that are left open or have no value. Function arguments
cannot follow a path here; they belong to bounds.
-/

namespace TypedConsole.Source.TypePhrase

open Phrase PathPhrase BoundPhrase

/-- A type that nothing around it asks about. -/
def plain (trees : Tokens) : TypeForm := ⟨.other, trees⟩

section
variable (g : Rules)

/-! ## functions -/

/-- Three dots and a comma: any further parameters. -/
def further : Phrase := andThen (operator "...") (optionalOperator ",")

/-- A name or an underscore with a colon behind it comes next. -/
def startsLabel (ts : Tokens) : Bool :=
  (startsName ts || startsWord "_" ts) && startsOperator [':'] (afterTree ts)

/-- Any further parameters come next, perhaps behind a label. -/
def startsFurther (ts : Tokens) : Bool :=
  startsOperator "...".toList ts ||
    (startsLabel ts && startsOperator "...".toList (afterTree (afterTree ts)))

/-- A receiver that may change comes next. -/
def startsMutableReceiver (ts : Tokens) : Bool :=
  startsWord "mut" ts && startsWord "self" (afterTree ts)

/-- A receiver that may change, with or without its type. -/
def mutableReceiver : Phrase :=
  inOrder [word "mut", word "self",
    whenNext (next startsColon) (andThen (operator ":") (g.typeTrees true))]

/-- A parameter of a function type: a type, which may be labelled. The first may be labelled as the
receiver; a receiver that may change is kept as it is written. -/
def parameter (first : Bool) : Phrase := do
  if first && (← next startsMutableReceiver) then asWritten (mutableReceiver g)
  else
    let labelled ← next fun ts =>
      (startsName ts || startsWord "_" ts || (first && startsWord "self" ts)) &&
        startsColon (afterTree ts)
    let receiver := first && (← nextWord "self")
    let start ← get
    let label ← if labelled then andThen anyWord (operator ":") else empty
    if first && !receiver && (← next startsMutableReceiver) then
      let _ ← andThen (word "mut") (word "self")
      since start
    else return label ++ (← g.typeTrees true)

/-- Up to `count` parameters of a function type. -/
def parametersWithin (first : Bool) : Nat → Phrase
  | 0 => empty
  | count + 1 => do
    if ← nextEnd then empty
    else
      let attributes ← Attribute.phrases g
      if ← next startsFurther then
        let label ← whenNext (next startsLabel) (andThen anyWord (operator ":"))
        return attributes ++ label ++ (← further)
      else
        let type ← parameter g first
        if ← nextOperator "," then
          return attributes ++ type ++ (← operator ",") ++ (← parametersWithin false count)
        else return attributes ++ type

/-- The parameters of a function type. -/
def parameters : Phrase := do parametersWithin g true ((← get).length + 1)

/-- The way in which a function is called. -/
def convention : Phrase :=
  whenNext (nextWord "extern") (andThen (word "extern") (whenNext (next startsText) literal))

/-- The type of a function. -/
def function : Phrase :=
  inOrder [optionalWord "unsafe", convention, word "fn", inside .parentheses (parameters g),
    result g false]

/-! ## parentheses -/

/-- What stands in parentheses as a type. -/
inductive Enclosed
  /-- One type. -/
  | type (form : TypeForm)
  /-- A relaxed bound. -/
  | bound (trees : Tokens)
  /-- No type or several, or a sum that starts with a lifetime. -/
  | other (trees : Tokens)

/-- What stands in parentheses as a type. -/
def enclosed : Reading Enclosed := do
  if ← nextEnd then return .other []
  else if ← next startsLifetime then return .other (← traits g true false false)
  else if ← nextOperator "?" then return .bound (← traitBound g false).2
  else
    let first ← g.type true
    if ← nextOperator "," then
      return .other (first.trees ++ (← operator ",") ++ (← commas (g.typeTrees true)))
    else return .type first

/-- Bounds behind plus signs. None may be missing. -/
def requiredBounds : Phrase :=
  whileNext (nextOperator "+") (andThen (operator "+") (g.boundTrees false false))

/-- A type in parentheses, or a sum of bounds of which the first is in parentheses. -/
def parenthesised (sums : Bool) : Reading TypeForm := do
  let around (trees : Tokens) : Tokens := [.group .parentheses trees]
  match ← contentOf .parentheses (enclosed g) with
  | .other trees => return plain (around trees)
  | .bound trees =>
    let more ← requiredBounds g
    return ⟨if more.isEmpty then .bound trees else .other, around trees ++ more⟩
  | .type form =>
    let bare? := match form.kind with
      | .segment | .path => some form.trees
      | .bound bare => some bare
      | .other => none
    match bare?, sums && (← nextOperator "+") with
    | some bare, true => return plain (around bare ++ (← requiredBounds g))
    | _, _ => return plain (around form.trees)

/-! ## other types -/

/-- A type that starts with a path, behind what binds its parameters. That is not kept before the
call of a macro. -/
def pathType (binder : Tokens) (sums : Bool) : Reading TypeForm := do
  let head ← path g false
  match ← macroCall? head with
  | some call => return plain call
  | none =>
    if head.qualified then return plain head.trees
    else
      let more ← if sums then moreBounds g else empty
      let trees := binder ++ head.trees ++ more
      if !more.isEmpty then return plain trees
      else if !binder.isEmpty then return ⟨.bound trees, trees⟩
      else return ⟨if head.single then .segment else .path, trees⟩

/-- A trait that is known only when the program runs. A star before its bounds makes the type one
that is kept as it is written. -/
def object (sums : Bool) : Phrase := do
  let start ← get
  let mark ← word "dyn"
  let star ← optionalOperator "*"
  let bounds ← traits g sums false false
  if star.isEmpty then return mark ++ bounds else since start

/-- The element type of a slice, or of an array with its length. -/
def elements : Phrase :=
  andThen (g.typeTrees true)
    (whenNext (nextOperator ";") (andThen (operator ";") (g.expressionTrees true)))

/-- The word that says whether a pointer's target may change. -/
def mutability : Phrase := do
  if ← nextWord "const" then word "const" else word "mut"

/-- A type that is neither in parentheses nor starts with a path. -/
def otherType (sums : Bool) : Phrase := do
  if ← nextWord "dyn" then object g sums
  else if ← nextGroup .brackets then inside .brackets (elements g)
  else if ← nextOperator "*" then inOrder [operator "*", mutability, g.typeTrees false]
  else if ← nextOperator "&" then
    inOrder [operator "&", whenNext (next startsLifetime) lifetime, optionalWord "mut",
      g.typeTrees false]
  else if ← nextOperator "!" then operator "!"
  else if ← nextWord "impl" then andThen (word "impl") (traits g sums true true)
  else if ← nextWord "_" then word "_"
  else if ← next startsLifetime then traits g true false false
  else failure

/-- A function type comes next. -/
def startsFunction (ts : Tokens) : Bool := startsOneOf ["fn", "unsafe", "extern"] ts

/-- A type. -/
def rule (sums : Bool) : Reading TypeForm := do
  let binder ← optionalBinder g
  if ← next startsFunction then return plain (binder ++ (← function g))
  else if ← next startsSegment then pathType g binder sums
  else if !binder.isEmpty then failure
  else if ← next startsPath then pathType g [] sums
  else if ← nextGroup .parentheses then parenthesised g sums
  else return plain (← otherType g sums)

end

end TypedConsole.Source.TypePhrase
