import TypedConsole.Source.TypePhrase
import TypedConsole.Source.PatternPhrase

/-!
# TypedConsole.Source.FunctionPhrase

The heads of functions in the Rust language: their words, name, parameters, result and conditions.
The first parameter may be a receiver. A function of a foreign interface may be declared safe.
-/

namespace TypedConsole.Source.FunctionPhrase

open Phrase BoundPhrase

/-- The phrase that drops what it reads from a text, if it stands there. -/
def skipping (p : Phrase) (ts : Tokens) : Tokens :=
  match (attempt p).run ts with
  | some (_, rest) => rest
  | none => ts

/-- The words before `fn`. -/
def qualifiers (foreign : Bool) : Phrase :=
  inOrder [optionalWord "const", optionalWord "async",
    do if foreign && (← nextWord "safe") then word "safe" else optionalWord "unsafe",
    TypePhrase.convention]

/-- A function comes next. -/
def startsFunction (foreign : Bool) (ts : Tokens) : Bool :=
  startsWord "fn" (skipping (qualifiers foreign) ts)

section
variable (g : Rules)

/-! ## parameters -/

/-- The receiver of a method, which may be borrowed, or else have a type. -/
def receiver : Phrase := do
  let sign ← whenNext (nextOperator "&")
    (andThen (operator "&") (whenNext (next startsLifetime) lifetime))
  let head ← andThen (optionalWord "mut") (word "self")
  if sign.isEmpty && (← nextOperator ":") then
    return head ++ (← operator ":") ++ (← g.typeTrees true)
  else return sign ++ head

/-- A parameter that is no receiver, marked if it stands for any further ones. A type that starts
with a name and generic arguments needs no pattern. -/
def typed : Reading (Bool × Tokens) := do
  if ← next (fun ts => startsName ts && startsOperator ['<'] (afterTree ts)) then
    return (false, [TokenTree.name "_"] ++ operatorTrees [':'] ++ (← g.typeTrees true))
  else
    let head ← andThen (do return (← g.pattern).trees) (operator ":")
    if ← nextOperator "..." then return (true, head ++ (← operator "..."))
    else return (false, head ++ (← g.typeTrees true))

/-- Up to `count` parameters. A receiver can only be the first. -/
def parametersWithin (first : Bool) : Nat → Phrase
  | 0 => empty
  | count + 1 => do
    let onward :=
      whenNext (nextOperator ",") (andThen (operator ",") (parametersWithin false count))
    if ← nextEnd then empty
    else
      let attributes ← Attribute.phrases g
      if ← nextOperator "..." then
        return attributes ++ (← TypePhrase.further)
      else
        match ← attempt (receiver g) with
        | some found =>
          if first then return attributes ++ found ++ (← onward) else failure
        | none =>
          let (further, found) ← typed g
          if further then return attributes ++ found ++ (← optionalOperator ",")
          else return attributes ++ found ++ (← onward)

/-- The parameters of a function. -/
def parameters : Phrase := do parametersWithin g true ((← get).length + 1)

/-! ## heads -/

/-- The head of a function, marked if it is declared safe. -/
def head (foreign : Bool) : Reading (Bool × Tokens) := do
  let before ← qualifiers foreign
  let after ← inOrder [word "fn", name, BoundPhrase.parameters g,
    inside .parentheses (parameters g), result g true, conditions g]
  return (before.any fun
    | .name text => text == "safe"
    | _ => false, before ++ after)

end

end TypedConsole.Source.FunctionPhrase
