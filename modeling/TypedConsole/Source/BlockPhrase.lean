import TypedConsole.Source.PatternPhrase

/-!
# TypedConsole.Source.BlockPhrase

Blocks of the Rust language with the words before them that say when and how they run: conditions,
loops, choices between arms, and blocks that are unsafe, constant, tried, deferred or labelled.
-/

namespace TypedConsole.Source.BlockPhrase

open Phrase PatternPhrase

section
variable (g : Rules)

/-- A condition with its block and up to `count` alternatives to it, each with a condition of its
own except perhaps the last. -/
def conditionalWithin : Nat → Phrase
  | 0 => failure
  | count + 1 =>
    inOrder [word "if", g.expressionTrees false, g.block false,
      whenNext (nextWord "else") (andThen (word "else") do
        if ← nextWord "if" then conditionalWithin count else g.block false)]

/-- A condition with its block, and the alternatives to it. -/
def conditional : Phrase := do conditionalWithin g (← get).length

/-! ## arms -/

/-- The comma behind the body of an arm. It may be missing behind a block and at the end. -/
def comma (body : Expression) : Phrase := do
  if ← nextOperator "," then operator ","
  else if body.isBlock || (← nextEnd) then empty
  else failure

/-- An arm: patterns, perhaps a condition, and what is done if they match. -/
def arm : Phrase := do
  let head ← inOrder [Attribute.phrases g, choiceTrees g,
    whenNext (nextWord "if") (andThen (word "if") (g.expressionTrees true)), operator "=>"]
  let body ← g.leading
  return head ++ body.trees ++ (← comma body)

/-- The arms of a choice. -/
def arms : Phrase := whileNext (do return !(← nextEnd)) (arm g)

/-- A choice between arms by a value. -/
def choice : Phrase :=
  inOrder [word "match", g.expressionTrees false,
    inside .braces (andThen (Attribute.inners g) (arms g))]

/-! ## loops and other blocks -/

/-- What may have a label: a loop or a plain block. -/
def labelled : Phrase := do
  if ← nextWord "while" then
    inOrder [word "while", g.expressionTrees false, g.block true]
  else if ← nextWord "for" then
    inOrder [word "for", choiceTrees g, word "in", g.expressionTrees false, g.block true]
  else if ← nextWord "loop" then andThen (word "loop") (g.block true)
  else g.block true

/-- A block comes next, or the words before it. -/
def startsBlock (ts : Tokens) : Bool :=
  startsOneOf ["if", "while", "for", "loop", "match", "unsafe"] ts || startsGroup .braces ts ||
    (startsOneOf ["try", "const"] ts && startsGroup .braces (afterTree ts)) || startsLifetime ts

/-- A block comes next, or the words before it, and no closure with parameters. -/
def startsLeading (ts : Tokens) : Bool :=
  startsBlock ts && !(startsWord "for" ts && BoundPhrase.startsParameters (afterTree ts))

/-- A block with the words before it. -/
def rule : Phrase := do
  if ← next startsLifetime then inOrder [lifetime, operator ":", labelled g]
  else if ← nextWord "if" then conditional g
  else if ← nextWord "match" then choice g
  else if ← nextOneOf ["unsafe", "const"] then andThen anyWord (g.block true)
  else if ← nextWord "try" then andThen (word "try") (g.block false)
  else labelled g

/-- A block that runs later comes next. -/
def startsDeferred (ts : Tokens) : Bool :=
  startsWord "async" ts && (startsGroup .braces (afterTree ts) ||
    (startsWord "move" (afterTree ts) && startsGroup .braces (afterTree (afterTree ts))))

/-- A block that runs later. -/
def deferred : Phrase := inOrder [word "async", optionalWord "move", g.block false]

end

end TypedConsole.Source.BlockPhrase
