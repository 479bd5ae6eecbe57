import TypedConsole.Source.BoundPhrase
import TypedConsole.Source.Literal

/-!
# TypedConsole.Source.PatternPhrase

Patterns of the Rust language: bindings, literals and ranges, paths with or without fields, tuples,
slices and references, and choices between patterns. A closed range is written with two dots and an
equals sign, also if it was written with three dots.
-/

namespace TypedConsole.Source

open Phrase PathPhrase

/-- A field of a record: its name, or its position in decimal digits. -/
def Phrase.member : Phrase := do
  if ← next startsName then name
  else
    match ← get with
    | .literal text :: rest =>
      match position? text with
      | some n =>
        set rest
        return [.literal (toString n)]
      | none => failure
    | _ => failure

namespace PatternPhrase

/-- A pattern that nothing around it asks about. -/
def plain (trees : Tokens) : PatternForm := ⟨.other, trees⟩

/-- What follows a name in a pattern shows that it begins a path. -/
def continuesPath (ts : Tokens) : Bool :=
  startsOperator "::".toList ts || startsOperator ['!'] ts || startsGroup .braces ts ||
    startsGroup .parentheses ts || startsOperator "..".toList ts

/-- A pattern comes next that starts with a path of more than a name. -/
def startsLongPath (ts : Tokens) : Bool :=
  (startsName ts && continuesPath (afterTree ts)) ||
    (startsWord "self" ts && startsOperator "::".toList (afterTree ts)) ||
    startsOperator "::".toList ts || startsOperator ['<'] ts ||
    startsOneOf ["Self", "super", "crate"] ts

/-- A bar between patterns comes next. -/
def nextBar : Reading Bool := next fun ts =>
  startsOperator ['|'] ts && !startsOperator "||".toList ts && !startsOperator "|=".toList ts

section
variable (g : Rules)

/-! ## choices -/

/-- Patterns between bars, of which one may come first. -/
def choices : Reading PatternForm := do
  let leading ← optionalOperator "|"
  let first ← g.pattern
  let more ← whileNext nextBar (andThen (operator "|") do return (← g.pattern).trees)
  if leading.isEmpty && more.isEmpty then return first
  else return plain (leading ++ first.trees ++ more)

/-- The trees of patterns between bars. -/
def choiceTrees : Phrase := do return (← choices g).trees

/-! ## ranges -/

/-- No end of a range comes next. -/
def endsRange (ts : Tokens) : Bool :=
  ts.isEmpty || startsOperator ['|'] ts || startsOperator ['='] ts || startsColon ts ||
    startsOperator [','] ts || startsOperator [';'] ts || startsWord "if" ts

/-- The start or end of a range: a literal, a path or a constant block. -/
def rangeBound : Phrase := do
  if ← next startsLiteral then literal
  else if ← next startsPath then return (← path g true).trees
  else andThen (word "const") (g.block true)

/-- The dots of a range and its end. Only two dots may lack the end. -/
def rangeTail : Reading (Bool × Tokens) := do
  if ← nextOperator "..=" then return (true, ← andThen (operator "..=") (rangeBound g))
  else if ← nextOperator "..." then
    let _ ← operator "..."
    return (true, operatorTrees "..=".toList ++ (← rangeBound g))
  else
    let dots ← operator ".."
    if ← next endsRange then return (false, dots)
    else return (true, dots ++ (← rangeBound g))

/-- A range whose start has been read. -/
def rangeFrom (start : Tokens) : Reading PatternForm := do
  let (closed, tail) ← rangeTail g
  return ⟨if closed then .other else .openRange, start ++ tail⟩

/-- A range without a start, or two dots for all that is left. -/
def rangeTo : Reading PatternForm := do
  if ← nextOperator "..." then failure
  else
    let (closed, tail) ← rangeTail g
    return ⟨if closed then .openRange else .other, tail⟩

/-- A constant block, and the same without the attributes in it. -/
def constantBlock : Reading (Tokens × Tokens) := do
  let mark ← word "const"
  let (attributes, statements) ← contentOf .braces do
    return (← Attribute.inners g, ← g.body false)
  let block (content : Tokens) : Tokens := mark ++ [.group .braces content]
  return (block (attributes ++ statements), block statements)

/-- A literal or constant block, or a range that starts with one. -/
def boundPattern : Reading PatternForm := do
  let (start, alone) ←
    if ← nextWord "const" then
      let (found, bare) ← constantBlock g
      pure (found, ⟨.constant bare, found⟩)
    else
      let found ← literal
      pure (found, plain found)
  if ← nextOperator ".." then rangeFrom g start else return alone

/-! ## patterns of records, tuples and slices -/

/-- A field in a pattern of a record: with a pattern of its own, or bound under its name. -/
def field : Phrase := do
  let start ← get
  let boxed ← optionalWord "box"
  let mode ← andThen (optionalWord "ref") (optionalWord "mut")
  if !boxed.isEmpty then
    let _ ← name
    since start
  else if !mode.isEmpty then return mode ++ (← name)
  else
    let label ← member
    let bound ← next fun ts => startsName label && !startsOperator [':'] ts
    if bound then return label else return label ++ (← operator ":") ++ (← choiceTrees g)

/-- Up to `count` fields in a pattern of a record. Two dots for all others come last. -/
def fieldsWithin : Nat → Phrase
  | 0 => empty
  | count + 1 => do
    if ← nextEnd then empty
    else
      let attributes ← Attribute.phrases g
      if ← nextOperator ".." then return attributes ++ (← operator "..")
      else
        let found ← field g
        if ← nextOperator "," then
          return attributes ++ found ++ (← operator ",") ++ (← fieldsWithin count)
        else return attributes ++ found

/-- The fields in a pattern of a record. -/
def fields : Phrase := do fieldsWithin g ((← get).length + 1)

/-- An element in a pattern of a slice. An open range there needs parentheses. -/
def element : Phrase := do
  let found ← choices g
  match found.kind with
  | .openRange => failure
  | _ => return found.trees

/-- A pattern that starts with a path. -/
def pathPattern : Reading PatternForm := do
  let head ← path g true
  match ← macroCall? head with
  | some call => return plain call
  | none =>
    if ← nextGroup .braces then return plain (head.trees ++ (← inside .braces (fields g)))
    else if ← nextGroup .parentheses then
      return plain (head.trees ++ (← inside .parentheses (commas (choiceTrees g))))
    else if ← nextOperator ".." then rangeFrom g head.trees
    else return plain head.trees

/-- A name that is bound, alone or to what another pattern matches. -/
def binding : Phrase :=
  inOrder [optionalWord "ref", optionalWord "mut",
    tree fun ts => startsName ts || startsWord "self" ts,
    whenNext (nextOperator "@") (andThen (operator "@") do return (← g.pattern).trees)]

/-- A constant in a pattern comes next. -/
def startsBound (ts : Tokens) : Bool :=
  startsOperator ['-'] ts || startsLiteral ts || startsWord "const" ts

/-- A pattern without choices. -/
def rule : Reading PatternForm := do
  if ← next startsLongPath then pathPattern g
  else if ← nextWord "_" then return plain (← word "_")
  else if ← nextWord "box" then
    return ⟨.written, ← asWritten (do let _ ← word "box"; g.pattern)⟩
  else if ← next startsBound then boundPattern g
  else if ← next (fun ts => startsName ts || startsOneOf ["ref", "mut", "self"] ts) then
    return plain (← binding g)
  else if ← nextOperator "&" then
    return plain (← inOrder [operator "&", optionalWord "mut", do return (← g.pattern).trees])
  else if ← nextGroup .parentheses then
    return plain (← inside .parentheses (commas (choiceTrees g)))
  else if ← nextGroup .brackets then return plain (← inside .brackets (commas (element g)))
  else if ← nextOperator ".." then rangeTo g
  else failure

end

end PatternPhrase

end TypedConsole.Source
