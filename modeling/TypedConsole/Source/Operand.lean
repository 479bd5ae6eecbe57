import TypedConsole.Source.BlockPhrase
import TypedConsole.Source.TypePhrase

/-!
# TypedConsole.Source.Operand

What stands between the operators of an expression: an atom with attributes and signs before it
and steps behind it. Atoms are literals, paths, records, macro calls, tuples and arrays, closures,
blocks, ranges without a start, and what leaves a block.
-/

namespace TypedConsole.Source.Operand

open Phrase PathPhrase PatternPhrase BoundPhrase

/-! ## looking ahead -/

/-- An expression may start here. -/
def startsExpression (ts : Tokens) : Bool :=
  (startsAnyWord ts && !startsWord "as" ts) || startsLiteral ts || startsLifetime ts ||
    startsGroup .parentheses ts || startsGroup .brackets ts || startsGroup .braces ts ||
    [("!", "!="), ("*", "*="), ("|", "|="), ("&", "&=")].any (fun (text, longer) =>
      startsOnly text longer ts) ||
    (startsOnly "-" "-=" ts && !startsOperator "->".toList ts) ||
    (startsOnly "<" "<=" ts && !startsOperator "<<=".toList ts) ||
    ["..", "::", "#"].any fun text => startsOperator text.toList ts

/-- A closure comes next. -/
def startsClosure (ts : Tokens) : Bool :=
  startsOperator ['|'] ts || startsOneOf ["move", "static"] ts ||
    (startsWord "for" ts && startsParameters (afterTree ts)) ||
    (startsWord "const" ts && !startsGroup .braces (afterTree ts)) ||
    (startsWord "async" ts &&
      (startsOperator ['|'] (afterTree ts) || startsWord "move" (afterTree ts)))

/-- A path of an expression comes next, or the macro `try`. -/
def startsValue (ts : Tokens) : Bool :=
  startsPath ts || (startsWord "try" ts &&
    (startsOperator ['!'] (afterTree ts) || startsOperator "::".toList (afterTree ts)))

/-- Syntax of the compiler's own comes next. -/
def startsBuiltin (ts : Tokens) : Bool :=
  startsWord "builtin" ts && startsOperator ['#'] (afterTree ts)

/-- What cannot start the end of a range comes next: the range is open. -/
def endsRange (records : Bool) (ts : Tokens) : Bool :=
  ts.isEmpty || startsWord "as" ts || (!records && startsGroup .braces ts) || startsPoint ts ||
    [",", ";", "?", "=", "+", "/", "%", "^", ">", "<=", "!=", "-=", "*=", "&=", "|=", "<<="].any
      fun text => startsOperator text.toList ts

section
variable (g : Rules)

/-! ## ranges -/

/-- The dots of a range and its end, which may be missing behind two dots. -/
def rangeTail (records : Bool) : Phrase := do
  let side : Phrase := do return (← g.rightSide .range records).trees
  if ← nextOperator "..." then failure
  else if ← nextOperator "..=" then andThen (operator "..=") side
  else andThen (operator "..") (whenNext (next (!endsRange records ·)) side)

/-! ## records and calls -/

/-- A field of a record that is built. A name alone is the field and its value. -/
def field : Phrase := do
  let attributes ← Attribute.phrases g
  let label ← member
  let alone ← next fun ts => startsName label && !startsOperator [':'] ts
  if alone then return attributes ++ label
  else return attributes ++ label ++ (← operator ":") ++ (← g.expressionTrees true)

/-- Up to `count` fields of a record that is built. Two dots come last, perhaps with the record
that gives all other fields. -/
def fieldsWithin : Nat → Phrase
  | 0 => empty
  | count + 1 => do
    if ← nextEnd then empty
    else if ← nextOperator ".." then
      andThen (operator "..") (whenNext (next (!·.isEmpty)) (g.expressionTrees true))
    else
      let found ← field g
      if ← nextOperator "," then
        return found ++ (← operator ",") ++ (← fieldsWithin count)
      else return found

/-- The fields of a record that is built. -/
def fields : Phrase := do fieldsWithin g ((← get).length + 1)

/-- An atom that starts with a path: a macro call, a record, or the path alone. -/
def pathAtom (records : Bool) : Reading Expression := do
  let head ← path g true
  match ← macroCall? head with
  | some call =>
    return { kind := if endsInBraces call then .bracedCall else .other, trees := call }
  | none =>
    if records && (← nextGroup .braces) then
      return .plain (head.trees ++ (← inside .braces (fields g)))
    else
      match head.name? with
      | some text => return { kind := .name text, trees := head.trees }
      | none => return .plain head.trees

/-! ## other atoms -/

/-- What stands in the brackets of an array: elements, or one element and how often it stands. -/
def elements : Phrase := do
  if ← nextEnd then empty
  else
    let first ← g.expressionTrees true
    if ← nextOperator ";" then return first ++ (← operator ";") ++ (← g.expressionTrees true)
    else if ← nextOperator "," then
      return first ++ (← operator ",") ++ (← commas (g.expressionTrees true))
    else return first

/-- A parameter of a closure, with or without its type. Without a type, attributes are not kept
before a pattern as it is written, nor those in a constant block. -/
def parameter : Phrase := do
  let attributes ← Attribute.phrases g
  let pattern ← g.pattern
  if ← nextOperator ":" then
    return attributes ++ pattern.trees ++ (← operator ":") ++ (← g.typeTrees true)
  else
    match pattern.kind with
    | .written => return pattern.trees
    | .constant bare => return attributes ++ bare
    | _ => return attributes ++ pattern.trees

/-- A closure. Its body is a block if its result has a type. -/
def closure (records : Bool) : Phrase := do
  let head ← inOrder [optionalBinder g, optionalWord "const", optionalWord "static",
    optionalWord "async", optionalWord "move", operator "|",
    list (nextOperator "|") "," (parameter g), operator "|"]
  if ← nextOperator "->" then
    return head ++ (← inOrder [operator "->", g.typeTrees true, g.block false])
  else return head ++ (← g.expressionTrees records)

/-- Syntax of the compiler's own: a name and arguments behind a mark. -/
def builtin : Phrase :=
  asWritten (inOrder [word "builtin", operator "#", name, tree (startsGroup .parentheses)])

/-- The value with which a block or function is left, if it has one. -/
def leavingValue : Phrase := whenNext (next startsExpression) (g.expressionTrees true)

/-- Leaves a loop or block, perhaps one with a label and perhaps with a value. A labelled loop as
the value needs parentheses. -/
def breaking (records : Bool) : Phrase := do
  let mark ← word "break"
  let label ← whenNext (next startsLifetime) lifetime
  if !label.isEmpty && (← nextOperator ":") then failure
  else if !records && (← nextGroup .braces) then return mark ++ label
  else return mark ++ label ++ (← leavingValue g)

/-- A pattern against a value, as a condition. -/
def matching (records : Bool) : Phrase :=
  inOrder [word "let", choiceTrees g, operator "=",
    do return (← g.rightSide .pattern records).trees]

/-- An operand without what may be written before and behind it. -/
def atom (records : Bool) : Reading Expression := do
  if ← next startsLiteral then return .plain (← literal)
  else if ← next BlockPhrase.startsDeferred then return .plain (← BlockPhrase.deferred g)
  else if ← next startsClosure then return .plain (← closure g records)
  else if ← next startsBuiltin then return .asWritten (← builtin)
  else if ← next startsValue then pathAtom g records
  else if ← nextGroup .parentheses then
    return .plain (← inside .parentheses (commas (g.expressionTrees true)))
  else if ← nextWord "break" then return .plain (← breaking g records)
  else if ← nextWord "continue" then
    return .plain (← andThen (word "continue") (whenNext (next startsLifetime) lifetime))
  else if ← nextOneOf ["return", "yield"] then return .plain (← andThen anyWord (leavingValue g))
  else if ← nextWord "become" then
    return .asWritten (← asWritten (andThen (word "become") (g.expressionTrees true)))
  else if ← nextGroup .brackets then return .plain (← inside .brackets (elements g))
  else if ← nextWord "let" then return .plain (← matching g records)
  else if ← next BlockPhrase.startsBlock then return .ofBlock (← BlockPhrase.rule g)
  else if ← nextOperator ".." then return { kind := .range, trees := ← rangeTail g records }
  else return .plain (← word "_")

/-! ## steps -/

/-- The positions that a number stands for behind a point, where `0.1` is two of them. -/
def positions? (number : String) : Option Tokens := do
  let parts := number.splitOn "."
  let named := if number.endsWith "." then parts.dropLast else parts
  let found ← named.mapM position?
  return (operatorTrees ['.']).intercalate (found.map fun n => [TokenTree.literal (toString n)])

/-- A field or method behind a point. Generic arguments need the arguments of a call behind them. -/
def selected : Phrase := do
  if ← nextWord "await" then word "await"
  else
    let label ← member
    if startsName label && (← nextOperator "::") then
      let arguments ← andThen (operator "::") (genericArguments g)
      return label ++ arguments ++ (← inside .parentheses (commas (g.expressionTrees true)))
    else return label

/-- A step to a field or method: a point and what it selects. -/
def selection : Phrase := do
  let point ← operator "."
  match ← get with
  | .literal number :: rest =>
    if hasFraction number then
      match positions? number with
      | some found =>
        set rest
        if number.endsWith "." then return point ++ found ++ operatorTrees ['.'] ++ (← selected g)
        else return point ++ found
      | none => failure
    else return point ++ (← selected g)
  | _ => return point ++ (← selected g)

/-- A step from an operand: arguments, an index, a selection, or the mark of an early return. -/
def step : Phrase := do
  if ← nextGroup .parentheses then inside .parentheses (commas (g.expressionTrees true))
  else if ← nextGroup .brackets then inside .brackets (g.expressionTrees true)
  else if ← nextOperator "?" then operator "?"
  else selection g

/-- A step comes next. From a range there is no selection and no early return. -/
def startsStep (fromRange : Bool) (ts : Tokens) : Bool :=
  startsGroup .parentheses ts || startsGroup .brackets ts ||
    (!fromRange && (startsOperator ['?'] ts || startsPoint ts))

/-- Up to `count` steps from an operand. -/
def stepsWithin : Nat → Expression → Reading Expression
  | 0, e => pure e
  | count + 1, e => do
    if ← next (startsStep e.isRange) then
      stepsWithin count (.plain (e.trees ++ (← step g)))
    else return e

/-- All steps from an operand. -/
def steps (e : Expression) : Reading Expression := do stepsWithin g (← get).length e

/-! ## signs -/

/-- The sign of a reference, which may be raw. -/
def reference : Phrase := do
  let raw ← next fun ts =>
    startsWord "raw" (afterTree ts) && startsOneOf ["mut", "const"] (afterTree (afterTree ts))
  if raw then inOrder [operator "&", word "raw", anyWord]
  else andThen (operator "&") (optionalWord "mut")

/-- A sign before an operand, if there is one. -/
def sign : Phrase := do
  if ← nextOperator "&" then reference
  else if ← nextOperator "*" then operator "*"
  else if ← nextOperator "!" then operator "!"
  else optionalOperator "-"

/-- An operand with attributes, signs and steps. A range without a start has no attributes. -/
def rule (records : Bool) : Reading Expression := do
  let start ← get
  let attributes ← Attribute.phrases g
  let sign ← sign
  if !sign.isEmpty then
    return .plain (attributes ++ sign ++ (← g.operand records).trees)
  else
    let found ← steps g (← atom g records)
    if found.isWritten then return .asWritten (← since start)
    else if found.isRange && !attributes.isEmpty then failure
    else return found.withAttributes attributes

end

end TypedConsole.Source.Operand
