import TypedConsole.Source.Phrase

/-!
# TypedConsole.Source.Rules

The phrases that contain each other. Each is what its trees are, and what the phrases around it
ask of it: whether a type is a path, whether an expression ends with its block, and the like. The
rule of each phrase is written over readings of all of them, which it calls for what is nested in
it; so the rules are plain definitions, tied together once.
-/

namespace TypedConsole.Source

/-! ## types -/

/-- What kind of bound a bound is. -/
inductive BoundKind
  | lifetime
  | trait
  /-- The parameters that a hidden type captures. -/
  | capture
  /-- A trait that holds in constants, kept as it is written. -/
  | constant
deriving DecidableEq, Repr

/-- What a type must satisfy. -/
structure BoundForm where
  kind : BoundKind
  trees : Tokens
deriving Repr

/-- What kind of type a type is. -/
inductive TypeKind
  /-- A path of a single segment, which may name an associated item. -/
  | segment
  /-- Any other path that starts with a segment. -/
  | path
  /-- One bound, without the parentheses around it. -/
  | bound (bare : Tokens)
  | other
deriving Repr

/-- A type. -/
structure TypeForm where
  kind : TypeKind
  trees : Tokens
deriving Repr

/-! ## patterns -/

/-- What kind of pattern a pattern is. -/
inductive PatternKind
  /-- A range without a start or without an end. -/
  | openRange
  /-- A pattern that is kept as it is written. -/
  | written
  /-- A constant block, without the attributes in it. -/
  | constant (bare : Tokens)
  | other
deriving Repr

/-- A pattern. -/
structure PatternForm where
  kind : PatternKind
  trees : Tokens
deriving Repr

/-! ## expressions -/

/-- How tightly an operator binds, from the loosest to the tightest. -/
inductive Level
  /-- What leaves a block, which takes all that follows. -/
  | jump
  | assign
  | range
  | or
  | and
  | pattern
  | compare
  | bitOr
  | bitXor
  | bitAnd
  | shift
  | sum
  | product
  | cast
deriving DecidableEq, Repr

namespace Level

/-- All levels, the loosest first. -/
def all : List Level :=
  [jump, assign, range, or, and, pattern, compare, bitOr, bitXor, bitAnd, shift, sum, product, cast]

/-- The number of looser levels. -/
def rank (l : Level) : Nat := all.idxOf l

/-- The first level binds at least as tightly as the second. -/
def isWithin (l base : Level) : Bool := base.rank ≤ l.rank

/-- The first level binds more tightly than the second. -/
def isTighter (l base : Level) : Bool := base.rank < l.rank

end Level

/-- What kind of expression an expression is. -/
inductive ExpressionKind
  /-- A name alone. -/
  | name (text : String)
  /-- Something is set to a value. -/
  | assignment (target value : Tokens)
  | comparison
  | range
  /-- A block, with the words before it: it ends a statement or an arm by itself. -/
  | block
  /-- The call of a macro with its arguments in braces: it ends a statement by itself. -/
  | bracedCall
  /-- An expression that is kept as it is written. -/
  | written
  | other
deriving Repr

/-- An expression. -/
structure Expression where
  kind : ExpressionKind
  trees : Tokens
  /-- It starts with an operand that is kept as it is written. -/
  startsWritten : Bool := false
deriving Repr

namespace Expression

/-- An expression that nothing around it asks about. -/
def plain (trees : Tokens) : Expression := { kind := .other, trees }

/-- A block, with the words before it. -/
def ofBlock (trees : Tokens) : Expression := { kind := .block, trees }

/-- An expression that is kept as it is written. -/
def asWritten (trees : Tokens) : Expression := { kind := .written, trees, startsWritten := true }

/-- The expression behind attributes. They cannot be kept before an operand as it is written. -/
def withAttributes (attributes : Tokens) (e : Expression) : Expression :=
  if e.startsWritten then e else { e with trees := attributes ++ e.trees }

/-- The expression is a comparison. -/
def isComparison (e : Expression) : Bool := e.kind matches .comparison

/-- The expression is a range. -/
def isRange (e : Expression) : Bool := e.kind matches .range

/-- The expression is a block, with the words before it. It ends a statement and an arm. -/
def isBlock (e : Expression) : Bool := e.kind matches .block

/-- The expression is kept as it is written. -/
def isWritten (e : Expression) : Bool := e.kind matches .written

/-- The expression ends a statement without a semicolon. -/
def endsStatement (e : Expression) : Bool := e.kind matches .block | .bracedCall

/-- The expression ends in braces. -/
def endsInBraces (e : Expression) : Bool :=
  match e.trees.getLast? with
  | some (.group .braces _) => true
  | _ => false

end Expression

/-! ## all of them -/

/-- Readings of the phrases that contain each other. -/
structure Rules where
  /-- A type, which may be a sum of bounds if `sums`. -/
  type (sums : Bool) : Reading TypeForm
  /-- A bound, of which some kinds are allowed only in places. -/
  bound (captures constants : Bool) : Reading BoundForm
  /-- A pattern without choices. -/
  pattern : Reading PatternForm
  /-- An operand with its signs and steps. It may end in the braces of a record if `records`. -/
  operand (records : Bool) : Reading Expression
  /-- What stands to the right of an operator of the level. -/
  rightSide (level : Level) (records : Bool) : Reading Expression
  /-- An expression. -/
  expression (records : Bool) : Reading Expression
  /-- An expression at the front of a statement or of the body of an arm, which a block ends. -/
  leading : Reading Expression
  /-- What a block holds, with attributes of its own if `marked`. -/
  body (marked : Bool) : Phrase
  /-- An item. -/
  item : Phrase

namespace Rules

variable (g : Rules)

/-- The trees of a type. -/
def typeTrees (sums : Bool) : Phrase := do return (← g.type sums).trees

/-- The trees of a bound. -/
def boundTrees (captures constants : Bool) : Phrase := do
  return (← g.bound captures constants).trees

/-- The trees of an expression. -/
def expressionTrees (records : Bool) : Phrase := do return (← g.expression records).trees

/-- A block. -/
def block (marked : Bool) : Phrase := Phrase.inside .braces (g.body marked)

end Rules

end TypedConsole.Source
