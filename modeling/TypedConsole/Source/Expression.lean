import TypedConsole.Source.Operand

/-!
# TypedConsole.Source.Expression

Expressions: operands between operators of different levels. To the right of an operator stands an
operand with all that binds more tightly than the operator; assignment alone takes up its own
level too. Comparisons do not associate, and nothing goes on from a range. At the front of a
statement or of the body of an arm, a block ends the expression unless a step follows it.
-/

namespace TypedConsole.Source

open Phrase

/-! ## operators -/

/-- The operators between two expressions, without the plain assignment. None that starts with
another comes after it. -/
def binaryOperators : List (String × Level) :=
  ["+=", "-=", "*=", "/=", "%=", "^=", "&=", "|=", "<<=", ">>="].map (·, .assign) ++
  [("&&", .and), ("||", .or), ("<<", .shift), (">>", .shift)] ++
  ["==", "<=", "!=", ">="].map (·, .compare) ++
  [("+", .sum), ("-", .sum), ("*", .product), ("/", .product), ("%", .product), ("^", .bitXor),
   ("&", .bitAnd), ("|", .bitOr), ("<", .compare), (">", .compare)]

/-- The operator that comes next. -/
def nextBinary : Reading (Option (String × Level)) := do
  let ts ← get
  return binaryOperators.find? fun (text, _) => startsOperator text.toList ts

/-- The level of what comes next. What is no operator binds most loosely. -/
def nextLevel : Reading Level := do
  match ← nextBinary with
  | some (_, level) => return level
  | none =>
    if ← next startsEquals then return .assign
    else if ← nextOperator ".." then return .range
    else if ← nextWord "as" then return .cast
    else return .jump

namespace Expression

/-- A step comes next. A conversion without parentheses has none. -/
def startsStep (ts : Tokens) : Bool :=
  startsPoint ts || startsOperator ['?'] ts || startsGroup .brackets ts ||
    startsGroup .parentheses ts

/-- The type that a value is converted to. -/
def conversion (g : Rules) : Phrase := do
  let found ← andThen (word "as") (g.typeTrees false)
  if ← next startsStep then failure else return found

section
variable (g : Rules) (records : Bool)

/-! ## levels -/

/-- The expression that goes on from `left` with the operator that comes next, if one does that
binds at least as tightly as `base`. -/
def extension? (base : Level) (left : Expression) : Reading (Option Expression) := do
  let onward (kind : ExpressionKind) (trees : Tokens) : Option Expression :=
    some { kind, trees := left.trees ++ trees, startsWritten := left.startsWritten }
  if left.isRange then return none
  else
    match ← nextBinary with
    | some (text, level) =>
      if !level.isWithin base then return none
      else if level == .compare && left.isComparison then failure
      else
        let sign ← operator text
        let right ← g.rightSide level records
        return onward (if level == .compare then .comparison else .other) (sign ++ right.trees)
    | none =>
      if Level.isWithin .assign base && (← next startsEquals) then
        let sign ← operator "="
        let right ← g.rightSide .assign records
        return onward (.assignment left.trees right.trees) (sign ++ right.trees)
      else if Level.isWithin .range base && (← nextOperator "..") then
        let trees := left.trees ++ (← Operand.rangeTail g records)
        return some { kind := .range, trees }
      else if ← nextWord "as" then return onward .other (← conversion g)
      else return none

/-- The expression that goes on from `left` with up to `count` operators. -/
def extendWithin (base : Level) : Nat → Expression → Reading Expression
  | 0, left => pure left
  | count + 1, left => do
    match ← extension? g records base left with
    | some longer => extendWithin base count longer
    | none => return left

/-- The expression that goes on from `left` with all operators that bind at least as tightly as
`base`. -/
def extend (base : Level) (left : Expression) : Reading Expression := do
  extendWithin g records base (← get).length left

/-- An operand that goes on, up to `count` times, with what binds more tightly than the level. -/
def rightWithin (level : Level) : Nat → Expression → Reading Expression
  | 0, right => pure right
  | count + 1, right => do
    let following ← nextLevel
    if following.isTighter level || (following == level && level == .assign) then
      let rest := (← get).length
      let longer ← extend g records following right
      if (← get).length == rest then return longer
      else rightWithin level count longer
    else return right

/-- What stands to the right of an operator of the level. -/
def readRight (level : Level) : Reading Expression := do
  let right ← Operand.rule g records
  rightWithin g records level (← get).length right

/-- Reads an expression. -/
def read : Reading Expression := do extend g records .jump (← Operand.rule g records)

end

/-! ## at the front of a statement -/

/-- Reads an expression at the front of a statement or of the body of an arm. -/
def readLeading (g : Rules) : Reading Expression := do
  let attributes ← Attribute.phrases g
  let first ←
    if ← next BlockPhrase.startsLeading then pure (ofBlock (← BlockPhrase.rule g))
    else Operand.rule g true
  if !first.isBlock then extend g true .jump (first.withAttributes attributes)
  else if ← next (fun ts => startsPoint ts || startsOperator ['?'] ts) then
    let stepped ← Operand.steps g first
    extend g true .jump (stepped.withAttributes attributes)
  else return first.withAttributes attributes

/-- The expressions of a text that is a list of them, separated by commas. -/
def listWithin (g : Rules) : Nat → Reading (List Expression)
  | 0 => pure []
  | count + 1 => do
    if ← nextEnd then return []
    else
      let first ← read g true
      if ← nextEnd then return [first]
      else
        let _ ← operator ","
        return first :: (← listWithin g count)

end Expression

end TypedConsole.Source
