import TypedConsole.Source.ItemPhrase
import TypedConsole.Source.Statement

/-!
# TypedConsole.Source.Nesting

The phrases that contain each other, tied together. A phrase reads what is nested in it one level
deeper, and of the phrases that are nested without a tree between them there are fewer than four;
so four levels for each tree of a text are more than enough.
-/

namespace TypedConsole.Source

open Phrase

namespace Rules

/-- The rules of all phrases over readings of what is nested in them. -/
def around (g : Rules) : Rules where
  type := TypePhrase.rule g
  bound := BoundPhrase.bound g
  pattern := PatternPhrase.rule g
  operand := Operand.rule g
  rightSide level records := Expression.readRight g records level
  expression := Expression.read g
  leading := Expression.readLeading g
  body := Statement.body g
  item := ItemPhrase.rule g

/-- Nothing can be read. -/
def nothing : Rules where
  type _ := failure
  bound _ _ := failure
  pattern := failure
  operand _ := failure
  rightSide _ _ := failure
  expression _ := failure
  leading := failure
  body _ := failure
  item := failure

/-- The phrases, nested no deeper than `depth`. -/
def within : Nat → Rules
  | 0 => nothing
  | depth + 1 => around (within depth)

/-- The phrases of a text. -/
def of (ts : Tokens) : Rules := within (4 * (Tokens.size ts + 1))

end Rules

/-- The expressions of a text that is a list of them, if it is one. -/
def Expression.list? (ts : Tokens) : Option (List Expression) :=
  whole? (Expression.listWithin (Rules.of ts) (ts.length + 1)) ts

end TypedConsole.Source
