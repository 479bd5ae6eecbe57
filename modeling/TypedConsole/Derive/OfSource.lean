import TypedConsole.Derive.Code
import TypedConsole.Source.Item

/-!
# TypedConsole.Derive.OfSource

Plans of commands and compounds from source texts.  The library for the language is the one under
`TypedConsole.Source`, which does not say why it refuses a text.
-/

namespace TypedConsole.Derive

open Source

/-! ## the language -/

/-- An expression as an argument of an attribute. -/
def Argument.ofExpression (e : Expression) : Argument :=
  match e.kind with
  | .assignment target v => .assignment target v
  | .name text => .name text
  | _ => .other e.trees

/-- The arguments of an attribute, which must have a group of them. -/
def argumentsOf (a : Attribute) : Except Unit (List Argument) :=
  match a.arguments.bind Expression.list? with
  | some expressions => .ok (expressions.map .ofExpression)
  | none => .error ()

/-- The value of a piece of source text that is one string literal. -/
def stringIn? : Tokens → Option String
  | [.literal text] => stringValue? text
  | _ => none

/-- The Rust language as it is read here. -/
def rust : Language Unit where
  arguments := argumentsOf
  display := Tokens.display
  string? := stringIn?
  literal := TokenTree.string
  isReference type := Phrase.startsOperator ['&'] type || Phrase.startsOperator ['*'] type

/-! ## equal plans -/

/-- Two pieces of source text are the same if they are displayed alike. -/
instance : BEq Snippet := ⟨fun a b => rust.display a.tokens == rust.display b.tokens⟩

deriving instance BEq for Role, Requirement, ParameterPlan, CommandPlan, SlotPlan, CompoundPlan

/-! ## plans -/

/-- The plan of the command that a source text describes. -/
def CommandPlan.ofString (source : String) : Except (DeriveError Unit) CommandPlan :=
  match Item.ofString? source with
  | some item => ofItem rust item
  | none => .error (.malformed ())

/-- The plan of the compound that a source text describes. -/
def CompoundPlan.ofString (source : String) : Except (DeriveError Unit) CompoundPlan :=
  match Item.ofString? source with
  | some item => ofItem rust item
  | none => .error (.malformed ())

end TypedConsole.Derive
