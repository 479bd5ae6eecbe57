import TypedConsole.Source.Declaration

/-!
# TypedConsole.Derive.Language

What is asked about source text in the Rust language.  A library for the language answers that:
which expressions the arguments of an attribute are, how a piece of source text is displayed, which
pieces are strings and how a string is written, and which types are references.  Plans are made with
any such library.
-/

namespace TypedConsole.Derive

open Source

/-- An expression among the arguments of an attribute. -/
inductive Argument
  /-- An assignment. -/
  | assignment (target value : Tokens)
  /-- A path that is a single name. -/
  | name (text : String)
  /-- Any other expression. -/
  | other (expression : Tokens)
deriving Repr

/-- What a library knows about source text.  Where it refuses some it says why, in its own errors
`ε`. -/
structure Language (ε : Type) where
  /-- The arguments of an attribute, if they are expressions between commas. -/
  arguments : Attribute → Except ε (List Argument)
  /-- A piece of source text as messages show it. -/
  display : Tokens → String
  /-- The value of a piece that is one string literal. -/
  string? : Tokens → Option String
  /-- The string literal with that value. -/
  literal : String → TokenTree
  /-- The type is a reference or a pointer. -/
  isReference : Tokens → Bool

end TypedConsole.Derive
