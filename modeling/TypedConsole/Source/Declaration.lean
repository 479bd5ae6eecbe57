import TypedConsole.Source.Token

/-!
# TypedConsole.Source.Declaration

Declarations of data types in the Rust language as their parts: attributes, fields and what kind of
type it is. Kept is what a description of a console is made from.
-/

namespace TypedConsole.Source

/-- An attribute. -/
structure Attribute where
  path : Tokens
  /-- What the group behind the path holds, if there is one. -/
  arguments : Option Tokens
  /-- All of the attribute. -/
  trees : Tokens
deriving Repr

/-- The path is this name alone. -/
def Attribute.isNamed (a : Attribute) (name : String) : Bool :=
  match a.path with
  | [.name text] => text == name
  | _ => false

/-- A field of a record. -/
structure Field where
  attributes : List Attribute
  name : String
  type : Tokens
  /-- All of the field. -/
  trees : Tokens
deriving Repr

/-- What a data type is. -/
inductive Shape
  /-- A struct with named fields. -/
  | record (fields : List Field)
  /-- A struct whose fields have positions. -/
  | tuple
  /-- A struct without fields. -/
  | unit
  | enumeration
  | union
deriving Repr

/-- The declaration of a data type. -/
structure Item where
  attributes : List Attribute
  name : String
  /-- The type has parameters. -/
  generic : Bool
  shape : Shape
deriving Repr

end TypedConsole.Source
