import TypedConsole.Interpretation

/-!
# TypedConsole.Command

Commands declared by their fields: each field is a parameter of the command's grammar, and the
arguments that the grammar parsed give back one value for each field.
-/

namespace TypedConsole

/-- A field of a command, with the parameter that fills it. -/
structure CommandField where
  name : String
  parameter : Parameter

/-- A command with named fields. -/
structure Command where
  fields : List CommandField

namespace Command

/-- The grammar of the command: one parameter for each field, in order. -/
def grammar (c : Command) (r : Registry) : Except ConfigError Grammar × Registry :=
  Grammar.build (c.fields.map (·.parameter)) r

/-- Take the arguments from `index` on, one for each field and of its type. -/
def takeFrom (index : Nat) (arguments : Arguments) :
    List CommandField → Except ArgumentError (List Value)
  | [] => .ok []
  | f :: fs => do
    let (v, arguments) ← arguments.take index f.parameter.type
    let vs ← takeFrom (index + 1) arguments fs
    pure (v :: vs)

/-- The values of the fields. -/
def fromArguments (c : Command) (arguments : Arguments) : Except ArgumentError (List Value) :=
  takeFrom 0 arguments c.fields

end Command

end TypedConsole
