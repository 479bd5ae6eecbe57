import TypedConsole.Value
import TypedConsole.Ty.Name

/-!
# TypedConsole.Arguments

The values of a parsed command line, one for each parameter of the grammar in the order of
declaration. A value can be looked at or taken out, each time for the type it is expected to have.
-/

namespace TypedConsole

/-- Why an argument cannot be taken. -/
inductive ArgumentError
  /-- There is no such argument, or it was taken before. -/
  | missing (index : Nat)
  | wrongType (index : Nat) (expected : Ty)
deriving DecidableEq

/-- The wording of the error. -/
def ArgumentError.message : ArgumentError → String
  | missing i => s!"No argument at index {i}."
  | wrongType i t => s!"The argument at index {i} is not a '{t.fullName}'."

/-- Values by index; one that was taken has left its place empty. -/
structure Arguments where
  values : List (Option TypedValue)

namespace Arguments

/-- The number of arguments, those taken included. -/
def size (a : Arguments) : Nat := a.values.length

/-- There are no arguments. -/
def isEmpty (a : Arguments) : Bool := a.values.isEmpty

/-- The argument at an index, if it is held and of the type. -/
def get? (a : Arguments) (index : Nat) (t : Ty) : Option Value :=
  a.values[index]?.join.bind (·.as? t)

/-- Take the argument at an index. One of another type stays where it is. -/
def take (a : Arguments) (index : Nat) (t : Ty) : Except ArgumentError (Value × Arguments) :=
  match a.values[index]?.join with
  | none => .error (.missing index)
  | some v =>
    match v.as? t with
    | some value => .ok (value, ⟨a.values.set index none⟩)
    | none => .error (.wrongType index t)

/-- The arguments in one line, without their values. -/
def summary (a : Arguments) : String :=
  let shown := a.values.map fun v => if v.isSome then "Some(Value(..))" else "None"
  s!"Arguments \x7b values: [{commaSeparated shown}] \x7d"

end Arguments

end TypedConsole
