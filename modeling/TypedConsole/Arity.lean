/-!
# TypedConsole.Arity

The permitted number of elements of a container parameter: at least one number, at most another,
where either bound may be missing.
-/

namespace TypedConsole

/-- Bounds on a number of elements. -/
structure Arity where
  min : Option Nat := none
  max : Option Nat := none
deriving DecidableEq, Repr

namespace Arity

/-- At least one bound is set. -/
def isBounded (a : Arity) : Bool := a.min.isSome || a.max.isSome

/-- The number lies within the bounds. -/
def permits (a : Arity) (count : Nat) : Bool := a.min.all (· ≤ count) && a.max.all (count ≤ ·)

/-- A number of elements in words. -/
def elements (count : Nat) : String :=
  if count = 1 then s!"{count} element" else s!"{count} elements"

/-- The bounds in prose, if any is set. -/
def describe (a : Arity) : Option String :=
  match a.min, a.max with
  | none, none => none
  | some 0, some 0 => some "May not contain any elements"
  | some least, some most =>
    if least = most then some s!"May contain {least} and only {elements least}"
    else some s!"May have between {least} and {most} elements"
  | some least, none => some s!"Must have at least {elements least}"
  | none, some most => some s!"Can have at most {elements most}"

end Arity

end TypedConsole
