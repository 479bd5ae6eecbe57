/-!
# TypedConsole.Text.Ranges

Character classes given as tables: a class is a list of code point ranges, ends included.
-/

namespace TypedConsole.Text

/-- The character's code point lies in one of the ranges. -/
def inRanges (ranges : List (Nat × Nat)) (c : Char) : Bool :=
  ranges.any fun r => r.1 ≤ c.toNat && c.toNat ≤ r.2

end TypedConsole.Text
