import TypedConsole.Help.Wrap
import TypedConsole.Number.BinaryFloat
import TypedConsole.Text.Columns

/-!
# TypedConsole.Help.Layout

The rows of help messages: an indentation, a name, a text that is wrapped within its column, and
perhaps a template on the right. A layout has the widths of the columns. Fitted to a total width,
the middle column gets what the others leave of it, but never less than a minimum.
-/

namespace TypedConsole.Help

/-- The spaces in front of every row. -/
def indentation : Nat := 4

/-- The spaces between two columns. -/
def gap : Nat := 8

/-- The least width that wrapping leaves to the middle column: three words of five letters. -/
def leastMiddle : Nat := 17

/-- The widths of the columns. There need not be a right one. -/
structure Layout where
  left : Nat
  middle : Nat
  right : Option Nat
deriving DecidableEq, Repr

/-- The width that rows are fitted to: 95 parts of a hundred of the total, computed in double
width floating point numbers and cut to a whole number. -/
def targetWidth (total : Nat) : Nat :=
  let product := do
    let whole ← FloatType.f64.round false total 1
    let share ← FloatType.f64.round false 95 100
    BinaryFloat.mul? .f64 whole share
  (product.map BinaryFloat.truncate).getD 0

namespace Layout

/-- The width of everything but the middle column. -/
def besideMiddle (l : Layout) : Nat :=
  indentation + l.left + gap + (l.right.map (gap + ·)).getD 0

/-- The layout with its middle column fitted to a total width. -/
def fit (total : Nat) (l : Layout) : Layout :=
  let target := targetWidth total
  if l.middle + l.besideMiddle ≤ target then l
  else if l.besideMiddle < target then
    { l with middle := max (target - l.besideMiddle) leastMiddle }
  else { l with middle := leastMiddle }

/-- The layout of rows: each column as wide as its widest text, the left one as given, the middle
one at least two characters. Templates that are all empty need no column. -/
def ofRows (left : Nat) (rows : List (List Char × Option (List Char))) : Layout where
  left := max left 1
  middle := max ((Text.greatest? (rows.map (·.1.length))).getD 2) 2
  right := (Text.greatest? (rows.filterMap fun r => r.2.map List.length)).filter (0 < ·)

/-- The lines of a row, with a text that is as wide as the right column. The lines after the first
continue the middle column. -/
def lines (l : Layout) (left middle right : List Char) : List (List Char) :=
  let pieces := wrap l.middle middle
  let first := pieces.headD []
  let head := Text.spaces indentation ++ Text.padTo l.left left ++ Text.spaces gap ++
    Text.padTo l.middle first ++ Text.spaces gap ++ right
  let tail := pieces.tail.map fun piece =>
    Text.spaces indentation ++ Text.spaces l.left ++ Text.spaces gap ++ piece
  (head :: tail).map Text.dropTrailingBlanks

/-- The lines of a row that may have a template. A template, even an empty one, needs a right
column: without it there is no such row. -/
def render? (l : Layout) (left middle : List Char) :
    Option (List Char) → Option (List (List Char))
  | none => some (l.lines left middle [])
  | some template => l.right.map fun width => l.lines left middle (Text.padTo width template)

end Layout

end TypedConsole.Help
