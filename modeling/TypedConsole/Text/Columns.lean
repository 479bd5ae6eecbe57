/-!
# TypedConsole.Text.Columns

Texts in columns. Widths count characters.
-/

namespace TypedConsole.Text

/-- That many spaces. -/
def spaces (n : Nat) : List Char := List.replicate n ' '

/-- The text, filled up with spaces to a width. A longer text stays as it is. -/
def padTo (width : Nat) (s : List Char) : List Char := s ++ spaces (width - s.length)

/-- The greatest of the numbers, if there is one. -/
def greatest? : List Nat → Option Nat
  | [] => none
  | n :: ns => some (ns.foldl max n)

/-- Texts on lines of their own. -/
def joinLines (lines : List String) : String := "\n".intercalate lines

end TypedConsole.Text
