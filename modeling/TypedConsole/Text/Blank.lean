import TypedConsole.Text.Ranges

/-!
# TypedConsole.Text.Blank

White space: the characters with Unicode's property `White_Space`, here called blanks, and the
cuts at blanks that the other modules use. A text is trimmed at one end or both, split into its
words, or divided into its first word and what follows it.
-/

namespace TypedConsole.Text

/-- The code point ranges of the property `White_Space`. -/
def blankRanges : List (Nat × Nat) :=
  [(9, 13), (32, 32), (133, 133), (160, 160), (5760, 5760), (8192, 8202), (8232, 8233),
   (8239, 8239), (8287, 8287), (12288, 12288)]

/-- A blank is a character with the property `White_Space`. -/
def isBlank (c : Char) : Bool := inRanges blankRanges c

/-! ## trimming -/

/-- The text after its leading blanks. -/
def skipBlanks (s : List Char) : List Char := s.dropWhile isBlank

/-- The text before its trailing blanks. -/
def dropTrailingBlanks (s : List Char) : List Char := (skipBlanks s.reverse).reverse

/-- The text without the blanks at both ends. -/
def trim (s : String) : String := String.ofList (dropTrailingBlanks (skipBlanks s.toList))

/-- The text without its trailing blanks. -/
def trimEnd (s : String) : String := String.ofList (dropTrailingBlanks s.toList)

/-! ## words -/

/-- The text stops here or goes on with a blank. -/
def atBoundary : List Char → Bool
  | [] => true
  | c :: _ => isBlank c

/-- The characters before the first blank. -/
def leadingWord (s : List Char) : List Char := s.takeWhile (!isBlank ·)

/-- What remains from the first blank on. -/
def afterLeadingWord (s : List Char) : List Char := s.dropWhile (!isBlank ·)

/-- Skipping blanks never lengthens a text. -/
theorem length_skipBlanks_le (s : List Char) : (skipBlanks s).length ≤ s.length :=
  (List.dropWhile_suffix _).length_le

/-- Where blanks end, another character stands. -/
theorem isBlank_of_skipBlanks_eq_cons {s r : List Char} {c : Char} (h : skipBlanks s = c :: r) :
    isBlank c = false := by
  have := List.head?_dropWhile_not isBlank s
  simp only [skipBlanks] at h
  rw [h] at this
  simpa using this

/-- The words of a text: its maximal runs without a blank, in order. -/
def words (s : List Char) : List (List Char) :=
  match _h : skipBlanks s with
  | [] => []
  | c :: r => leadingWord (c :: r) :: words (afterLeadingWord (c :: r))
termination_by s.length
decreasing_by
  have h := _h
  have hb := isBlank_of_skipBlanks_eq_cons h
  have hl := length_skipBlanks_le s
  have hr : (r.dropWhile (!isBlank ·)).length ≤ r.length := (List.dropWhile_suffix _).length_le
  rw [h] at hl
  simp only [List.length_cons] at hl
  simp only [afterLeadingWord, List.dropWhile_cons, hb, Bool.not_false, if_true]
  omega

/-- The first word of a text and all that follows it, or nothing for a blank text. -/
def splitWord (s : List Char) : Option (List Char × List Char) :=
  match skipBlanks s with
  | [] => none
  | c :: r => some (leadingWord (c :: r), afterLeadingWord (c :: r))

end TypedConsole.Text
