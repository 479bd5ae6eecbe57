import TypedConsole.Text.Blank

/-!
# TypedConsole.Help.Wrap

Wrapping of paragraphs. Words are put on a line as long as they fit into a width; a word that is
wider than a whole line is cut, each piece but the last filling a line and ending in a hyphen.
-/

namespace TypedConsole.Help

/-- The full lines cut off a word that is too wide, and the last piece. Every line gets one
character less than the width, and the hyphen. -/
def hyphenate (width : Nat) (word : List Char) : List (List Char) × List Char :=
  if width < word.length ∧ 2 ≤ width then
    let (lines, last) := hyphenate width (word.drop (width - 1))
    ((word.take (width - 1) ++ ['-']) :: lines, last)
  else ([], word)
termination_by word.length
decreasing_by
  simp only [List.length_drop]
  omega

/-- The lines of the words, `current` being the line that has been begun. -/
def wrapFrom (width : Nat) (current : List Char) : List (List Char) → List (List Char)
  | [] => if current.isEmpty then [] else [current]
  | word :: rest =>
    if current.isEmpty then
      let (full, last) := hyphenate width word
      full ++ wrapFrom width last rest
    else if current.length + word.length + 1 ≤ width then
      wrapFrom width (current ++ ' ' :: word) rest
    else
      let (full, last) := hyphenate width word
      current :: full ++ wrapFrom width last rest

/-- The lines of a paragraph, at most `width` characters wide. -/
def wrap (width : Nat) (paragraph : List Char) : List (List Char) :=
  wrapFrom width [] (Text.words paragraph)

end TypedConsole.Help
