import TypedConsole.Text.Casing

/-!
# TypedConsole.Text.Lowercase

Lower-casing of whole texts. Each character becomes its full lower case, which is two characters
for a capital I with a dot; a capital sigma that ends a word becomes the final small sigma, any
other one the medial.
-/

namespace TypedConsole.Text

/-- The lower case of one character out of context. -/
def lowercaseChar (c : Char) : List Char :=
  if c.toNat < 128 then [c.toLower]
  else if c == 'İ' then ['i', '\u0307']
  else match lowercaseRuns.find? (·.covers c.toNat) with
    | some run => [Char.ofNat (c.toNat + run.shift).toNat]
    | none => [c]

/-- Behind the ignorable characters that come first, a cased one follows. -/
def leadsToCased (s : List Char) : Bool :=
  match s.dropWhile isCaseIgnorable with
  | [] => false
  | c :: _ => isCased c

/-- Lower-case `s`; `before` holds the characters in front of it, the nearest first. A sigma ends
a word if a cased character leads up to it and none follows. -/
def lowercaseFrom (before : List Char) : List Char → List Char
  | [] => []
  | c :: s =>
    let lowered :=
      if c == 'Σ' then [if leadsToCased before && !leadsToCased s then 'ς' else 'σ']
      else lowercaseChar c
    lowered ++ lowercaseFrom (c :: before) s

/-- The lower case of a text. -/
def lowercase (s : String) : String := String.ofList (lowercaseFrom [] s.toList)

end TypedConsole.Text
