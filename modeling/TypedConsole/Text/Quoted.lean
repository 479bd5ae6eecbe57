import TypedConsole.Text.Printable

/-!
# TypedConsole.Text.Quoted

Quoted forms of characters and texts: between quotes, with escapes for the quote, the backslash,
the usual controls and every character without a visible form. A character stands between single
quotes and a text between double ones.
-/

namespace TypedConsole.Text

/-- A character between the given quotes. An escape by code point is written in lower-case
hexadecimal digits without leading zeros. -/
def escapedChar (quote c : Char) : List Char :=
  if c == '\x00' then ['\\', '0']
  else if c == '\t' then ['\\', 't']
  else if c == '\r' then ['\\', 'r']
  else if c == '\n' then ['\\', 'n']
  else if c == quote || c == '\\' then ['\\', c]
  else if isPrintable c then [c]
  else ['\\', 'u', '\x7b'] ++ Nat.toDigits 16 c.toNat ++ ['\x7d']

/-- The quoted form of a character. -/
def quotedChar (c : Char) : String := String.ofList ('\'' :: escapedChar '\'' c ++ ['\''])

/-- The characters of a text between double quotes. A zero before an octal digit is written so that
the digit is no part of it. -/
def escapedText : List Char → List Char
  | [] => []
  | c :: s =>
    let octal := s.head?.any fun d => '0' ≤ d && d ≤ '7'
    (if c == '\x00' && octal then ['\\', 'x', '0', '0'] else escapedChar '"' c) ++ escapedText s

/-- The quoted form of a text. -/
def quotedText (s : String) : String := String.ofList ('"' :: escapedText s.toList ++ ['"'])

end TypedConsole.Text
