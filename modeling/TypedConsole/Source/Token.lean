/-!
# TypedConsole.Source.Token

Source text of the Rust language as token trees: names, punctuation characters, literals and
groups in delimiters. Token trees have two written forms. The display form is the one that
messages quote: tokens separated by a space, except that nothing separates a punctuation character
from the one it is joined to. The spaced form puts a space between any two tokens and has every
delimiter as a token of its own.
-/

namespace TypedConsole.Source

/-- What encloses a group. -/
inductive Delimiter
  | parentheses
  | brackets
  | braces
deriving DecidableEq, Repr

namespace Delimiter

/-- The character that opens the group. -/
def opening : Delimiter → Char
  | parentheses => '('
  | brackets => '['
  | braces => '\x7b'

/-- The character that closes the group. -/
def closing : Delimiter → Char
  | parentheses => ')'
  | brackets => ']'
  | braces => '\x7d'

end Delimiter

/-- A token, or a group of them in delimiters. -/
inductive TokenTree
  | name (text : String)
  /-- A punctuation character, which may be joined to what follows it: `:` and `:` are then one
  operator `::`, and `'` and `a` one lifetime `'a`. -/
  | punctuation (character : Char) (joined : Bool)
  | literal (text : String)
  | group (delimiter : Delimiter) (content : List TokenTree)
deriving Repr

/-- A piece of source text. -/
abbrev Tokens := List TokenTree

/-! ## the display form -/

/-- A text in the delimiters. Braces keep a space on their inner sides. -/
def Delimiter.enclose (d : Delimiter) (inner : String) : String :=
  let padded := match d with
    | .braces => if inner.isEmpty then " " else " " ++ inner ++ " "
    | _ => inner
  d.opening.toString ++ padded ++ d.closing.toString

mutual
/-- The display form of a tree. -/
def TokenTree.display : TokenTree → String
  | .name text | .literal text => text
  | .punctuation character _ => character.toString
  | .group delimiter content => delimiter.enclose (displayAll content)

/-- The display form of a list of trees. -/
def displayAll : List TokenTree → String
  | [] => ""
  | [t] => t.display
  | t :: rest =>
    match t with
    | .punctuation character true => character.toString ++ displayAll rest
    | t => t.display ++ " " ++ displayAll rest
end

/-- The display form. -/
def Tokens.display (ts : Tokens) : String := displayAll ts

/-! ## the spaced form -/

mutual
/-- The tokens of a tree, delimiters included, as texts. -/
def TokenTree.texts : TokenTree → List String
  | .name text | .literal text => [text]
  | .punctuation character _ => [character.toString]
  | .group delimiter content =>
    delimiter.opening.toString :: (textsOfAll content ++ [delimiter.closing.toString])

/-- The tokens of a list of trees, delimiters included, as texts. -/
def textsOfAll : List TokenTree → List String
  | [] => []
  | t :: rest => t.texts ++ textsOfAll rest
end

/-- The tokens, delimiters included, as texts. -/
def Tokens.texts (ts : Tokens) : List String := textsOfAll ts

/-- The spaced form. -/
def Tokens.spaced (ts : Tokens) : String := " ".intercalate (Tokens.texts ts)

/-! ## size -/

mutual
/-- The number of tokens in a tree. A group counts as one more than its content. -/
def TokenTree.size : TokenTree → Nat
  | .group _ content => sizeOfAll content + 1
  | _ => 1

/-- The number of tokens in a list of trees. -/
def sizeOfAll : List TokenTree → Nat
  | [] => 0
  | t :: rest => t.size + sizeOfAll rest
end

/-- The number of tokens. -/
def Tokens.size (ts : Tokens) : Nat := sizeOfAll ts

end TypedConsole.Source
