import TypedConsole.Source.Token
import TypedConsole.Source.Literal
import TypedConsole.Text.Blank
import TypedConsole.Text.Quoted

/-!
# TypedConsole.Source.Lexer

From characters to token trees. A text is cut into lexemes from its front; blanks and plain
comments give none, and a documentation comment gives the attribute that it abbreviates. The
lexemes are then nested by their delimiters. A text that is cut nowhere wrong and whose delimiters
match is a piece of source text.
-/

namespace TypedConsole.Source

/-- A piece of the text, before delimiters are matched. -/
inductive Lexeme
  | tree (t : TokenTree)
  | opening (d : Delimiter)
  | closing (d : Delimiter)
deriving Repr

/-! ## comments -/

/-- What follows a block comment that is open `depth` times. Block comments nest. -/
def afterBlockComment (depth : Nat) : List Char → Option (List Char)
  | '/' :: '*' :: r => afterBlockComment (depth + 1) r
  | '*' :: '/' :: r => if depth ≤ 1 then some r else afterBlockComment (depth - 1) r
  | _ :: r => afterBlockComment depth r
  | [] => none

/-- The rest of a line, and what follows it. A return before the line feed belongs to neither. -/
def splitLine : List Char → List Char × List Char
  | '\n' :: r => ([], '\n' :: r)
  | '\r' :: '\n' :: r => ([], '\n' :: r)
  | c :: r => (c :: (splitLine r).1, (splitLine r).2)
  | [] => ([], [])

/-- Every return is followed by a line feed. -/
def returnsInPairs : List Char → Bool
  | '\r' :: '\n' :: r => returnsInPairs r
  | '\r' :: _ => false
  | _ :: r => returnsInPairs r
  | [] => true

/-- The string literal with the value `text`. -/
def TokenTree.string (text : String) : TokenTree := .literal (Text.quotedText text)

/-- A documentation comment as an attribute. An inner one describes what it stands in. -/
def documentation (inner : Bool) (text : List Char) : List Lexeme :=
  .tree (.punctuation '#' false) ::
    ((if inner then [.tree (.punctuation '!' false)] else []) ++
      [.tree (.group .brackets
        [.name "doc", .punctuation '=' false, TokenTree.string (String.ofList text)])])

/-- The lexemes of a documentation comment with the given text, before what follows it. -/
def documentationBefore (inner : Bool) (text rest : List Char) :
    Option (List Lexeme × List Char) :=
  if returnsInPairs text then some (documentation inner text, rest) else none

/-- The lexemes of a block comment that describes something. -/
def documentationBlock (inner : Bool) (s : List Char) : Option (List Lexeme × List Char) := do
  let r ← afterBlockComment 1 s
  documentationBefore inner (s.take (s.length - r.length - 2)) r

/-- The lexemes of the comment at the front of a text. -/
def readComment : List Char → Option (List Lexeme × List Char)
  | '/' :: '/' :: '/' :: '/' :: r => some ([], (splitLine r).2)
  | '/' :: '/' :: '/' :: r => documentationBefore false (splitLine r).1 (splitLine r).2
  | '/' :: '/' :: '!' :: r => documentationBefore true (splitLine r).1 (splitLine r).2
  | '/' :: '/' :: r => some ([], (splitLine r).2)
  | '/' :: '*' :: '!' :: r => documentationBlock true r
  | '/' :: '*' :: '*' :: '/' :: r => some ([], r)
  | '/' :: '*' :: '*' :: '*' :: r => (afterBlockComment 1 ('*' :: '*' :: r)).map ([], ·)
  | '/' :: '*' :: '*' :: r => documentationBlock false r
  | '/' :: '*' :: r => (afterBlockComment 1 r).map ([], ·)
  | _ => none

/-- A comment starts here. -/
def opensComment : List Char → Bool
  | '/' :: '/' :: _ | '/' :: '*' :: _ => true
  | _ => false

/-! ## names and punctuation -/

/-- The beginnings of quoted and raw strings. No name starts like this. -/
def quotedBeginnings : List String :=
  ["r\"", "r#\"", "r##", "b\"", "b'", "br\"", "br#", "c\"", "cr\"", "cr#"]

/-- The names that cannot be written raw. -/
def neverRaw : List String := ["_", "super", "self", "Self", "crate"]

/-- A name, possibly raw, and what follows it. -/
def readName : List Char → Option (String × List Char)
  | 'r' :: '#' :: r => do
    let (word, t) ← splitName r
    let text := String.ofList word
    if neverRaw.contains text then none else some ("r#" ++ text, t)
  | s => (splitName s).map fun (word, t) => (String.ofList word, t)

/-- The characters that are punctuation. -/
def punctuationCharacters : List Char := "~!@#$%^&*-=+|;:,<.>/?'".toList

/-- Punctuation comes next, and not a comment. -/
def opensPunctuation (s : List Char) : Bool :=
  !opensComment s && s.head?.any punctuationCharacters.contains

/-- An apostrophe starts a lifetime if a name follows it and no other apostrophe does. -/
def opensLifetime (s : List Char) : Bool :=
  match readName s with
  | none => false
  | some (_, '\'' :: _) => false
  | some (_, '#' :: _) => ['r', '#'].isPrefixOf s
  | some _ => true

/-- A punctuation character and what follows it. -/
def readPunctuation (s : List Char) : Option (TokenTree × List Char) :=
  match s with
  | [] => none
  | c :: r =>
    if !opensPunctuation s then none
    else if c == '\'' then
      if opensLifetime r then some (.punctuation c true, r) else none
    else some (.punctuation c (opensPunctuation r), r)

/-! ## lexemes -/

/-- The delimiter lexeme that a character is. -/
def delimiter? : Char → Option Lexeme
  | '(' => some (.opening .parentheses)
  | ')' => some (.closing .parentheses)
  | '[' => some (.opening .brackets)
  | ']' => some (.closing .brackets)
  | '\x7b' => some (.opening .braces)
  | '\x7d' => some (.closing .braces)
  | _ => none

/-- The text that stands for a literal that could not be read. It is a literal itself. -/
def unreadable : List Char := "(/*ERROR*/)".toList

/-- A token that is no delimiter, and what follows it. -/
def readLeaf (s : List Char) : Option (TokenTree × List Char) :=
  match literalEnd s with
  | some r => some (.literal (String.ofList (s.take (s.length - r.length))), r)
  | none =>
    match readPunctuation s with
    | some found => some found
    | none =>
      if quotedBeginnings.any fun b => b.toList.isPrefixOf s then none
      else (readName s).map fun (text, r) => (.name text, r)

/-- The marks of writing direction count as blanks. -/
def isSourceBlank (c : Char) : Bool :=
  Text.isBlank c || c == Char.ofNat 0x200E || c == Char.ofNat 0x200F

/-- The lexemes at the front of a text, and what follows them. -/
def readLexemes (s : List Char) : Option (List Lexeme × List Char) :=
  match s with
  | [] => none
  | c :: r =>
    if isSourceBlank c then some ([], r)
    else if opensComment s then readComment s
    else if unreadable.isPrefixOf s then
      some ([.tree (.literal (String.ofList unreadable))], s.drop unreadable.length)
    else
      match delimiter? c with
      | some lexeme => some ([lexeme], r)
      | none => (readLeaf s).map fun (t, r) => ([.tree t], r)

/-- The lexemes of a whole text. -/
def lexemes (s : List Char) : Option (List Lexeme) :=
  match s with
  | [] => some []
  | c :: r =>
    match readLexemes (c :: r) with
    | none => none
    | some (found, t) =>
      if t.length < (c :: r).length then (lexemes t).map (found ++ ·) else none
termination_by s.length
decreasing_by assumption

/-! ## nesting -/

/-- The trees of lexemes, where `current` holds the trees of the innermost open group, last first,
and `outer` those of the groups around it. -/
def nest (current : Tokens) (outer : List (Delimiter × Tokens)) : List Lexeme → Option Tokens
  | [] => if outer.isEmpty then some current.reverse else none
  | .tree t :: rest => nest (t :: current) outer rest
  | .opening d :: rest => nest [] ((d, current) :: outer) rest
  | .closing d :: rest =>
    match outer with
    | (e, around) :: outer =>
      if d = e then nest (.group d current.reverse :: around) outer rest else none
    | [] => none

/-- The trees of a source text, which may start with a byte order mark. -/
def Tokens.ofString? (text : String) : Option Tokens :=
  let s := match text.toList with
    | c :: r => if c == Char.ofNat 0xFEFF then r else c :: r
    | [] => []
  (lexemes s).bind (nest [] [])

end TypedConsole.Source
