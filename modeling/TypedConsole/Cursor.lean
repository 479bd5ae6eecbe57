import TypedConsole.Text.Blank

/-!
# TypedConsole.Cursor

A place in a line of text. A cursor keeps the whole text and the number of characters before the
place; what remains is the text from there on. Characters are only ever claimed from the front of
the remainder, so the offset never decreases and never passes the end.
-/

namespace TypedConsole

/-- A text and an offset into it. -/
structure Cursor where
  text : List Char
  offset : Nat
  offset_le : offset ≤ text.length
deriving DecidableEq

/-- An access beyond the remaining text. -/
inductive CursorError
  /-- A character was asked for behind the end. -/
  | index (index length : Nat)
  /-- More characters were claimed than remain. -/
  | range (count length : Nat)
deriving DecidableEq, Repr

/-- The wording of the error. -/
def CursorError.message : CursorError → String
  | index i n => s!"Index {i} is outside the remaining input of length {n}."
  | range k n => s!"Cannot claim {k} characters from the remaining input of length {n}."

namespace Cursor

/-- The start of a text. -/
def start (text : List Char) : Cursor := ⟨text, 0, Nat.zero_le _⟩

/-- The start of a text. -/
def ofString (text : String) : Cursor := start text.toList

/-- The text that has not been claimed. -/
def rest (c : Cursor) : List Char := c.text.drop c.offset

/-- The number of characters that remain. -/
def remaining (c : Cursor) : Nat := c.text.length - c.offset

/-- Nothing remains. -/
def atEnd (c : Cursor) : Bool := c.remaining == 0

/-- Nothing remains or a blank comes next. -/
def atBoundary (c : Cursor) : Bool := Text.atBoundary c.rest

/-! ## looking -/

/-- The number of positions that an index can address. -/
def addressSpace : Nat := Nat.pow 2 64

/-- The position `index` places ahead, if it can be addressed. -/
def position? (c : Cursor) (index : Nat) : Option Nat :=
  if c.offset + index < addressSpace then some (c.offset + index) else none

/-- The character `index` places ahead, if there is one. A look at a position that cannot be
addressed has no answer: the sum overflows and the program stops. -/
def peek (c : Cursor) (index : Nat) : Option (Option Char) :=
  (c.position? index).map fun position => c.text[position]?

/-- The character `index` places ahead, or the error that there is none. -/
def at? (c : Cursor) (index : Nat) : Option (Except CursorError Char) :=
  (c.peek index).map fun
    | some character => .ok character
    | none => .error (.index index c.remaining)

/-- The remaining text begins with `literal`. -/
def startsWith (c : Cursor) (literal : List Char) : Bool := literal.isPrefixOf c.rest

/-! ## claiming -/

/-- Claim `count` characters, or all of a shorter remainder. -/
def advance (c : Cursor) (count : Nat) : Cursor :=
  ⟨c.text, min (c.offset + count) c.text.length, Nat.min_le_right _ _⟩

/-- Claim exactly `count` characters. -/
def claim (c : Cursor) (count : Nat) : Except CursorError Cursor :=
  if h : c.offset + count ≤ c.text.length then .ok ⟨c.text, c.offset + count, h⟩
  else .error (.range count c.remaining)

/-- Claim one character. -/
def next (c : Cursor) : Option Char × Cursor := (c.rest.head?, c.advance 1)

/-- The place at which `r` is all that remains. -/
def leaving (c : Cursor) (r : List Char) : Cursor :=
  ⟨c.text, c.text.length - r.length, Nat.sub_le _ _⟩

/-- Claim the blanks that come first. -/
def skipBlanks (c : Cursor) : Cursor := c.leaving (Text.skipBlanks c.rest)

/-! ## lengths -/

@[simp] theorem length_rest (c : Cursor) : c.rest.length = c.remaining := by
  simp [rest, remaining]

theorem remaining_advance (c : Cursor) (k : Nat) :
    (c.advance k).remaining = c.remaining - k := by
  have := c.offset_le
  simp only [remaining, advance]
  omega

end Cursor

end TypedConsole
