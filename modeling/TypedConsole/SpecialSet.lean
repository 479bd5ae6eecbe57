import TypedConsole.Text.Blank

/-!
# TypedConsole.SpecialSet

The special characters: those that end an unquoted scalar even without a blank. The opening,
closing and separating characters of groups are special, and a set of them only ever grows. The
members are kept in increasing order.
-/

namespace TypedConsole

/-- A set of special characters, in increasing order. -/
structure SpecialSet where
  toList : List Char
deriving DecidableEq, Repr

namespace SpecialSet

/-- Insert into an increasing list of characters. -/
def insertChar (c : Char) : List Char → List Char
  | [] => [c]
  | d :: ds => if c < d then c :: d :: ds else if c = d then d :: ds else d :: insertChar c ds

/-- The set with more characters. -/
def add (s : SpecialSet) (characters : List Char) : SpecialSet :=
  ⟨characters.foldl (fun set c => insertChar c set) s.toList⟩

/-- The characters that are special from the outset. -/
def builtIn : SpecialSet := add ⟨[]⟩ ['[', ']', '(', ')', '\x7b', '\x7d', ',', ':']

/-- The character is special. -/
def contains (s : SpecialSet) (c : Char) : Bool := s.toList.contains c

/-- The character ends an unquoted scalar. -/
def terminates (s : SpecialSet) (c : Char) : Bool := Text.isBlank c || s.contains c

/-- The text stops here or goes on with a character that ends an unquoted scalar. -/
def atTokenEnd (s : SpecialSet) : List Char → Bool
  | [] => true
  | c :: _ => s.terminates c

/-- Membership after an insertion. -/
theorem mem_insertChar {a c : Char} {s : List Char} : a ∈ insertChar c s ↔ a = c ∨ a ∈ s := by
  induction s with
  | nil => simp [insertChar]
  | cons d ds ih => grind [insertChar]

/-- The set with more characters has the old and the new ones. -/
theorem mem_add {s : SpecialSet} {cs : List Char} {a : Char} :
    a ∈ (s.add cs).toList ↔ a ∈ s.toList ∨ a ∈ cs := by
  obtain ⟨l⟩ := s
  simp only [add]
  induction cs generalizing l with
  | nil => simp
  | cons c cs ih => simp [List.foldl_cons, ih, mem_insertChar, or_assoc, or_comm, or_left_comm]

end SpecialSet

end TypedConsole
