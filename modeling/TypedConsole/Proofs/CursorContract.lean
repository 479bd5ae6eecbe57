import TypedConsole.Proofs.Spans

/-!
# TypedConsole.Proofs.CursorContract

What readers may rely on in a cursor, whatever was done with it before.

A cursor is used by calls: claims, with or without success, and looks.  No call changes the text
(`Operation.text_apply`), so after any number of them the cursor is a place in the text that it was
started with, and everything else follows from the place (`Cursor.keeps`): what remains, where a
claim leads and when it fails, and what a look shows.

A look at a position that can be addressed shows what stands there or that nothing does.  The sum of
the offset and an index can pass the last address, and a look there has no answer: the program stops
(`Keeps.stops`).
-/

namespace TypedConsole.Cursor

open Text (Blank isBlank)

/-! ## calls -/

/-- A call on a cursor. -/
inductive Operation
  | claim (count : Nat)
  | next
  | skipBlanks
  | peek (index : Nat)
  | character (index : Nat)
  | startsWith (literal : List Char)

/-- The cursor after the call.  Looks leave it as it is, also the one that stops the program, for a
caller that goes on from there; and so does a claim that fails. -/
def Operation.apply (c : Cursor) : Operation → Cursor
  | claim count =>
    match c.claim count with
    | .ok c' => c'
    | .error _ => c
  | next => c.next.2
  | skipBlanks => c.skipBlanks
  | peek _ | character _ | startsWith _ => c

/-- The cursor after calls from the start of a text on. -/
def after (text : List Char) (operations : List Operation) : Cursor :=
  operations.foldl Operation.apply (start text)

/-! ## single calls -/

variable {c : Cursor} {i n : Nat}

theorem offset_add_remaining (c : Cursor) : c.offset + c.remaining = c.text.length := by
  rw [← length_rest, offset_add_length_rest]

/-- A claim of what remains leads on by as much. -/
theorem claim_eq_ok (h : n ≤ c.remaining) :
    ∃ c', c.claim n = .ok c' ∧ c'.text = c.text ∧ c'.offset = c.offset + n := by
  have hle : c.offset + n ≤ c.text.length := by
    have := offset_add_remaining c
    omega
  exact ⟨⟨c.text, c.offset + n, hle⟩, by rw [claim, dif_pos hle], rfl, rfl⟩

/-- A claim of more than remains fails. -/
theorem claim_eq_error (h : c.remaining < n) : c.claim n = .error (.range n c.remaining) := by
  have hlt : ¬ c.offset + n ≤ c.text.length := by
    have := offset_add_remaining c
    omega
  rw [claim, dif_neg hlt]

/-- A call stays in its text. -/
theorem Operation.text_apply (c : Cursor) (operation : Operation) :
    (operation.apply c).text = c.text := by
  cases operation with
  | claim n =>
      rcases Nat.lt_or_ge c.remaining n with h | h
      · simp only [apply, claim_eq_error h]
      · obtain ⟨c', hclaim, htext, -⟩ := claim_eq_ok h
        simp only [apply, hclaim, htext]
  | next | skipBlanks | peek | character | startsWith => rfl

/-- And so do any number of calls. -/
theorem text_after (text : List Char) (operations : List Operation) :
    (after text operations).text = text := by
  have hfold (c : Cursor) : (operations.foldl Operation.apply c).text = c.text := by
    induction operations generalizing c with
    | nil => rfl
    | cons operation operations ih =>
        rw [List.foldl_cons, ih, Operation.text_apply]
  exact hfold (start text)

/-! ## looks -/

/-- Where the position can be addressed, a look shows what is there. -/
theorem peek_eq (h : c.offset + i < addressSpace) : c.peek i = some c.text[c.offset + i]? := by
  simp only [peek, position?, if_pos h, Option.map_some]

/-- Where it cannot, there is no answer. -/
theorem peek_eq_none (h : addressSpace ≤ c.offset + i) : c.peek i = none := by
  simp only [peek, position?, if_neg (Nat.not_lt.2 h), Option.map_none]

theorem at?_eq_ok {a : Char} (h : c.peek i = some (some a)) : c.at? i = some (.ok a) := by
  simp only [at?, h, Option.map_some]

theorem at?_eq_error (h : c.peek i = some none) :
    c.at? i = some (.error (.index i c.remaining)) := by
  simp only [at?, h, Option.map_some]

/-! ## the contract -/

/-- What holds of a cursor in a text. -/
structure Keeps (c : Cursor) (text : List Char) : Prop where
  /-- What is before the cursor and what remains make up the text. -/
  offset_add_remaining : c.offset + c.remaining = text.length
  rest_eq : c.rest = text.drop c.offset
  /-- A look at what remains shows the character there. -/
  within : ∀ i, c.offset + i < addressSpace → i < c.remaining →
    ∃ a, text[c.offset + i]? = some a ∧ c.peek i = some (some a) ∧ c.at? i = some (.ok a)
  /-- A look beyond it shows that there is nothing. -/
  beyond : ∀ i, c.offset + i < addressSpace → c.remaining ≤ i →
    c.peek i = some none ∧ c.at? i = some (.error (.index i c.remaining))
  /-- A look beyond the last address stops the program. -/
  stops : ∀ i, addressSpace ≤ c.offset + i → c.peek i = none ∧ c.at? i = none
  /-- What remains can be claimed. -/
  claims : ∀ n ≤ c.remaining,
    ∃ c', c.claim n = .ok c' ∧ c'.text = text ∧ c'.offset = c.offset + n
  /-- More than remains cannot, and the attempt changes nothing. -/
  refuses : ∀ n, c.remaining < n →
    c.claim n = .error (.range n c.remaining) ∧ (Operation.claim n).apply c = c
  /-- One character is claimed, if there is one. -/
  next_eq : c.next.1 = c.rest.head? ∧ c.next.2.rest = c.rest.tail
  startsWith_iff : ∀ literal, c.startsWith literal = true ↔ literal <+: c.rest
  /-- The longest run of blanks is claimed. -/
  skipBlanks_eq : ∃ b, Blank b ∧ c.rest = b ++ c.skipBlanks.rest
    ∧ ∀ a ∈ c.skipBlanks.rest.head?, isBlank a = false

/-- Every cursor keeps the contract. -/
theorem keeps (c : Cursor) : c.Keeps c.text where
  offset_add_remaining := c.offset_add_remaining
  rest_eq := rfl
  within i haddress hi := by
    have hlt : c.offset + i < c.text.length := by
      have := offset_add_remaining c
      omega
    have hpeek : c.peek i = some (some c.text[c.offset + i]) := by
      rw [peek_eq haddress, List.getElem?_eq_getElem hlt]
    exact ⟨_, List.getElem?_eq_getElem hlt, hpeek, at?_eq_ok hpeek⟩
  beyond i haddress hi := by
    have hle : c.text.length ≤ c.offset + i := by
      have := offset_add_remaining c
      omega
    have hpeek : c.peek i = some none := by rw [peek_eq haddress, List.getElem?_eq_none hle]
    exact ⟨hpeek, at?_eq_error hpeek⟩
  stops i haddress := by
    have hpeek := peek_eq_none haddress
    exact ⟨hpeek, by rw [at?, hpeek, Option.map_none]⟩
  claims n hn := claim_eq_ok hn
  refuses n hn := ⟨claim_eq_error hn, by simp only [Operation.apply, claim_eq_error hn]⟩
  next_eq := ⟨rfl, by rw [next, rest_advance, List.drop_one]⟩
  startsWith_iff literal := List.isPrefixOf_iff_prefix
  skipBlanks_eq := by
    refine ⟨c.rest.takeWhile isBlank, fun a ha => List.mem_takeWhile_imp ha, ?_, ?_⟩
    · rw [rest_skipBlanks, Text.skipBlanks, List.takeWhile_append_dropWhile]
    · intro a ha
      obtain ⟨r, hr⟩ := List.head?_eq_some_iff.1 ha
      rw [rest_skipBlanks] at hr
      exact Text.isBlank_of_skipBlanks_eq_cons hr

/-- **The contract of the cursor** holds after any sequence of calls. -/
theorem keeps_after (text : List Char) (operations : List Operation) :
    (after text operations).Keeps text := by
  have h := keeps (after text operations)
  rwa [text_after] at h

/-- Not every look beyond what remains shows that there is nothing: behind the first of two
characters, the last index stops the program. -/
theorem not_forall_peek_beyond_remaining :
    ¬ ∀ (text : List Char) (operations : List Operation) (i : Nat), i < addressSpace →
      (after text operations).remaining ≤ i →
      (after text operations).peek i = some none
        ∧ (after text operations).at? i
          = some (.error (.index i (after text operations).remaining)) := by
  intro h
  have hpeek : (after ['a', 'b'] [.claim 1]).peek (addressSpace - 1) = none := by decide
  have hnone := (h ['a', 'b'] [.claim 1] (addressSpace - 1) (by decide) (by decide)).1
  rw [hpeek] at hnone
  cases hnone

end TypedConsole.Cursor
