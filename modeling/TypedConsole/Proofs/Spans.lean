import TypedConsole.Cursor
import TypedConsole.Reader
import TypedConsole.Number.Decimal
import TypedConsole.Text.Alphabetic
import Mathlib.Data.List.DropRight

/-!
# TypedConsole.Proofs.Spans

Runs of characters at the front of a text: where a run ends when its text is known, what remains
behind blanks, and where a cursor stands after a reader has claimed its characters.

Everything here is proved once so that the readers never redo list arithmetic.
-/

namespace TypedConsole

/-! ## runs -/

/-- A run ends before `t` exactly if it consists of matching characters and `t` does not start
with one. -/
theorem dropWhile_append_eq_right_iff {p : α → Bool} {w t : List α} :
    (w ++ t).dropWhile p = t ↔ (∀ a ∈ w, p a = true) ∧ ∀ a ∈ t.head?, p a = false := by
  induction w with
  | nil =>
      cases t with
      | nil => simp
      | cons a t =>
          cases ha : p a with
          | false => simp [ha]
          | true =>
              have hlt : (t.dropWhile p).length < (a :: t).length := by
                have := (List.dropWhile_suffix (l := t) p).length_le
                rw [List.length_cons]
                omega
              have hne : t.dropWhile p ≠ a :: t := fun h => by rw [h] at hlt; omega
              simp [ha, hne]
  | cons b w ih =>
      cases hb : p b with
      | true => simp [hb, ih]
      | false =>
          have hne : b :: (w ++ t) ≠ t := fun h => by
            have := congrArg List.length h
            simp at this
            omega
          simp [hb, hne]

/-- The run before `t`. -/
theorem takeWhile_append_eq_left {p : α → Bool} {w t : List α} (hw : ∀ a ∈ w, p a = true)
    (ht : ∀ a ∈ t.head?, p a = false) : (w ++ t).takeWhile p = w := by
  rw [List.takeWhile_append_of_pos hw]
  cases t with
  | nil => simp
  | cons a t => simp [ht a rfl]

/-- What follows the run before `t`. -/
theorem dropWhile_append_eq_right {p : α → Bool} {w t : List α} (hw : ∀ a ∈ w, p a = true)
    (ht : ∀ a ∈ t.head?, p a = false) : (w ++ t).dropWhile p = t :=
  dropWhile_append_eq_right_iff.2 ⟨hw, ht⟩

namespace Text

/-! ## blanks -/

/-- All characters are blanks. -/
def Blank (s : List Char) : Prop := ∀ c ∈ s, isBlank c = true

@[simp] theorem blank_nil : Blank [] := fun _ h => absurd h List.not_mem_nil

@[simp] theorem blank_cons {c : Char} {s : List Char} :
    Blank (c :: s) ↔ isBlank c = true ∧ Blank s := by simp [Blank]

theorem Blank.append {b b' : List Char} (hb : Blank b) (hb' : Blank b') : Blank (b ++ b') :=
  fun c hc => (List.mem_append.1 hc).elim (hb c) (hb' c)

/-- Behind the leading blanks stands a character that is none. -/
theorem skipBlanks_eq_cons_iff {s r : List Char} {c : Char} :
    skipBlanks s = c :: r ↔ ∃ b, Blank b ∧ s = b ++ c :: r ∧ isBlank c = false := by
  constructor
  · intro h
    refine ⟨s.takeWhile isBlank, fun _ ha => List.mem_takeWhile_imp ha, ?_,
      isBlank_of_skipBlanks_eq_cons h⟩
    rw [← h, skipBlanks, List.takeWhile_append_dropWhile]
  · intro h
    obtain ⟨b, hb, rfl, hc⟩ := h
    exact dropWhile_append_eq_right hb (by simpa using hc)

/-- A text of blanks has nothing behind them. -/
theorem skipBlanks_eq_nil_iff {s : List Char} : skipBlanks s = [] ↔ Blank s := by
  simp [skipBlanks, Blank, List.dropWhile_eq_nil_iff]

/-- Leading blanks are skipped whatever follows them. -/
theorem skipBlanks_append {b s : List Char} (hb : Blank b) :
    skipBlanks (b ++ s) = skipBlanks s := List.dropWhile_append_of_pos hb

/-- A text without a leading blank stays as it is. -/
theorem skipBlanks_cons {c : Char} {s : List Char} (hc : isBlank c = false) :
    skipBlanks (c :: s) = c :: s := by simp [skipBlanks, hc]

theorem skipBlanks_append_cons {b s : List Char} {c : Char} (hb : Blank b)
    (hc : isBlank c = false) : skipBlanks (b ++ c :: s) = c :: s := by
  rw [skipBlanks_append hb, skipBlanks_cons hc]

theorem skipBlanks_skipBlanks (s : List Char) : skipBlanks (skipBlanks s) = skipBlanks s :=
  List.dropWhile_idempotent _ _

theorem skipBlanks_suffix (s : List Char) : skipBlanks s <:+ s := List.dropWhile_suffix _

@[simp] theorem atBoundary_cons {c : Char} {s : List Char} :
    atBoundary (c :: s) = isBlank c := rfl

@[simp] theorem atBoundary_nil : atBoundary [] = true := rfl

/-- A text that is not at a boundary starts with a character that is no blank. -/
theorem atBoundary_eq_false_iff {s : List Char} :
    atBoundary s = false ↔ ∃ c r, s = c :: r ∧ isBlank c = false := by
  cases s <;> simp

/-- Blanks in front of a text put it at a boundary. -/
theorem atBoundary_append_of_ne_nil {b s : List Char} (hb : Blank b) (hne : b ≠ []) :
    atBoundary (b ++ s) = true := by
  cases b with
  | nil => contradiction
  | cons c b => exact (blank_cons.1 hb).1

/-! ## words -/

theorem head?_of_atBoundary {t : List Char} (ht : atBoundary t = true) :
    ∀ c ∈ t.head?, isBlank c = true := by
  cases t with
  | nil => exact fun c hc => by cases hc
  | cons d t => simpa using ht

/-- A word ends where a blank or nothing follows. -/
theorem leadingWord_append {w t : List Char} (hw : ∀ c ∈ w, isBlank c = false)
    (ht : atBoundary t = true) :
    leadingWord (w ++ t) = w ∧ afterLeadingWord (w ++ t) = t := by
  have hword : ∀ c ∈ w, (!isBlank c) = true := fun c hc => by rw [hw c hc, Bool.not_false]
  have hend : ∀ c ∈ t.head?, (!isBlank c) = false := fun c hc => by
    rw [head?_of_atBoundary ht c hc, Bool.not_true]
  exact ⟨takeWhile_append_eq_left hword hend, dropWhile_append_eq_right hword hend⟩

/-- A text is divided in one way only into a word and what follows it. -/
theorem word_append_inj {w w' t t' : List Char} (hw : ∀ c ∈ w, isBlank c = false)
    (hw' : ∀ c ∈ w', isBlank c = false) (ht : atBoundary t = true) (ht' : atBoundary t' = true)
    (h : w ++ t = w' ++ t') : w = w' ∧ t = t' := by
  obtain ⟨hleading, hafter⟩ := leadingWord_append hw ht
  obtain ⟨hleading', hafter'⟩ := leadingWord_append hw' ht'
  exact ⟨by rw [← hleading, h, hleading'], by rw [← hafter, h, hafter']⟩

theorem splitWord_append {w t : List Char} (hne : w ≠ []) (hw : ∀ c ∈ w, isBlank c = false)
    (ht : atBoundary t = true) : splitWord (w ++ t) = some (w, t) := by
  obtain ⟨hleading, hafter⟩ := leadingWord_append hw ht
  obtain ⟨c, r, rfl⟩ := List.exists_cons_of_ne_nil hne
  rw [List.cons_append] at hleading hafter ⊢
  rw [splitWord, skipBlanks_cons (hw c List.mem_cons_self)]
  simp only [hleading, hafter]

theorem skipBlanks_eq_self {s : List Char} (hs : ∀ c ∈ s, isBlank c = false) :
    skipBlanks s = s := by
  cases s with
  | nil => rfl
  | cons c s => exact skipBlanks_cons (hs c List.mem_cons_self)

/-- A text without blanks is trimmed already. -/
theorem trim_eq_self {s : String} (hs : ∀ c ∈ s.toList, isBlank c = false) : trim s = s := by
  rw [trim, skipBlanks_eq_self hs, dropTrailingBlanks,
    skipBlanks_eq_self fun c hc => hs c (List.mem_reverse.1 hc), List.reverse_reverse,
    String.ofList_toList]

/-! ## letters and digits -/

/-- Classes whose ranges lie apart have no character in common. -/
theorem inRanges_eq_false_of_disjoint {as bs : List (Nat × Nat)} {c : Char}
    (h : (as.all fun a => bs.all fun b => a.2 < b.1 || b.2 < a.1) = true)
    (ha : inRanges as c = true) : inRanges bs c = false := by
  obtain ⟨a, hmem, hac⟩ := List.any_eq_true.1 ha
  simp only [Bool.and_eq_true, decide_eq_true_eq] at hac
  by_contra hb
  rw [Bool.not_eq_false] at hb
  obtain ⟨b, hbmem, hbc⟩ := List.any_eq_true.1 hb
  simp only [Bool.and_eq_true, decide_eq_true_eq] at hbc
  have hapart := List.all_eq_true.1 (List.all_eq_true.1 h a hmem) b hbmem
  simp only [Bool.or_eq_true, decide_eq_true_eq] at hapart
  omega

/-- A letter is no blank. -/
theorem isBlank_of_isAlphabetic {c : Char} (h : isAlphabetic c = true) : isBlank c = false :=
  inRanges_eq_false_of_disjoint (by decide +kernel) h

/-- No blank is a digit. -/
theorem isDigit_of_isBlank {c : Char} (h : isBlank c = true) : Decimal.isDigit c = false := by
  by_contra hd
  have hdigit : inRanges [('0'.toNat, '9'.toNat)] c = true := by
    simpa [inRanges, Decimal.isDigit, Char.le_def, UInt32.le_iff_toNat_le] using hd
  have hne : isBlank c = false := inRanges_eq_false_of_disjoint (by decide) hdigit
  rw [hne] at h
  contradiction

end Text

namespace Cursor

/-! ## cursors -/

theorem rest_start (text : List Char) : (start text).rest = text := List.drop_zero

/-- A cursor that leaves a suffix of what remains stands at that suffix. -/
theorem rest_leaving {c : Cursor} {t : List Char} (h : t <:+ c.rest) : (c.leaving t).rest = t := by
  obtain ⟨w, hw⟩ := h
  have hsuffix : t <:+ c.text := ⟨c.text.take c.offset ++ w, by
    rw [List.append_assoc, hw, rest, List.take_append_drop]⟩
  obtain ⟨u, hu⟩ := hsuffix
  change c.text.drop (c.text.length - t.length) = t
  rw [← hu]
  simp

@[simp] theorem rest_advance (c : Cursor) (k : Nat) : (c.advance k).rest = c.rest.drop k := by
  change c.text.drop (min (c.offset + k) c.text.length) = (c.text.drop c.offset).drop k
  rw [List.drop_drop]
  rcases Nat.le_total (c.offset + k) c.text.length with h | h
  · rw [Nat.min_eq_left h]
  · rw [Nat.min_eq_right h, List.drop_of_length_le (Nat.le_refl _), List.drop_of_length_le h]

/-- Claiming one character leaves the others. -/
theorem rest_advance_one {c : Cursor} {a : Char} {r : List Char} (h : c.rest = a :: r) :
    (c.advance 1).rest = r := by
  rw [rest_advance, h]
  rfl

@[simp] theorem rest_skipBlanks (c : Cursor) : c.skipBlanks.rest = Text.skipBlanks c.rest :=
  rest_leaving (Text.skipBlanks_suffix _)

/-- Behind leading blanks there are none to skip. -/
theorem skipBlanks_skipBlanks (c : Cursor) : c.skipBlanks.skipBlanks = c.skipBlanks := by
  change c.leaving (Text.skipBlanks c.skipBlanks.rest) = c.leaving (Text.skipBlanks c.rest)
  rw [rest_skipBlanks, Text.skipBlanks_skipBlanks]

/-- The cursor is at the end if nothing remains. -/
theorem atEnd_iff {c : Cursor} : c.atEnd = true ↔ c.rest = [] := by
  rw [atEnd, beq_iff_eq, ← length_rest, List.length_eq_zero_iff]

/-- The offset and what remains make up the text. -/
theorem offset_add_length_rest (c : Cursor) : c.offset + c.rest.length = c.text.length := by
  have := c.offset_le
  rw [length_rest, remaining]
  omega

end Cursor

end TypedConsole
