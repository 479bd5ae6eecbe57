import TypedConsole.Proofs.IntegerLiterals
import TypedConsole.Proofs.Lookahead
import TypedConsole.Proofs.Nearest

/-!
# TypedConsole.Proofs.FloatLiterals

Which texts are floating point numbers, and which numbers they are.  `IsFixedPoint` says, without
the reader, which rational a text writes: digits with at most one point among them, of any length
on either side, where the digits behind the point count fractions.  The reader of a format accepts
exactly these texts, with a sign or none in front and up to the end of a token, as long as the
rational is not too great for the format.  It reads them as the number of the format that the
rational is rounded to, `FloatType.Rounds`.
-/

namespace TypedConsole

/-! ## fixed point texts -/

namespace Decimal

/-- Digits in front of others count for more. -/
theorem number_append (a b : List Char) :
    number (a ++ b) = number a * 10 ^ b.length + number b := by
  simp only [number, List.reverse_append, List.map_append, Nat.ofDigits_append, List.length_map,
    List.length_reverse]
  ring

/-- The number with a point in front of its last digits. -/
theorem number_append_div (a b : List Char) :
    ((number (a ++ b) : Nat) : ℚ) / 10 ^ b.length = number a + number b / 10 ^ b.length := by
  rw [number_append]
  push_cast
  rw [add_div, mul_div_cancel_right₀ _ (by positivity)]

end Decimal

open Decimal in
/-- `IsFixedPoint m w`: the text `w` writes the rational `m` with digits, at least one, and perhaps
a point in front of them, among them or behind them. -/
inductive IsFixedPoint : ℚ → List Char → Prop
  | whole (hne : digits ≠ []) (hd : ∀ c ∈ digits, isDigit c = true) :
      IsFixedPoint (number digits) digits
  | point (hne : whole ++ fraction ≠ []) (hd : ∀ c ∈ whole ++ fraction, isDigit c = true) :
      IsFixedPoint (number whole + number fraction / 10 ^ fraction.length)
        (whole ++ '.' :: fraction)

/-- The same with a sign or none in front.  A minus says that the rational is `negative`, even if it
is zero. -/
inductive IsSignedFixedPoint : Bool → ℚ → List Char → Prop
  | plain (h : IsFixedPoint m w) : IsSignedFixedPoint false m w
  | plus (h : IsFixedPoint m w) : IsSignedFixedPoint false m ('+' :: w)
  | minus (h : IsFixedPoint m w) : IsSignedFixedPoint true m ('-' :: w)

/-- The text `w` stops in front of `t` because it cannot go on: what follows is no digit, and it is
no point unless there has been one. -/
def StopsBefore (w t : List Char) : Prop :=
  ∀ c ∈ t.head?, Decimal.isDigit c = false ∧ (c = '.' → '.' ∈ w)

/-! ## reading them -/

namespace Reader

open Decimal (number)

variable {type : FloatType} {special : SpecialSet} {s t w : List Char} {m : ℚ} {negative : Bool}

/-- What is cut off as a decimal with a digit is a fixed point text that cannot go on. -/
theorem isFixedPoint_of_decimal {whole fraction : List Char} (h : decimal s = (whole, fraction, t))
    (hne : whole ++ fraction ≠ []) :
    ∃ w, s = w ++ t ∧ IsFixedPoint (number (whole ++ fraction) / 10 ^ fraction.length) w ∧
      StopsBefore w t := by
  have hsplit := (List.takeWhile_append_dropWhile (p := Decimal.isDigit) (l := s)).symm
  have hdigits : ∀ u : List Char, ∀ c ∈ u.takeWhile Decimal.isDigit, Decimal.isDigit c = true :=
    fun u c hc => List.mem_takeWhile_imp hc
  have hrest : ∀ u : List Char, ∀ c ∈ (u.dropWhile Decimal.isDigit).head?,
      Decimal.isDigit c = false := fun u c hc => by
    have := List.head?_dropWhile_not Decimal.isDigit u
    rw [Option.mem_def.1 hc] at this
    simpa using this
  simp only [decimal] at h
  rw [Decimal.number_append_div]
  split at h
  · next r hr =>
      cases h
      refine ⟨_, ?_, .point hne fun c hc => ?_, fun c hc => ⟨hrest r c hc, fun _ => by simp⟩⟩
      · rw [List.append_assoc, List.cons_append, List.takeWhile_append_dropWhile, ← hr]
        exact hsplit
      · exact (List.mem_append.1 hc).elim (hdigits s c) (hdigits r c)
  · next hpoint =>
      cases h
      rw [List.append_nil] at hne
      refine ⟨_, hsplit, ?_, fun c hc => ⟨hrest s c hc, fun hc' => ?_⟩⟩
      · have hzero : ((number [] : Nat) : ℚ) / 10 ^ ([] : List Char).length = 0 := by simp [number]
        rw [hzero, add_zero]
        exact .whole hne (hdigits s)
      · subst hc'
        obtain ⟨r, hr⟩ := List.head?_eq_some_iff.1 (Option.mem_def.1 hc)
        exact absurd hr (hpoint r)

/-- A fixed point text that cannot go on is cut off as a decimal. -/
theorem decimal_of_isFixedPoint (h : IsFixedPoint m w) (hstop : StopsBefore w t) :
    ∃ whole fraction, decimal (w ++ t) = (whole, fraction, t) ∧ whole ++ fraction ≠ [] ∧
      m = number (whole ++ fraction) / 10 ^ fraction.length := by
  cases h with
  | whole hne hd =>
      refine ⟨w, [], decimal_of_whole hd fun c hc => ⟨(hstop c hc).1, fun hc' => ?_⟩, by simpa,
        by simp⟩
      exact absurd (hd '.' ((hstop c hc).2 hc')) (by decide)
  | @point whole fraction hne hd =>
      have hwhole : ∀ c ∈ whole, Decimal.isDigit c = true := fun c hc =>
        hd c (List.mem_append_left _ hc)
      have hfraction : ∀ c ∈ fraction, Decimal.isDigit c = true := fun c hc =>
        hd c (List.mem_append_right _ hc)
      refine ⟨whole, fraction, ?_, hne, (Decimal.number_append_div _ _).symm⟩
      rw [List.append_assoc, List.cons_append, decimal_of_point hwhole,
        takeWhile_append_eq_left hfraction fun c hc => (hstop c hc).1,
        dropWhile_append_eq_right hfraction fun c hc => (hstop c hc).1]

/-- A fixed point text has no sign in front. -/
theorem sign_isFixedPoint (h : IsFixedPoint m w) (t : List Char) :
    sign (w ++ t) = (none, w ++ t) := by
  cases h with
  | whole hne hd => exact sign_digits hne hd t
  | @point whole fraction _ hd =>
      cases whole with
      | nil => rfl
      | cons c whole =>
          rw [List.append_assoc]
          exact sign_digits (List.cons_ne_nil c whole)
            (fun d hd' => hd d (List.mem_append_left _ hd')) _

theorem sign_cases (s : List Char) :
    sign s = (none, s) ∨ ∃ c r, (c = '+' ∨ c = '-') ∧ s = c :: r ∧ sign s = (some c, r) := by
  cases s with
  | nil => exact .inl rfl
  | cons c r =>
      by_cases hc : c = '+' ∨ c = '-'
      · exact .inr ⟨c, r, hc, rfl, by simp [sign, hc]⟩
      · exact .inl (by simp [sign, hc])

/-- What stands behind the sign is a fixed point text. -/
theorem isSignedFixedPoint_append_iff :
    (∃ w, s = w ++ t ∧ IsSignedFixedPoint negative m w ∧ StopsBefore w t) ↔
      negative = decide ((sign s).1 = some '-') ∧
        ∃ w, (sign s).2 = w ++ t ∧ IsFixedPoint m w ∧ StopsBefore w t := by
  have hsign : ∀ {c w}, c ≠ '.' → (StopsBefore (c :: w) t ↔ StopsBefore w t) := fun {c w} hc => by
    simp only [StopsBefore, List.mem_cons, hc.symm, false_or]
  constructor
  · rintro ⟨w, rfl, hw, hstop⟩
    cases hw with
    | plain hw =>
        rw [sign_isFixedPoint hw]
        exact ⟨rfl, w, rfl, hw, hstop⟩
    | plus hw => exact ⟨rfl, _, rfl, hw, (hsign (by decide)).1 hstop⟩
    | minus hw => exact ⟨rfl, _, rfl, hw, (hsign (by decide)).1 hstop⟩
  · rintro ⟨rfl, w, hs, hw, hstop⟩
    rcases sign_cases s with hnone | ⟨c, r, hc, rfl, hsome⟩
    · rw [hnone] at hs ⊢
      exact ⟨w, hs, .plain hw, hstop⟩
    · rw [hsome] at hs ⊢
      subst hs
      refine ⟨c :: w, rfl, ?_, ?_⟩
      · rcases hc with rfl | rfl
        · exact .plus hw
        · exact .minus hw
      · rcases hc with rfl | rfl <;> exact (hsign (by decide)).2 hstop

/-- The reader accepts signed fixed point texts of rationals that are not too great, and reads what
these are rounded to. -/
theorem float_eq_some_iff {x : BinaryFloat} :
    float type special s = (some x, t) ↔
      ∃ negative m w, s = w ++ t ∧ IsSignedFixedPoint negative m w ∧ StopsBefore w t ∧
        special.atTokenEnd t = true ∧ m < type.overflow ∧ type.Rounds negative m x := by
  have hvalue : ∀ whole fraction : List Char,
      floatValue type (sign s).1 whole fraction = some x ↔
        (number (whole ++ fraction) / 10 ^ fraction.length : ℚ) < type.overflow ∧
          type.Rounds (decide ((sign s).1 = some '-'))
            (number (whole ++ fraction) / 10 ^ fraction.length) x := fun whole fraction => by
    rw [floatValue, Decimal.value_eq_number, Nat.pow_eq,
      FloatType.round_eq_some_iff (by positivity)]
    push_cast
    rfl
  constructor
  · intro h
    rcases hdecimal : decimal (sign s).2 with ⟨whole, fraction, u⟩
    simp only [float, hdecimal] at h
    split at h
    · cases h
    · next hend =>
        obtain ⟨hx, rfl⟩ := Prod.mk.inj h
        simp only [Bool.or_eq_true, Bool.not_eq_true', List.isEmpty_iff, not_or,
          Bool.not_eq_false] at hend
        obtain ⟨w, hs, hw, hstop⟩ := isFixedPoint_of_decimal hdecimal hend.1
        obtain ⟨w, hs, hw, hstop⟩ := isSignedFixedPoint_append_iff.2 ⟨rfl, w, hs, hw, hstop⟩
        obtain ⟨hm, hx⟩ := (hvalue whole fraction).1 hx
        exact ⟨_, _, w, hs, hw, hstop, hend.2, hm, hx⟩
  · rintro ⟨negative, m, w, hs, hw, hstop, hend, hm, hx⟩
    obtain ⟨rfl, w, hs, hw, hstop⟩ := isSignedFixedPoint_append_iff.1 ⟨w, hs, hw, hstop⟩
    obtain ⟨whole, fraction, hdecimal, hne, rfl⟩ := decimal_of_isFixedPoint hw hstop
    have hx := (hvalue whole fraction).2 ⟨hm, hx⟩
    have hne : (whole ++ fraction).isEmpty = false := by simpa using hne
    simp [float, hs, hdecimal, hne, hend, hx]

end Reader

/-- A fixed point text writes a fraction. -/
theorem IsFixedPoint.exists_div {m : ℚ} {w : List Char} (h : IsFixedPoint m w) :
    ∃ num den : Nat, 0 < den ∧ m = num / den := by
  cases h with
  | whole => exact ⟨Decimal.number w, 1, one_pos, by simp⟩
  | @point whole fraction =>
      refine ⟨Decimal.number (whole ++ fraction), 10 ^ fraction.length, by positivity, ?_⟩
      rw [← Decimal.number_append_div]
      push_cast
      rfl

/-- What is written is rounded to some number of the format, unless it is too great. -/
theorem IsSignedFixedPoint.exists_rounds {type : FloatType} {negative : Bool} {m : ℚ}
    {w : List Char} (h : IsSignedFixedPoint negative m w) (hm : m < type.overflow) :
    ∃ x, type.Rounds negative m x := by
  obtain ⟨num, den, hden, rfl⟩ : ∃ num den : Nat, 0 < den ∧ m = num / den := by
    cases h with
    | plain h | plus h | minus h => exact h.exists_div
  obtain ⟨x, hx⟩ := Option.isSome_iff_exists.1
    ((FloatType.isSome_round_iff negative hden).2 hm)
  exact ⟨x, FloatType.rounds_of_round hden hx⟩

/-- **Floating point numbers are exactly the fixed point texts of rationals that are not too
great.**  Whatever characters are special, a text is read as a number of a format exactly if it
starts with a sign or none and a maximal run of digits, at least one, with at most one point, that
ends where a token ends, and if the magnitude that is written so is below the format's `overflow`.
What is read is the one number of the format that the rational with that sign is rounded to, and
what follows the run is left. -/
theorem reads_float_iff_rounds (type : FloatType) (special : SpecialSet) :
    (∀ s t, (∃ v, (Parser.float type).read special s = (some v, t)) ↔
      ∃ negative m w, s = w ++ t ∧ IsSignedFixedPoint negative m w ∧ StopsBefore w t ∧
        special.atTokenEnd t = true ∧ m < type.overflow) ∧
      ∀ s v t, (Parser.float type).read special s = (some v, t) ↔
        ∃ x negative m w, v = .float x ∧ s = w ++ t ∧ IsSignedFixedPoint negative m w ∧
          StopsBefore w t ∧ special.atTokenEnd t = true ∧ m < type.overflow ∧
          type.Rounds negative m x := by
  have hread : ∀ s v t, (Parser.float type).read special s = (some v, t) ↔
      ∃ x negative m w, v = .float x ∧ s = w ++ t ∧ IsSignedFixedPoint negative m w ∧
        StopsBefore w t ∧ special.atTokenEnd t = true ∧ m < type.overflow ∧
        type.Rounds negative m x := fun s v t => by
    rw [Parser.read, Reader.map_eq_some_iff]
    constructor
    · rintro ⟨x, h, rfl⟩
      obtain ⟨negative, m, w, h⟩ := Reader.float_eq_some_iff.1 h
      exact ⟨x, negative, m, w, rfl, h⟩
    · rintro ⟨x, negative, m, w, rfl, h⟩
      exact ⟨x, Reader.float_eq_some_iff.2 ⟨negative, m, w, h⟩, rfl⟩
  refine ⟨fun s t => ?_, hread⟩
  simp only [hread]
  constructor
  · rintro ⟨v, x, negative, m, w, -, hs, hw, hstop, hend, hm, -⟩
    exact ⟨negative, m, w, hs, hw, hstop, hend, hm⟩
  · rintro ⟨negative, m, w, hs, hw, hstop, hend, hm⟩
    obtain ⟨x, hx⟩ := hw.exists_rounds hm
    exact ⟨_, x, negative, m, w, rfl, hs, hw, hstop, hend, hm, hx⟩

/-- A rational just below the middle of two single width numbers goes to the lower one.  Rounded to
double width first, it would lie in the middle and go to the other one, whose significand is
even. -/
example : Reader.float .f32 .builtIn "+1.00000017881393432617187499]".toList =
    (some ⟨false, 2 ^ 23 + 1, -23⟩, [']']) := by decide +kernel

end TypedConsole
