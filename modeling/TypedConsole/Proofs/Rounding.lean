import TypedConsole.Number.BinaryFloat
import Mathlib.Algebra.Order.Field.Power
import Mathlib.Algebra.Order.Field.Rat
import Mathlib.Data.Rat.Cast.Order
import Mathlib.Tactic.Positivity
import Mathlib.Tactic.Ring

/-!
# TypedConsole.Proofs.Rounding

Rounding gives numbers of the format.

A rational is scaled so that the format's number of digits stands before the point.  `magnitude`
is its binary order of magnitude (`lt_magnitude`, `magnitude_le`), so the scaled rational has no
more digits than that, and no fewer unless the format has no smaller exponent.
-/

namespace TypedConsole

/-- The numbers of a format: the significand has the format's digits, or fewer at the least
exponent. -/
structure FloatType.Holds (f : FloatType) (x : BinaryFloat) : Prop where
  digits : x.significand < 2 ^ f.precision
  least : f.minExponent ≤ x.exponent
  greatest : x.exponent ≤ f.maxExponent
  leading : x.exponent ≠ f.minExponent → 2 ^ (f.precision - 1) ≤ x.significand

/-! ## scaling -/

variable {num den : Nat} {e : Int}

/-- Numerator and denominator of the scaled rational, up to a common factor. -/
theorem scaleDown_eq (num den : Nat) (e : Int) :
    ∃ c : ℚ, 0 < c ∧ ((scaleDown num den e).1 : ℚ) = num * c ∧
      ((scaleDown num den e).2 : ℚ) = den * 2 ^ e * c := by
  by_cases he : 0 ≤ e
  · refine ⟨1, one_pos, ?_, ?_⟩ <;> simp only [scaleDown, if_pos he, Nat.pow_eq, mul_one]
    push_cast
    rw [← zpow_natCast, Int.toNat_of_nonneg he]
  · refine ⟨2 ^ (-e), by positivity, ?_, ?_⟩ <;> simp only [scaleDown, if_neg he, Nat.pow_eq]
    · push_cast
      rw [← zpow_natCast, Int.toNat_of_nonneg (by omega)]
    · rw [mul_assoc, ← zpow_add₀ two_ne_zero, add_neg_cancel, zpow_zero, mul_one]

/-- The scaled rational is below a power of two exactly if the rational is below that power times
the scale. -/
theorem scaleDown_lt_iff (k : Nat) :
    (scaleDown num den e).1 < 2 ^ k * (scaleDown num den e).2 ↔
      (num : ℚ) < den * 2 ^ (k + e) := by
  obtain ⟨c, hc, hn, hd⟩ := scaleDown_eq num den e
  rw [← Nat.cast_lt (α := ℚ)]
  push_cast
  rw [hn, hd, zpow_add₀ two_ne_zero, zpow_natCast,
    show (2 : ℚ) ^ k * (den * 2 ^ e * c) = den * (2 ^ k * 2 ^ e) * c by ring]
  exact mul_lt_mul_iff_left₀ hc

/-- The scale grows with its exponent. -/
theorem mul_zpow_le (den : Nat) {a b : Int} (h : a ≤ b) : (den : ℚ) * 2 ^ a ≤ den * 2 ^ b :=
  mul_le_mul_of_nonneg_left (zpow_le_zpow_right₀ one_le_two h) (Nat.cast_nonneg den)

/-! ## the order of magnitude -/

/-- The difference of the logarithms, at which the magnitude is first tried. -/
theorem magnitude_cases (num den : Nat) :
    ((den : ℚ) * 2 ^ ((Nat.log2 num : Int) - Nat.log2 den) ≤ num ∧
      magnitude num den = (Nat.log2 num : Int) - Nat.log2 den) ∨
    ((num : ℚ) < den * 2 ^ ((Nat.log2 num : Int) - Nat.log2 den) ∧
      magnitude num den = (Nat.log2 num : Int) - Nat.log2 den - 1) := by
  have hiff := @scaleDown_lt_iff num den ((Nat.log2 num : Int) - Nat.log2 den) 0
  simp only [pow_zero, one_mul, Nat.cast_zero, zero_add] at hiff
  simp only [magnitude]
  split
  · next hle => exact .inl ⟨not_lt.1 (mt hiff.2 (not_lt.2 hle)), rfl⟩
  · next hlt => exact .inr ⟨hiff.1 (not_le.1 hlt), rfl⟩

theorem lt_magnitude (hden : 0 < den) : (num : ℚ) < den * 2 ^ (magnitude num den + 1) := by
  rcases magnitude_cases num den with ⟨-, h⟩ | ⟨hlt, h⟩
  · have hnum : (num : ℚ) < 2 ^ (Nat.log2 num + 1) := mod_cast Nat.lt_log2_self
    have hpow : (2 : ℚ) ^ Nat.log2 den ≤ den := mod_cast Nat.log2_self_le hden.ne'
    calc (num : ℚ) < 2 ^ (Nat.log2 num + 1) := hnum
      _ = 2 ^ Nat.log2 den * 2 ^ (magnitude num den + 1) := by
        rw [h, ← zpow_natCast, ← zpow_natCast, ← zpow_add₀ two_ne_zero]
        congr 1
        push_cast
        ring
      _ ≤ den * 2 ^ (magnitude num den + 1) := by gcongr
  · rw [h, sub_add_cancel]
    exact hlt

theorem magnitude_le (hnum : num ≠ 0) : (den : ℚ) * 2 ^ magnitude num den ≤ num := by
  rcases magnitude_cases num den with ⟨hle, h⟩ | ⟨-, h⟩
  · rw [h]
    exact hle
  · have hden : (den : ℚ) < 2 ^ (Nat.log2 den + 1) := mod_cast Nat.lt_log2_self
    have hpow : (2 : ℚ) ^ Nat.log2 num ≤ num := mod_cast Nat.log2_self_le hnum
    calc (den : ℚ) * 2 ^ magnitude num den
        ≤ 2 ^ (Nat.log2 den + 1) * 2 ^ magnitude num den := by gcongr
      _ = 2 ^ Nat.log2 num := by
        rw [h, ← zpow_natCast, ← zpow_natCast, ← zpow_add₀ two_ne_zero]
        congr 1
        push_cast
        ring
      _ ≤ num := hpow

/-! ## rounding -/

theorem div_le_roundHalfEven (n d : Nat) : n / d ≤ roundHalfEven n d := by
  simp only [roundHalfEven]
  split <;> omega

theorem roundHalfEven_le (n d : Nat) : roundHalfEven n d ≤ n / d + 1 := by
  simp only [roundHalfEven]
  split <;> omega

namespace FloatType

variable {f : FloatType} {x : BinaryFloat}

theorem precision_pos (f : FloatType) : 0 < f.precision := by cases f <;> decide

theorem minExponent_lt_maxExponent (f : FloatType) : f.minExponent < f.maxExponent := by
  cases f <;> decide

theorem minExponent_le_roundingExponent (f : FloatType) (num den : Nat) :
    f.minExponent ≤ f.roundingExponent num den := by
  simp only [roundingExponent]
  split
  · exact le_refl _
  · exact le_max_left _ _

/-- At the exponent of rounding, a rational has no more digits than the format. -/
theorem lt_roundingExponent (f : FloatType) (hden : 0 < den) :
    (num : ℚ) < den * 2 ^ (f.precision + f.roundingExponent num den) := by
  by_cases hnum : num = 0
  · subst hnum
    have : (0 : ℚ) < den := mod_cast hden
    push_cast
    positivity
  · refine (lt_magnitude hden).trans_le (mul_zpow_le den ?_)
    simp only [roundingExponent, if_neg hnum]
    omega

/-- At the exponent of rounding, a rational has as many digits as the format, unless there is no
smaller exponent. -/
theorem roundingExponent_le (h : f.roundingExponent num den ≠ f.minExponent) :
    (den : ℚ) * 2 ^ (((f.precision - 1 : Nat) : Int) + f.roundingExponent num den) ≤ num := by
  by_cases hnum : num = 0
  · simp [roundingExponent, hnum] at h
  · refine (mul_zpow_le den ?_).trans (magnitude_le hnum)
    have hp := f.precision_pos
    simp only [roundingExponent, if_neg hnum] at h ⊢
    omega

/-- **A rounded rational is a number of the format.** -/
theorem holds_of_round {negative : Bool} (hden : 0 < den)
    (h : f.round negative num den = some x) : f.Holds x := by
  obtain ⟨⟨q, e⟩, hmagnitude, rfl⟩ := Option.map_eq_some_iff.1 h
  have hp := f.precision_pos
  have hleast := f.minExponent_le_roundingExponent num den
  set E := f.roundingExponent num den with hE
  -- the scaled rational has at most the format's digits, and at least those or the least exponent
  have hlt : (scaleDown num den E).1 < 2 ^ f.precision * (scaleDown num den E).2 :=
    (scaleDown_lt_iff f.precision).2 (f.lt_roundingExponent hden)
  have hge : E ≠ f.minExponent →
      2 ^ (f.precision - 1) * (scaleDown num den E).2 ≤ (scaleDown num den E).1 := fun hne =>
    not_lt.1 (mt (scaleDown_lt_iff (f.precision - 1)).1 (not_lt.2 (roundingExponent_le hne)))
  simp only [roundMagnitude, ← hE] at hmagnitude
  generalize scaleDown num den E = s at hlt hge hmagnitude
  obtain ⟨n, d⟩ := s
  have hd : 0 < d := Nat.pos_of_ne_zero fun h0 => by simp [h0] at hlt
  have hmost : roundHalfEven n d ≤ 2 ^ f.precision :=
    (roundHalfEven_le n d).trans (Nat.div_lt_of_lt_mul (Nat.mul_comm _ d ▸ hlt))
  have hleading : E ≠ f.minExponent → 2 ^ (f.precision - 1) ≤ roundHalfEven n d := fun hne =>
    ((Nat.le_div_iff_mul_le hd).2 (hge hne)).trans (div_le_roundHalfEven n d)
  simp only [Nat.pow_eq] at hmagnitude
  by_cases hfull : roundHalfEven n d = 2 ^ f.precision
  · simp only [hfull, if_true] at hmagnitude
    split at hmagnitude
    · next hmax =>
        obtain ⟨rfl, rfl⟩ := Prod.mk.inj (Option.some.inj hmagnitude)
        refine ⟨Nat.pow_lt_pow_right (by decide) (by omega), ?_, hmax, fun _ => le_refl _⟩
        exact hleast.trans (Int.le_add_one (le_refl E))
    · contradiction
  · simp only [hfull, if_false] at hmagnitude
    split at hmagnitude
    · next hmax =>
        obtain ⟨rfl, rfl⟩ := Prod.mk.inj (Option.some.inj hmagnitude)
        exact ⟨lt_of_le_of_ne hmost hfull, hleast, hmax, hleading⟩
    · contradiction

/-- Zero is a number of its format. -/
theorem holds_zero (f : FloatType) : f.Holds f.zero :=
  ⟨by simp [zero], le_refl _, f.minExponent_lt_maxExponent.le, fun h => absurd rfl h⟩

end FloatType

end TypedConsole
