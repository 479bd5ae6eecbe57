import TypedConsole.Proofs.Rounding
import Mathlib.Algebra.Order.Field.Basic
import Mathlib.Algebra.Ring.Parity
import Mathlib.Tactic.Linarith
import Mathlib.Tactic.FieldSimp
import Mathlib.Tactic.NormNum

/-!
# TypedConsole.Proofs.Nearest

Rounding gives the nearest number of the format.

`FloatType.Rounds` says without the rounding function what it is for a number to be a rational
rounded once: no number of the format is nearer, and a tie goes to an even significand.  There is
at most one such number (`Rounds.unique`): of two, the one with the smaller magnitude would be
followed by a number with an odd significand that is nearer, or is the other one.

That the rounding function gives it (`rounds_of_round`) is a matter of the numbers with the
exponent of rounding or a greater one: they are multiples of one power of two, and the rational
scaled by that power is rounded to the nearest integer.  The others all lie below a power of two
that the rational is not below.
-/

namespace TypedConsole

/-! ## values of numbers -/

/-- The rational with a sign. -/
def signed (negative : Bool) (m : ℚ) : ℚ := if negative then -m else m

theorem signed_signed (negative : Bool) (m : ℚ) : signed negative (signed negative m) = m := by
  cases negative <;> simp [signed]

/-- A common sign does not matter to a distance. -/
theorem abs_signed_sub (negative : Bool) (a b : ℚ) :
    |signed negative a - signed negative b| = |a - b| := by
  cases negative with
  | false => rfl
  | true => rw [signed, signed, if_pos rfl, if_pos rfl, neg_sub_neg, abs_sub_comm]

theorem abs_signed (negative : Bool) (m : ℚ) : |signed negative m| = |m| := by
  cases negative <;> simp [signed]

namespace BinaryFloat

/-- The number without its sign. -/
def absolute (x : BinaryFloat) : ℚ := x.significand * 2 ^ x.exponent

/-- The rational that the number stands for. -/
def value (x : BinaryFloat) : ℚ := signed x.negative x.absolute

variable {x : BinaryFloat} {e : Int}

theorem absolute_nonneg (x : BinaryFloat) : 0 ≤ x.absolute := by
  rw [absolute]
  positivity

theorem abs_value (x : BinaryFloat) : |x.value| = x.absolute := by
  rw [value, abs_signed, abs_of_nonneg x.absolute_nonneg]

/-- A number is a multiple of the powers of two up to that of its exponent. -/
theorem exists_absolute_eq (h : e ≤ x.exponent) : ∃ k : Nat, x.absolute = k * 2 ^ e := by
  obtain ⟨n, hn⟩ := Int.le.dest h
  refine ⟨x.significand * 2 ^ n, ?_⟩
  rw [absolute, ← hn, zpow_add₀ two_ne_zero, zpow_natCast]
  push_cast
  ring

theorem exists_signed_value_eq (negative : Bool) (h : e ≤ x.exponent) :
    ∃ k : Int, signed negative x.value = k * 2 ^ e := by
  obtain ⟨k, hk⟩ := exists_absolute_eq h
  have hsigns : signed negative x.value = x.absolute ∨ signed negative x.value = -x.absolute := by
    simp only [value, signed]
    split <;> split <;> simp
  rcases hsigns with hv | hv
  · exact ⟨k, by rw [hv, hk]; push_cast; rfl⟩
  · exact ⟨-k, by rw [hv, hk]; push_cast; ring⟩

end BinaryFloat

/-! ## rounding to an integer -/

/-- The error of rounding to an integer, as a multiple of the denominator's inverse. -/
theorem exists_roundHalfEven_error {n d : Nat} (hd : 0 < d) :
    ∃ s : Int, (roundHalfEven n d : Int) * d = n + s ∧ 2 * |s| ≤ d ∧
      (2 * |s| = d → Even (roundHalfEven n d)) := by
  have hn : (n : Int) = d * (n / d : Nat) + (n % d : Nat) := mod_cast (Nat.div_add_mod n d).symm
  have hlt : n % d < d := Nat.mod_lt n hd
  simp only [roundHalfEven, Bool.or_eq_true, decide_eq_true_eq, Bool.and_eq_true, beq_iff_eq]
  split
  · next hup =>
      refine ⟨d - (n % d : Nat), by rw [hn]; push_cast; ring, ?_, fun htie => ?_⟩
      · rw [abs_of_nonneg (by omega)]
        omega
      · rw [abs_of_nonneg (by omega)] at htie
        rw [Nat.even_iff]
        omega
  · next hdown =>
      refine ⟨-(n % d : Nat), by rw [hn]; push_cast; ring, ?_, fun htie => ?_⟩
      · rw [abs_neg, Nat.abs_cast]
        omega
      · rw [abs_neg, Nat.abs_cast] at htie
        rw [Nat.even_iff]
        omega

/-- A rational is rounded to an integer that is at most one half away, and to an even one if it is
no less. -/
theorem abs_roundHalfEven_sub {n d : Nat} (hd : 0 < d) :
    |(roundHalfEven n d : ℚ) - n / d| ≤ 1 / 2 ∧
      (|(roundHalfEven n d : ℚ) - n / d| = 1 / 2 → Even (roundHalfEven n d)) := by
  obtain ⟨s, hs, hle, heven⟩ := exists_roundHalfEven_error (n := n) hd
  have hdq : (0 : ℚ) < d := mod_cast hd
  have herror : |(roundHalfEven n d : ℚ) - n / d| = (|s| : Int) / d := by
    have hsq : (roundHalfEven n d : ℚ) * d = n + s := mod_cast hs
    rw [← mul_div_cancel_right₀ (roundHalfEven n d : ℚ) hdq.ne', hsq, add_div, add_sub_cancel_left,
      abs_div, abs_of_pos hdq, Int.cast_abs]
  rw [herror]
  constructor
  · rw [div_le_div_iff₀ hdq two_pos, one_mul, mul_comm]
    exact_mod_cast hle
  · intro h
    rw [div_eq_div_iff hdq.ne' two_ne_zero, one_mul, mul_comm] at h
    exact heven (mod_cast h)

/-- No integer is nearer to a rational than the one it is rounded to.  If another one is as near,
that one is even. -/
theorem roundHalfEven_nearest {n d : Nat} (hd : 0 < d) (k : Int) :
    |(roundHalfEven n d : ℚ) - n / d| ≤ |(k : ℚ) - n / d| ∧
      (|(k : ℚ) - n / d| = |(roundHalfEven n d : ℚ) - n / d| → k ≠ roundHalfEven n d →
        Even (roundHalfEven n d)) := by
  obtain ⟨hle, heven⟩ := abs_roundHalfEven_sub (n := n) hd
  by_cases hk : k = roundHalfEven n d
  · subst hk
    exact ⟨le_rfl, fun _ h => absurd rfl h⟩
  · have hone : (1 : ℚ) ≤ |(k : ℚ) - roundHalfEven n d| := by
      have : (1 : Int) ≤ |k - roundHalfEven n d| := Int.one_le_abs (sub_ne_zero.2 hk)
      exact_mod_cast this
    have htriangle := abs_sub_le (k : ℚ) (n / d) (roundHalfEven n d)
    rw [abs_sub_comm (n / d : ℚ)] at htriangle
    exact ⟨by linarith, fun h _ => heven (by linarith)⟩

/-! ## numbers of a format -/

namespace FloatType

variable {f : FloatType} {x y : BinaryFloat} {e : Int}

theorem two_pow_precision (f : FloatType) : (2 : ℚ) ^ f.precision = 2 * 2 ^ (f.precision - 1) := by
  rw [← pow_succ', Nat.sub_add_cancel f.precision_pos]

/-- A number is below the leading digit of any greater exponent. -/
theorem Holds.absolute_lt (h : f.Holds x) (he : x.exponent < e) :
    x.absolute < 2 ^ (f.precision - 1) * 2 ^ e := by
  have hdigits : (x.significand : ℚ) < 2 ^ f.precision := mod_cast h.digits
  calc x.absolute < 2 ^ f.precision * 2 ^ x.exponent :=
        mul_lt_mul_of_pos_right hdigits (by positivity)
    _ ≤ 2 ^ f.precision * 2 ^ (e - 1) := by
        gcongr
        · exact one_le_two
        · omega
    _ = 2 ^ (f.precision - 1) * 2 ^ e := by
        rw [f.two_pow_precision, zpow_sub_one₀ two_ne_zero]
        ring

/-- A number whose exponent is not the least has a leading digit. -/
theorem Holds.le_absolute (h : f.Holds x) (he : x.exponent ≠ f.minExponent) :
    2 ^ (f.precision - 1) * 2 ^ x.exponent ≤ x.absolute := by
  have hleading : (2 : ℚ) ^ (f.precision - 1) ≤ x.significand := mod_cast h.leading he
  exact mul_le_mul_of_nonneg_right hleading (by positivity)

theorem Holds.absolute_lt_of_exponent_lt (hx : f.Holds x) (hy : f.Holds y)
    (h : x.exponent < y.exponent) : x.absolute < y.absolute :=
  (hx.absolute_lt h).trans_le (hy.le_absolute (hx.least.trans_lt h).ne')

/-- Without its sign, a number of a format is written in one way only. -/
theorem Holds.eq_of_absolute_eq (hx : f.Holds x) (hy : f.Holds y) (h : x.absolute = y.absolute) :
    x.significand = y.significand ∧ x.exponent = y.exponent := by
  have hexponent : x.exponent = y.exponent := by
    rcases lt_trichotomy x.exponent y.exponent with hlt | heq | hgt
    · exact absurd h (hx.absolute_lt_of_exponent_lt hy hlt).ne
    · exact heq
    · exact absurd h.symm (hy.absolute_lt_of_exponent_lt hx hgt).ne
  refine ⟨?_, hexponent⟩
  rw [BinaryFloat.absolute, BinaryFloat.absolute, hexponent] at h
  exact_mod_cast mul_right_cancel₀ (by positivity) h

/-- If the significand of a number is even, the number with the next significand belongs to the
format too, and it is the next one. -/
theorem Holds.next (hx : f.Holds x) (heven : Even x.significand) :
    f.Holds { x with significand := x.significand + 1 } ∧
      ∀ y, f.Holds y → x.absolute < y.absolute →
        ({ x with significand := x.significand + 1 } : BinaryFloat).absolute ≤ y.absolute := by
  refine ⟨⟨?_, hx.least, hx.greatest, fun he => (hx.leading he).trans (Nat.le_succ _)⟩,
    fun y hy hlt => ?_⟩
  · have hfull : Even (2 ^ f.precision) := by
      rw [Nat.even_pow]
      exact ⟨even_two, f.precision_pos.ne'⟩
    rw [Nat.even_iff] at heven hfull
    have := hx.digits
    change x.significand + 1 < 2 ^ f.precision
    omega
  · have hexponent : x.exponent ≤ y.exponent := by
      by_contra hge
      exact lt_asymm hlt (hy.absolute_lt_of_exponent_lt hx (not_le.1 hge))
    obtain ⟨k, hk⟩ := BinaryFloat.exists_absolute_eq hexponent
    rw [hk, BinaryFloat.absolute] at hlt
    have hsucc : x.significand + 1 ≤ k := by
      exact_mod_cast lt_of_mul_lt_mul_right hlt (by positivity)
    rw [hk, BinaryFloat.absolute]
    have : ((x.significand + 1 : Nat) : ℚ) ≤ k := mod_cast hsucc
    exact mul_le_mul_of_nonneg_right this (by positivity)

/-! ## numbers nearest to a rational -/

/-- The number `x` of the format is what the rational `m`, negated if `negative`, is rounded to:
no number of the format is nearer, and if another one is as near, the significand is even. -/
structure Rounds (f : FloatType) (negative : Bool) (m : ℚ) (x : BinaryFloat) : Prop where
  holds : f.Holds x
  sign : x.negative = negative
  nearest : ∀ y, f.Holds y → |x.value - signed negative m| ≤ |y.value - signed negative m|
  even : ∀ y, f.Holds y → |y.value - signed negative m| = |x.value - signed negative m| →
    y.value ≠ x.value → Even x.significand

variable {negative : Bool} {m : ℚ}

theorem Rounds.distance (h : f.Rounds negative m x) :
    |x.value - signed negative m| = |x.absolute - m| := by
  rw [BinaryFloat.value, h.sign, abs_signed_sub]

/-- Of two numbers that a rational is rounded to neither has the greater magnitude: both
significands would be even, and the number next to the lesser one would lie between them or be the
other one. -/
theorem Rounds.absolute_le (hx : f.Rounds negative m x) (hy : f.Rounds negative m y) :
    y.absolute ≤ x.absolute := by
  by_contra hlt
  rw [not_le] at hlt
  have hdistance : |y.absolute - m| = |x.absolute - m| := by
    rw [← hx.distance, ← hy.distance]
    exact le_antisymm (hy.nearest x hx.holds) (hx.nearest y hy.holds)
  have hne : y.value ≠ x.value := fun h => hlt.ne' (by rw [← y.abs_value, h, x.abs_value])
  have hxeven := hx.even y hy.holds (by rw [hx.distance, hy.distance, hdistance]) hne
  have hyeven := hy.even x hx.holds (by rw [hx.distance, hy.distance, hdistance]) hne.symm
  obtain ⟨hnext, hleast⟩ := hx.holds.next hxeven
  set s : BinaryFloat := { x with significand := x.significand + 1 } with hs
  have hxs : x.absolute < s.absolute := by
    simp only [hs, BinaryFloat.absolute]
    push_cast
    have : (0 : ℚ) < 2 ^ x.exponent := by positivity
    linarith
  rcases (hleast y hy.holds hlt).eq_or_lt with heq | hsy
  · obtain ⟨hsig, -⟩ := hnext.eq_of_absolute_eq hy.holds heq
    rw [← hsig, Nat.even_add_one] at hyeven
    exact hyeven hxeven
  · have hsigned : s.value = signed negative s.absolute := by
      rw [BinaryFloat.value, ← hx.sign]
    have hfar := hx.nearest s hnext
    rw [hx.distance, hsigned, abs_signed_sub] at hfar
    -- the rational is the middle between the two numbers
    have hmiddle : y.absolute - m = m - x.absolute := by
      rcases abs_eq_abs.1 hdistance with h | h <;> linarith
    rw [abs_sub_comm x.absolute, abs_of_pos (by linarith : 0 < m - x.absolute)] at hfar
    rcases abs_cases (s.absolute - m) with ⟨h, -⟩ | ⟨h, -⟩ <;> linarith

/-- **A rational is rounded to one number only.** -/
theorem Rounds.unique (hx : f.Rounds negative m x) (hy : f.Rounds negative m y) : x = y := by
  obtain ⟨hsig, hexp⟩ := hx.holds.eq_of_absolute_eq hy.holds
    (le_antisymm (hy.absolute_le hx) (hx.absolute_le hy))
  have hsign := hx.sign.trans hy.sign.symm
  cases x
  cases y
  simp only at hsig hexp hsign
  rw [hsig, hexp, hsign]

/-! ## the rounding function -/

variable {num den : Nat}

/-- The rational in units of the exponent of rounding, rounded to an integer. -/
def roundedDigits (f : FloatType) (num den : Nat) : Nat :=
  roundHalfEven (scaleDown num den (f.roundingExponent num den)).1
    (scaleDown num den (f.roundingExponent num den)).2

/-- The rounded digits make the number.  One digit too many is a power of two. -/
theorem roundMagnitude_eq_some_iff {q : Nat} :
    f.roundMagnitude num den = some (q, e) ↔
      (if f.roundedDigits num den = 2 ^ f.precision
        then (2 ^ (f.precision - 1), f.roundingExponent num den + 1)
        else (f.roundedDigits num den, f.roundingExponent num den)) = (q, e) ∧
      e ≤ f.maxExponent := by
  have h : f.roundMagnitude num den = (fun number : Nat × Int =>
      if number.2 ≤ f.maxExponent then some number else none)
        (if f.roundedDigits num den = 2 ^ f.precision
          then (2 ^ (f.precision - 1), f.roundingExponent num den + 1)
          else (f.roundedDigits num den, f.roundingExponent num den)) := rfl
  rw [h]
  simp only [Option.ite_none_right_eq_some, Option.some.injEq]
  rw [and_comm]
  exact and_congr_right fun h => by rw [h]

theorem scaleDown_snd_pos (hden : 0 < den) (e : Int) : 0 < (scaleDown num den e).2 := by
  obtain ⟨c, hc, -, hd⟩ := scaleDown_eq num den e
  have hdenq : (0 : ℚ) < den := mod_cast hden
  rw [← Nat.cast_pos (α := ℚ), hd]
  positivity

/-- The distance of a multiple of the unit from the rational, measured in units. -/
theorem abs_mul_unit_sub (hden : 0 < den) (e : Int) (a : ℚ) :
    |a * 2 ^ e - num / den| =
      |a - ((scaleDown num den e).1 : ℚ) / (scaleDown num den e).2| * 2 ^ e := by
  obtain ⟨c, hc, hn, hd⟩ := scaleDown_eq num den e
  have hdenq : (0 : ℚ) < den := mod_cast hden
  have hunit : (0 : ℚ) < 2 ^ e := by positivity
  rw [hn, hd, ← abs_of_pos hunit, ← abs_mul, abs_of_pos hunit]
  congr 1
  field_simp

/-- No multiple of the unit is nearer to the rational than the rounded digits.  If another one is as
near, the digits are even. -/
theorem roundedDigits_nearest (f : FloatType) (num : Nat) (hden : 0 < den) (k : Int) :
    |(f.roundedDigits num den : ℚ) * 2 ^ f.roundingExponent num den - num / den| ≤
        |(k : ℚ) * 2 ^ f.roundingExponent num den - num / den| ∧
      (|(k : ℚ) * 2 ^ f.roundingExponent num den - num / den| =
          |(f.roundedDigits num den : ℚ) * 2 ^ f.roundingExponent num den - num / den| →
        k ≠ f.roundedDigits num den → Even (f.roundedDigits num den)) := by
  have hunit : (0 : ℚ) < 2 ^ f.roundingExponent num den := by positivity
  obtain ⟨hle, heven⟩ := roundHalfEven_nearest (scaleDown_snd_pos hden _) k
  rw [abs_mul_unit_sub hden, abs_mul_unit_sub hden]
  exact ⟨mul_le_mul_of_nonneg_right hle hunit.le,
    fun htie => heven (mul_right_cancel₀ hunit.ne' htie)⟩

/-- The rounded digits are at most half a unit away, and even if they are no less. -/
theorem abs_roundedDigits_sub (f : FloatType) (num : Nat) (hden : 0 < den) :
    |(f.roundedDigits num den : ℚ) * 2 ^ f.roundingExponent num den - num / den| ≤
        1 / 2 * 2 ^ f.roundingExponent num den ∧
      (|(f.roundedDigits num den : ℚ) * 2 ^ f.roundingExponent num den - num / den| =
        1 / 2 * 2 ^ f.roundingExponent num den → Even (f.roundedDigits num den)) := by
  have hunit : (0 : ℚ) < 2 ^ f.roundingExponent num den := by positivity
  obtain ⟨hle, heven⟩ := abs_roundHalfEven_sub
    (scaleDown_snd_pos hden (f.roundingExponent num den))
  rw [abs_mul_unit_sub hden]
  exact ⟨mul_le_mul_of_nonneg_right hle hunit.le,
    fun htie => heven (mul_right_cancel₀ hunit.ne' htie)⟩

/-- What is rounded to is the multiple of the unit with the rounded digits. -/
theorem absolute_of_roundMagnitude {q : Nat} (h : f.roundMagnitude num den = some (q, e)) :
    (q : ℚ) * 2 ^ e = f.roundedDigits num den * 2 ^ f.roundingExponent num den ∧
      (Even (f.roundedDigits num den) → Even q) := by
  obtain ⟨h, -⟩ := roundMagnitude_eq_some_iff.1 h
  split at h
  · next hfull =>
      obtain ⟨rfl, rfl⟩ := Prod.mk.inj h
      refine ⟨?_, fun _ => ?_⟩
      · rw [hfull, zpow_add_one₀ two_ne_zero]
        push_cast
        rw [f.two_pow_precision]
        ring
      · have : f.precision - 1 ≠ 0 := by cases f <;> decide
        exact (Nat.even_pow.2 ⟨even_two, this⟩)
  · obtain ⟨rfl, rfl⟩ := Prod.mk.inj h
    exact ⟨rfl, id⟩

/-- A number with a smaller exponent than that of rounding is farther from the rational than the
leading digit, which is a multiple of the unit. -/
theorem Holds.lt_distance (hy : f.Holds y) (hden : 0 < den)
    (h : y.exponent < f.roundingExponent num den) :
    |(f.roundedDigits num den : ℚ) * 2 ^ f.roundingExponent num den - num / den| <
      |y.value - signed negative (num / den)| := by
  have hbelow := hy.absolute_lt h
  have hbig := roundingExponent_le (hy.least.trans_lt h).ne'
  rw [zpow_add₀ two_ne_zero, zpow_natCast, mul_comm,
    ← le_div_iff₀ (by exact_mod_cast hden)] at hbig
  have hleading := (f.roundedDigits_nearest num hden (2 ^ (f.precision - 1))).1
  push_cast at hleading
  have hvalue : signed negative y.value ≤ y.absolute := by
    rw [← y.abs_value, ← abs_signed negative]
    exact le_abs_self _
  calc |(f.roundedDigits num den : ℚ) * 2 ^ f.roundingExponent num den - num / den|
      ≤ |2 ^ (f.precision - 1) * 2 ^ f.roundingExponent num den - (num / den : ℚ)| := hleading
    _ = num / den - 2 ^ (f.precision - 1) * 2 ^ f.roundingExponent num den := by
        rw [abs_sub_comm, abs_of_nonneg (sub_nonneg.2 hbig)]
    _ < num / den - signed negative y.value := by linarith
    _ ≤ |signed negative y.value - num / den| := by
        rw [abs_sub_comm]
        exact le_abs_self _
    _ = |y.value - signed negative (num / den)| := by
        rw [← abs_signed_sub negative, signed_signed]

/-- **The rounding function rounds.** -/
theorem rounds_of_round (hden : 0 < den) (h : f.round negative num den = some x) :
    f.Rounds negative (num / den) x := by
  have hholds := holds_of_round hden h
  obtain ⟨⟨q, e⟩, hmagnitude, rfl⟩ := Option.map_eq_some_iff.1 h
  obtain ⟨habsolute, hparity⟩ := absolute_of_roundMagnitude hmagnitude
  have hvalue : (⟨negative, q, e⟩ : BinaryFloat).value =
      signed negative (f.roundedDigits num den * 2 ^ f.roundingExponent num den) := by
    rw [← habsolute]
    rfl
  have hnearest := f.roundedDigits_nearest num hden
  have hmultiple : ∀ y : BinaryFloat, f.roundingExponent num den ≤ y.exponent →
      ∃ k : Int, y.value = signed negative (k * 2 ^ f.roundingExponent num den) := fun y hexp => by
    obtain ⟨k, hk⟩ := BinaryFloat.exists_signed_value_eq negative hexp
    exact ⟨k, by rw [← hk, signed_signed]⟩
  refine ⟨hholds, rfl, fun y hy => ?_, fun y hy htie hne => hparity ?_⟩
  · rw [hvalue, abs_signed_sub]
    by_cases hexp : f.roundingExponent num den ≤ y.exponent
    · obtain ⟨k, hk⟩ := hmultiple y hexp
      rw [hk, abs_signed_sub]
      exact (hnearest k).1
    · exact (hy.lt_distance hden (not_le.1 hexp)).le
  · rw [hvalue, abs_signed_sub] at htie
    by_cases hexp : f.roundingExponent num den ≤ y.exponent
    · obtain ⟨k, hk⟩ := hmultiple y hexp
      rw [hk, abs_signed_sub] at htie
      exact (hnearest k).2 htie fun hkR => hne (by rw [hvalue, hk, hkR, Int.cast_natCast])
    · exact absurd htie (hy.lt_distance hden (not_le.1 hexp)).ne'

/-! ## overflow -/

/-- The least rational that is too great: the middle between the greatest number of the format and
the one that would follow it. -/
def overflow : FloatType → ℚ
  | f32 => 2 ^ 128 - 2 ^ 103
  | f64 => 2 ^ 1024 - 2 ^ 970

theorem overflow_eq (f : FloatType) :
    f.overflow = (2 ^ f.precision - 1 / 2) * 2 ^ f.maxExponent := by
  have hmiddle : ∀ p e : Nat, (2 : ℚ) ^ (p + (e + 1)) - 2 ^ e =
      (2 ^ p - 1 / 2) * 2 ^ ((e + 1 : Nat) : Int) := fun p e => by
    rw [zpow_natCast, pow_add, pow_succ]
    ring
  cases f with
  | f32 => exact hmiddle 24 103
  | f64 => exact hmiddle 53 970

theorem roundedDigits_le (f : FloatType) (num : Nat) (hden : 0 < den) :
    f.roundedDigits num den ≤ 2 ^ f.precision := by
  have hlt : (scaleDown num den (f.roundingExponent num den)).1 <
      2 ^ f.precision * (scaleDown num den (f.roundingExponent num den)).2 :=
    (scaleDown_lt_iff f.precision).2 (f.lt_roundingExponent hden)
  exact (roundHalfEven_le _ _).trans (Nat.div_lt_of_lt_mul (Nat.mul_comm _ _ ▸ hlt))

theorem isSome_roundMagnitude_iff :
    (f.roundMagnitude num den).isSome = true ↔
      (if f.roundedDigits num den = 2 ^ f.precision then f.roundingExponent num den + 1
        else f.roundingExponent num den) ≤ f.maxExponent := by
  simp only [Option.isSome_iff_exists, Prod.exists, roundMagnitude_eq_some_iff]
  split <;> simp

/-- **The rounding function fails** exactly for the rationals that are too great. -/
theorem isSome_round_iff (negative : Bool) (hden : 0 < den) :
    (f.round negative num den).isSome = true ↔ (num / den : ℚ) < f.overflow := by
  have hdenq : (0 : ℚ) < den := mod_cast hden
  have hunit : (0 : ℚ) < 2 ^ f.maxExponent := by positivity
  rw [round, Option.isSome_map, isSome_roundMagnitude_iff, overflow_eq]
  rcases lt_trichotomy (f.roundingExponent num den) f.maxExponent with hlt | heq | hgt
  · refine iff_of_true (by split <;> omega) ?_
    have hbound : (num : ℚ) < den * 2 ^ (f.precision + f.roundingExponent num den) :=
      f.lt_roundingExponent hden
    rw [zpow_add₀ two_ne_zero, zpow_natCast, mul_comm, ← div_lt_iff₀ hdenq] at hbound
    have hone : (1 : ℚ) ≤ 2 ^ f.precision := one_le_pow₀ one_le_two
    calc (num / den : ℚ) < 2 ^ f.precision * 2 ^ f.roundingExponent num den := hbound
      _ ≤ 2 ^ f.precision * 2 ^ (f.maxExponent - 1) := by
          gcongr
          · exact one_le_two
          · omega
      _ ≤ (2 ^ f.precision - 1 / 2) * 2 ^ f.maxExponent := by
          rw [zpow_sub_one₀ two_ne_zero]
          nlinarith
  · -- the greatest exponent is exceeded if there is a digit too many
    obtain ⟨hle, heven⟩ := f.abs_roundedDigits_sub num hden
    have hmost := f.roundedDigits_le num hden
    rw [heq] at hle heven ⊢
    obtain ⟨hlow, hhigh⟩ := abs_le.1 hle
    by_cases hfull : f.roundedDigits num den = 2 ^ f.precision
    · refine iff_of_false (by simp [hfull]) (not_lt.2 ?_)
      rw [hfull] at hhigh
      push_cast at hhigh
      linarith
    · refine iff_of_true (by simp [hfull]) ?_
      have hless : (f.roundedDigits num den : ℚ) + 1 ≤ 2 ^ f.precision := by
        exact_mod_cast (lt_of_le_of_ne hmost hfull : f.roundedDigits num den < 2 ^ f.precision)
      refine lt_of_le_of_ne (by nlinarith) fun hmiddle => ?_
      -- halfway the digits would be the greatest ones, which are odd
      have hlast : (f.roundedDigits num den : ℚ) + 1 = 2 ^ f.precision := by
        refine le_antisymm hless (le_of_mul_le_mul_right ?_ hunit)
        linarith
      have hdigits := heven (by
        rw [hmiddle, ← hlast, ← sub_mul, abs_mul, abs_of_pos hunit]
        congr 1
        rw [← abs_neg]
        ring_nf
        norm_num)
      have hodd : Even (f.roundedDigits num den + 1) := by
        rw [show f.roundedDigits num den + 1 = 2 ^ f.precision from mod_cast hlast]
        exact Nat.even_pow.2 ⟨even_two, f.precision_pos.ne'⟩
      exact Nat.even_add_one.1 hodd hdigits
  · refine iff_of_false (by split <;> omega) (not_lt.2 ?_)
    have hne : f.roundingExponent num den ≠ f.minExponent :=
      (f.minExponent_lt_maxExponent.trans hgt).ne'
    have hbound := roundingExponent_le hne
    rw [zpow_add₀ two_ne_zero, zpow_natCast, mul_comm, ← le_div_iff₀ hdenq] at hbound
    calc ((2 : ℚ) ^ f.precision - 1 / 2) * 2 ^ f.maxExponent
        ≤ 2 ^ (f.precision - 1) * 2 ^ (f.maxExponent + 1) := by
          rw [f.two_pow_precision, zpow_add_one₀ two_ne_zero]
          linarith
      _ ≤ 2 ^ (f.precision - 1) * 2 ^ f.roundingExponent num den := by
          gcongr
          · exact one_le_two
          · omega
      _ ≤ num / den := hbound

/-- **Rounding is to the one number** of the format that the rational is rounded to, if it is not
too great. -/
theorem round_eq_some_iff (hden : 0 < den) :
    f.round negative num den = some x ↔
      (num / den : ℚ) < f.overflow ∧ f.Rounds negative (num / den) x := by
  constructor
  · intro h
    exact ⟨(isSome_round_iff negative hden).1 (Option.isSome_of_eq_some h), rounds_of_round hden h⟩
  · rintro ⟨hlt, hx⟩
    obtain ⟨y, hy⟩ := Option.isSome_iff_exists.1 ((isSome_round_iff negative hden).2 hlt)
    rw [hy, (rounds_of_round hden hy).unique hx]

end FloatType

end TypedConsole
