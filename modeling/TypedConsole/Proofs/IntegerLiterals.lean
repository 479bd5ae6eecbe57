import Mathlib.Data.Nat.Digits.Defs
import TypedConsole.Proofs.RoundTrip

/-!
# TypedConsole.Proofs.IntegerLiterals

Which texts are integers.  `IsDecimal` says, without the reader, which numbers a text writes in
decimal: a sign or none and a run of digits, of any length and with any number of leading zeros.
The reader of an integer type accepts exactly these texts, up to the end of a token, as long as
the number lies between the least and the greatest of the type.
-/

namespace TypedConsole

/-! ## decimal texts -/

namespace Decimal

/-- The number written by a run of digits, the last of which counts the ones. -/
def number (digits : List Char) : Nat := Nat.ofDigits 10 (digits.reverse.map digitValue)

theorem number_append_digit (digits : List Char) (c : Char) :
    number (digits ++ [c]) = 10 * number digits + digitValue c := by
  simp [number, Nat.ofDigits_cons, Nat.add_comm]

/-- Reading digits from the left gives the number that they write. -/
theorem value_eq_number (digits : List Char) : value digits = number digits := by
  induction digits using List.reverseRecOn with
  | nil => rfl
  | append_singleton digits c ih =>
      rw [number_append_digit, ← ih]
      simp [value, valueFrom]

end Decimal

open Decimal in
/-- `IsDecimal signed n w`: the text `w` writes the number `n` in decimal.  Digits may have a plus
in front of them, and if the number is to be `signed`, a minus. -/
inductive IsDecimal (signed : Bool) : Int → List Char → Prop
  | plain (hne : digits ≠ []) (hd : ∀ c ∈ digits, isDigit c = true) :
      IsDecimal signed (number digits) digits
  | plus (hne : digits ≠ []) (hd : ∀ c ∈ digits, isDigit c = true) :
      IsDecimal signed (number digits) ('+' :: digits)
  | minus (hs : signed = true) (hne : digits ≠ []) (hd : ∀ c ∈ digits, isDigit c = true) :
      IsDecimal signed (-number digits) ('-' :: digits)

/-- The decimal text of a number writes it.  Negative numbers need a minus. -/
theorem isDecimal_decimalText {signed : Bool} {n : Int} (hs : n < 0 → signed = true) :
    IsDecimal signed n (decimalText n) := by
  have hnumber : ∀ m : Nat, Decimal.number (Nat.toDigits 10 m) = m := fun m => by
    rw [← Decimal.value_eq_number, Reader.value_toDigits]
  cases n with
  | ofNat m =>
      have h : IsDecimal signed _ _ := .plain (Nat.toDigits_ne_nil (n := m) (b := 10))
        fun _ => Reader.isDigit_of_mem_toDigits
      rwa [hnumber] at h
  | negSucc m =>
      have h := IsDecimal.minus (hs (Int.negSucc_lt_zero m))
        (Nat.toDigits_ne_nil (n := m + 1) (b := 10)) fun _ => Reader.isDigit_of_mem_toDigits
      rwa [hnumber] at h

/-! ## reading them -/

namespace Reader

variable {type : IntegerType} {special : SpecialSet} {s t : List Char} {n : Int}

/-- The value of signed digits, for a type that holds it. -/
theorem integerValue_eq_some_iff {sgn : Option Char} {digits : List Char} :
    integerValue type sgn digits = some n ↔
      (if sgn = some '-' then type.signed = true ∧ n = -Decimal.number digits
        else n = Decimal.number digits) ∧ type.holds n = true := by
  rw [integerValue, Decimal.value_eq_number]
  by_cases hminus : sgn = some '-'
  · simp only [if_pos hminus, Bool.and_eq_true, Option.ite_none_right_eq_some, Option.some.injEq]
    constructor
    · intro h
      obtain ⟨⟨hs, hn⟩, rfl⟩ := h
      exact ⟨⟨hs, rfl⟩, hn⟩
    · intro h
      obtain ⟨⟨hs, rfl⟩, hn⟩ := h
      exact ⟨⟨hs, hn⟩, rfl⟩
  · simp only [if_neg hminus, Option.ite_none_right_eq_some, Option.some.injEq]
    constructor
    · intro h
      obtain ⟨hn, rfl⟩ := h
      exact ⟨rfl, hn⟩
    · intro h
      obtain ⟨rfl, hn⟩ := h
      exact ⟨hn, rfl⟩

/-- What is behind the sign is a maximal run of digits and the end of a token. -/
theorem integer_eq_some_iff :
    integer type special s = (some n, t) ↔
      ∃ digits, (sign s).2 = digits ++ t ∧ digits ≠ [] ∧
        (∀ c ∈ digits, Decimal.isDigit c = true) ∧ (∀ c ∈ t.head?, Decimal.isDigit c = false) ∧
        special.atTokenEnd t = true ∧ integerValue type (sign s).1 digits = some n := by
  constructor
  · intro h
    have hdrop : (sign s).2.dropWhile Decimal.isDigit = t := by rw [← integer_snd, h]
    have hsplit : (sign s).2 = (sign s).2.takeWhile Decimal.isDigit ++ t := by
      rw [← hdrop, List.takeWhile_append_dropWhile]
    obtain ⟨hd, ht⟩ := dropWhile_append_eq_right_iff.1 (hsplit ▸ hdrop)
    have hv := congrArg Prod.fst h
    simp only [integer, hdrop] at hv
    split at hv
    · contradiction
    · next hends =>
        simp only [Bool.or_eq_true, Bool.not_eq_true', List.isEmpty_iff, not_or,
          Bool.not_eq_false] at hends
        exact ⟨_, hsplit, hends.1, hd, ht, hends.2, hv⟩
  · intro h
    obtain ⟨digits, hs, hne, hd, ht, hend, hv⟩ := h
    simp [integer, hs, takeWhile_append_eq_left hd ht, dropWhile_append_eq_right hd ht, hne, hend,
      hv]

/-- A digit is no sign. -/
theorem sign_digits {digits : List Char} (hne : digits ≠ [])
    (hd : ∀ c ∈ digits, Decimal.isDigit c = true) (t : List Char) :
    sign (digits ++ t) = (none, digits ++ t) := by
  obtain ⟨c, r, rfl⟩ := List.exists_cons_of_ne_nil hne
  have hdigit := hd c List.mem_cons_self
  have hplus : c ≠ '+' := fun he => absurd (he ▸ hdigit) (by decide)
  have hminus : c ≠ '-' := fun he => absurd (he ▸ hdigit) (by decide)
  simp [sign, hplus, hminus]

/-- The sign and the digits behind it are a decimal text, and a decimal text is a sign and digits
behind it. -/
theorem isDecimal_append_iff :
    (∃ w, s = w ++ t ∧ IsDecimal type.signed n w) ↔
      ∃ digits, (sign s).2 = digits ++ t ∧ digits ≠ [] ∧
        (∀ c ∈ digits, Decimal.isDigit c = true) ∧
        (if (sign s).1 = some '-' then type.signed = true ∧ n = -Decimal.number digits
          else n = Decimal.number digits) := by
  constructor
  · rintro ⟨w, rfl, hw⟩
    cases hw with
    | plain hne hd => exact ⟨w, by rw [sign_digits hne hd], hne, hd, by simp [sign_digits hne hd]⟩
    | plus hne hd => exact ⟨_, rfl, hne, hd, rfl⟩
    | minus hs hne hd => exact ⟨_, rfl, hne, hd, hs, rfl⟩
  · rintro ⟨digits, hr, hne, hd, hn⟩
    cases s with
    | nil => exact absurd (List.append_eq_nil_iff.1 hr.symm).1 hne
    | cons c s =>
        by_cases hc : c = '+' ∨ c = '-'
        · have hsign : sign (c :: s) = (some c, s) := by simp [sign, hc]
          rw [hsign] at hr hn
          subst hr
          refine ⟨c :: digits, rfl, ?_⟩
          rcases hc with rfl | rfl
          · obtain rfl : n = Decimal.number digits := hn
            exact .plus hne hd
          · obtain ⟨hs, rfl⟩ : type.signed = true ∧ n = -Decimal.number digits := hn
            exact .minus hs hne hd
        · have hsign : sign (c :: s) = (none, c :: s) := by simp [sign, hc]
          rw [hsign] at hr hn
          obtain rfl : n = Decimal.number digits := hn
          exact ⟨digits, hr, .plain hne hd⟩

/-- The reader accepts decimal texts of the type's numbers, up to the end of a token. -/
theorem integer_iff_isDecimal :
    integer type special s = (some n, t) ↔
      (∃ w, s = w ++ t ∧ IsDecimal type.signed n w) ∧
        (∀ c ∈ t.head?, Decimal.isDigit c = false) ∧ special.atTokenEnd t = true ∧
        type.holds n = true := by
  rw [isDecimal_append_iff, integer_eq_some_iff]
  constructor
  · rintro ⟨digits, hs, hne, hd, ht, hend, hv⟩
    obtain ⟨hv, hn⟩ := integerValue_eq_some_iff.1 hv
    exact ⟨⟨digits, hs, hne, hd, hv⟩, ht, hend, hn⟩
  · rintro ⟨⟨digits, hs, hne, hd, hv⟩, ht, hend, hn⟩
    exact ⟨digits, hs, hne, hd, ht, hend, integerValue_eq_some_iff.2 ⟨hv, hn⟩⟩

end Reader

theorem IntegerType.holds_iff {type : IntegerType} {n : Int} :
    type.holds n = true ↔ type.least ≤ n ∧ n ≤ type.greatest := by
  simp [IntegerType.holds]

/-- **Integers are exactly the decimal texts of the type's numbers.**  Whatever characters are
special, a text is read as an integer exactly if it starts with a sign or none and a maximal run of
digits that ends where a token ends, and if the number written so lies between the least and the
greatest of the type.  It is read as that number, and what follows the digits is left.  So each
number of the type, the least one included, is read from its own decimal text. -/
theorem reads_integer_iff_isDecimal (type : IntegerType) (special : SpecialSet) :
    (∀ s v t, (Parser.integer type).read special s = (some v, t) ↔
      ∃ n w, v = .integer n ∧ s = w ++ t ∧ IsDecimal type.signed n w ∧
        (∀ c ∈ t.head?, Decimal.isDigit c = false) ∧ special.atTokenEnd t = true ∧
        type.least ≤ n ∧ n ≤ type.greatest) ∧
      ∀ n, type.least ≤ n → n ≤ type.greatest →
        (Parser.integer type).read special (decimalText n) = (some (.integer n), []) := by
  have hread : ∀ s v t, (Parser.integer type).read special s = (some v, t) ↔
      ∃ n, Reader.integer type special s = (some n, t) ∧ Value.integer n = v := fun s v t => by
    rw [Parser.read, Reader.map_eq_some_iff]
  constructor
  · intro s v t
    rw [hread]
    constructor
    · rintro ⟨n, h, rfl⟩
      obtain ⟨⟨w, hs, hw⟩, ht, hend, hn⟩ := Reader.integer_iff_isDecimal.1 h
      exact ⟨n, w, rfl, hs, hw, ht, hend, IntegerType.holds_iff.1 hn⟩
    · rintro ⟨n, w, rfl, hs, hw, ht, hend, hn⟩
      exact ⟨n, Reader.integer_iff_isDecimal.2
        ⟨⟨w, hs, hw⟩, ht, hend, IntegerType.holds_iff.2 hn⟩, rfl⟩
  · intro n hleast hgreatest
    have hn : type.holds n = true := IntegerType.holds_iff.2 ⟨hleast, hgreatest⟩
    refine (hread _ _ _).2 ⟨n, Reader.integer_iff_isDecimal.2 ⟨⟨_, (List.append_nil _).symm,
      isDecimal_decimalText fun hneg => Reader.signed_of_holds hn hneg⟩, ?_, rfl, hn⟩, rfl⟩
    simp

/-- The least number of a type, with leading zeros and a bracket behind it. -/
theorem reads_integer_least :
    (Parser.integer .i8).read .builtIn ['-', '0', '1', '2', '8', ']'] =
      (some (.integer (-128)), [']']) :=
  ((reads_integer_iff_isDecimal .i8 .builtIn).1 _ _ _).2
    ⟨-128, ['-', '0', '1', '2', '8'], rfl, rfl,
      .minus rfl (List.cons_ne_nil '0' ['1', '2', '8']) (List.all_eq_true.1 rfl),
      fun _ hc => Option.some.inj hc ▸ rfl, rfl, by decide, by decide⟩

end TypedConsole
