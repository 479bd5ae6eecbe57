import TypedConsole.Text.Lowercase

/-!
# TypedConsole.Proofs.Lowercasing

Lower-casing twice is lower-casing once.  The form of a sigma depends on what stands around it, so
the two texts are not compared place by place: every character that lower-casing writes is
*lowered* (`isLowered`), and a text of such characters is its own lower case, whatever stands
around them.

That the runs of `lowercaseRuns` lead to lowered characters is checked on sets of code points, kept
as the bits of numbers (`capitalBits_and_smallBits`).
-/

namespace TypedConsole.Text

/-! ## sets of code points -/

theorem testBit_single (n : Nat) : (1 <<< n).testBit n = true := by
  rw [Nat.one_shiftLeft, Nat.testBit_two_pow_self]

/-- The first multiples of `step`, as the bits of a number. -/
def multipleBits (step : Nat) : Nat → Nat
  | 0 => 0
  | count + 1 => 1 ||| multipleBits step count <<< step

theorem testBit_multipleBits {step k count : Nat} (hk : k < count) :
    (multipleBits step count).testBit (step * k) = true := by
  induction count generalizing k with
  | zero => exact absurd hk (Nat.not_lt_zero k)
  | succ count ih =>
      rw [multipleBits, Nat.testBit_or, Bool.or_eq_true]
      cases k with
      | zero => exact .inl (Nat.testBit_one_zero)
      | succ k =>
          right
          rw [Nat.testBit_shiftLeft, Nat.mul_succ, Nat.add_sub_cancel, Bool.and_eq_true]
          exact ⟨decide_eq_true (Nat.le_add_left step _), ih (Nat.lt_of_succ_lt_succ hk)⟩

/-- The evenly spaced code points from `first` on. Most have no space between them, so that one
power of two has their bits. -/
def spacedBits (first step count : Nat) : Nat :=
  (if step = 1 then 1 <<< count - 1 else multipleBits step count) <<< first

theorem testBit_spacedBits {first step k count : Nat} (hk : k < count) :
    (spacedBits first step count).testBit (first + step * k) = true := by
  rw [spacedBits, Nat.testBit_shiftLeft, Nat.add_sub_cancel_left, Bool.and_eq_true]
  refine ⟨decide_eq_true (Nat.le_add_right first _), ?_⟩
  by_cases hstep : step = 1
  · rw [if_pos hstep, hstep, Nat.one_mul, Nat.one_shiftLeft, Nat.testBit_two_pow_sub_one]
    exact decide_eq_true hk
  · rw [if_neg hstep]
    exact testBit_multipleBits hk

/-- The union of sets. -/
def unionBits (sets : List Nat) : Nat := sets.foldr (· ||| ·) 0

theorem testBit_unionBits {sets : List Nat} {bits n : Nat} (hbits : bits ∈ sets)
    (hn : bits.testBit n = true) : (unionBits sets).testBit n = true := by
  induction sets with
  | nil => exact absurd hbits List.not_mem_nil
  | cons a sets ih =>
      show (a ||| unionBits sets).testBit n = true
      rw [Nat.testBit_or, Bool.or_eq_true]
      rcases List.mem_cons.1 hbits with rfl | hbits
      · exact .inl hn
      · exact .inr (ih hbits)

/-! ## the table -/

namespace CaseRun

/-- The number of code points of the run. -/
def count (a : CaseRun) : Nat := (a.last - a.first) / a.step + 1

/-- The code points of the run. -/
def bits (a : CaseRun) : Nat := spacedBits a.first a.step a.count

/-- The code points that the run leads to. -/
def lowerBits (a : CaseRun) : Nat := spacedBits (a.first + a.shift).toNat a.step a.count

theorem exists_of_covers {a : CaseRun} {n : Nat} (h : a.covers n = true) :
    ∃ k < a.count, n = a.first + a.step * k := by
  simp only [covers, Bool.and_eq_true, decide_eq_true_eq, beq_iff_eq] at h
  obtain ⟨⟨hfirst, hlast⟩, hstep⟩ := h
  refine ⟨(n - a.first) / a.step, ?_, ?_⟩
  · exact Nat.lt_succ_of_le (Nat.div_le_div_right (by omega))
  · rw [Nat.mul_div_cancel' (Nat.dvd_of_mod_eq_zero hstep)]
    omega

theorem testBit_bits {a : CaseRun} {n : Nat} (h : a.covers n = true) :
    a.bits.testBit n = true := by
  obtain ⟨k, hk, rfl⟩ := exists_of_covers h
  exact testBit_spacedBits hk

theorem testBit_lowerBits {a : CaseRun} {n : Nat} (hshift : 0 ≤ a.first + a.shift)
    (h : a.covers n = true) : a.lowerBits.testBit (n + a.shift).toNat = true := by
  obtain ⟨k, hk, rfl⟩ := exists_of_covers h
  have hplace : ((a.first + a.step * k : Nat) + a.shift).toNat
      = (a.first + a.shift).toNat + a.step * k := by omega
  rw [hplace]
  exact testBit_spacedBits hk

end CaseRun

/-- The code points with another lower case: those of the runs, and that of `İ`. -/
def capitalBits : Nat := unionBits (1 <<< 304 :: lowercaseRuns.map CaseRun.bits)

/-- The code points that no run leads to and lower-casing writes all the same: the null character,
the two that `İ` becomes, and the two small sigmas. -/
def otherSmall : List Nat := [0, 105, 775, 962, 963]

/-- The code points that lower-casing writes in the place of others. -/
def smallBits : Nat :=
  unionBits (otherSmall.map (1 <<< ·) ++ lowercaseRuns.map CaseRun.lowerBits)

/-- The first run has the capitals from A to Z, and the others lie behind ASCII; none leads below
the first code point. -/
theorem bounds_lowercaseRuns : ∀ run ∈ lowercaseRuns,
    (run.first = 65 ∧ run.last = 90 ∨ 128 ≤ run.first) ∧ 0 ≤ run.first + run.shift := by
  decide +kernel

/-- A capital sigma has another lower case, by the run of its neighbours. -/
theorem sigma_mem_lowercaseRuns : ⟨931, 939, 1, 32⟩ ∈ lowercaseRuns :=
  List.mem_of_getElem? (i := 70) rfl

/-- **What lower-casing writes in the place of others has no other lower case.** -/
theorem capitalBits_and_smallBits : capitalBits &&& smallBits = 0 := by decide +kernel

/-! ## lowered characters -/

/-- The character has no other lower case. -/
def isLowered (c : Char) : Bool :=
  c != 'İ' && lowercaseRuns.all fun run => !run.covers c.toNat

theorem isLowered_iff {c : Char} :
    isLowered c = true ↔ c ≠ 'İ' ∧ ∀ run ∈ lowercaseRuns, run.covers c.toNat = false := by
  simp [isLowered, List.all_eq_true]

theorem isLowered_of_testBit {c : Char} (h : smallBits.testBit c.toNat = true) :
    isLowered c = true := by
  have hcapital : ∀ {bits : Nat}, bits ∈ 1 <<< 304 :: lowercaseRuns.map CaseRun.bits →
      bits.testBit c.toNat ≠ true := by
    intro bits hbits hc
    have hboth : (capitalBits &&& smallBits).testBit c.toNat = true := by
      rw [Nat.testBit_and, h, Bool.and_true]
      exact testBit_unionBits hbits hc
    rw [capitalBits_and_smallBits, Nat.zero_testBit] at hboth
    exact Bool.false_ne_true hboth
  refine isLowered_iff.2 ⟨fun he => ?_, fun run hrun => ?_⟩
  · refine hcapital List.mem_cons_self ?_
    rw [he]
    exact testBit_single 304
  · rw [← Bool.not_eq_true]
    intro hcovers
    exact hcapital (List.mem_cons_of_mem _ (List.mem_map_of_mem hrun))
      (CaseRun.testBit_bits hcovers)

/-- The characters that lower-casing writes apart from the runs are lowered. -/
theorem isLowered_otherSmall {c : Char} (h : c.toNat ∈ otherSmall) : isLowered c = true := by
  refine isLowered_of_testBit (testBit_unionBits
    (List.mem_append_left _ (List.mem_map_of_mem h)) ?_)
  exact testBit_single c.toNat

/-- A run leads to lowered characters. -/
theorem isLowered_of_covers {run : CaseRun} (hrun : run ∈ lowercaseRuns) {n : Nat}
    (hn : run.covers n = true) : isLowered (Char.ofNat (n + run.shift).toNat) = true := by
  by_cases hvalid : (n + run.shift).toNat.isValidChar
  · refine isLowered_of_testBit (testBit_unionBits
      (List.mem_append_right _ (List.mem_map_of_mem hrun)) ?_)
    have htoNat : (Char.ofNat (n + run.shift).toNat).toNat = (n + run.shift).toNat := by
      rw [Char.ofNat, dif_pos hvalid]
      rfl
    rw [htoNat]
    exact CaseRun.testBit_lowerBits (bounds_lowercaseRuns run hrun).2 hn
  · rw [Char.ofNat, dif_neg hvalid]
    exact isLowered_otherSmall List.mem_cons_self

/-! ## characters -/

/-- A capital from A to Z moves to its small letter; every other character stays. -/
theorem toLower_cases (c : Char) :
    (65 ≤ c.toNat ∧ c.toNat ≤ 90) ∧ c.toLower.toNat = c.toNat + 32 ∨
      ¬(65 ≤ c.toNat ∧ c.toNat ≤ 90) ∧ c.toLower = c := by
  have hcapital : c.val ≥ 'A'.val ∧ c.val ≤ 'Z'.val ↔ 65 ≤ c.toNat ∧ c.toNat ≤ 90 := by
    simp only [ge_iff_le, UInt32.le_iff_toNat_le]
    rfl
  by_cases h : c.val ≥ 'A'.val ∧ c.val ≤ 'Z'.val
  · refine .inl ⟨hcapital.1 h, ?_⟩
    have hlower : c.toLower.val = c.val + ('a'.val - 'A'.val) := congrArg Char.val (dif_pos h)
    have hbound : c.val.toNat ≤ 90 := (hcapital.1 h).2
    show c.toLower.val.toNat = c.val.toNat + 32
    rw [hlower, UInt32.toNat_add]
    show (c.val.toNat + 32) % 4294967296 = c.val.toNat + 32
    omega
  · exact .inr ⟨fun hc => h (hcapital.2 hc), dif_neg h⟩

/-- Of ASCII, all but the capitals from A to Z are lowered. -/
theorem isLowered_ascii {c : Char} (hascii : c.toNat < 128)
    (hcapital : ¬(65 ≤ c.toNat ∧ c.toNat ≤ 90)) : isLowered c = true := by
  refine isLowered_iff.2 ⟨fun he => absurd (he ▸ hascii) (by decide), fun run hrun => ?_⟩
  simp only [CaseRun.covers, Bool.and_eq_false_iff, decide_eq_false_iff_not]
  have := (bounds_lowercaseRuns run hrun).1
  omega

/-- A lowered character is its own lower case. -/
theorem lowercaseChar_eq_self {c : Char} (h : isLowered c = true) : lowercaseChar c = [c] := by
  obtain ⟨hdotted, hruns⟩ := isLowered_iff.1 h
  rw [lowercaseChar]
  split
  · -- no run has the character, in particular not that of the capitals from A to Z
    have hfirst := hruns ⟨65, 90, 1, 32⟩ List.mem_cons_self
    simp only [CaseRun.covers, Nat.mod_one, BEq.rfl, Bool.and_true, Bool.and_eq_false_iff,
      decide_eq_false_iff_not] at hfirst
    rcases toLower_cases c with ⟨hcapital, -⟩ | ⟨-, hself⟩
    · omega
    · rw [hself]
  · rw [if_neg (by simpa using hdotted)]
    have hnone : lowercaseRuns.find? (·.covers c.toNat) = none :=
      List.find?_eq_none.2 fun run hrun => by simp [hruns run hrun]
    rw [hnone]

/-- **Lower-casing a character gives lowered characters.** -/
theorem isLowered_of_mem_lowercaseChar {c d : Char} (h : d ∈ lowercaseChar c) :
    isLowered d = true := by
  rw [lowercaseChar] at h
  split at h
  · next hascii =>
      rw [List.mem_singleton.1 h]
      rcases toLower_cases c with ⟨hcapital, hlower⟩ | ⟨hcapital, hself⟩
      · exact isLowered_ascii (by omega) (by omega)
      · rw [hself]
        exact isLowered_ascii hascii hcapital
  · split at h
    · simp only [List.mem_cons, List.not_mem_nil, or_false] at h
      rcases h with rfl | rfl
      · exact isLowered_otherSmall (by decide)
      · exact isLowered_otherSmall (by decide)
    · next hdotted =>
        split at h
        · next run hrun =>
            obtain rfl := List.mem_singleton.1 h
            have hcovers := List.find?_some hrun
            exact isLowered_of_covers (List.mem_of_find?_eq_some hrun) hcovers
        · next hnone =>
            obtain rfl := List.mem_singleton.1 h
            refine isLowered_iff.2 ⟨by simpa using hdotted, fun run hrun => ?_⟩
            simpa using List.find?_eq_none.1 hnone run hrun

/-! ## texts -/

theorem isLowered_of_mem_lowercaseFrom {before s : List Char} {d : Char}
    (h : d ∈ lowercaseFrom before s) : isLowered d = true := by
  induction s generalizing before with
  | nil => exact absurd h List.not_mem_nil
  | cons c s ih =>
      rw [lowercaseFrom] at h
      rcases List.mem_append.1 h with h | h
      · split at h
        · rw [List.mem_singleton.1 h]
          split
          · exact isLowered_otherSmall (by decide)
          · exact isLowered_otherSmall (by decide)
        · exact isLowered_of_mem_lowercaseChar h
      · exact ih h

/-- A text of lowered characters is its own lower case. -/
theorem lowercaseFrom_eq_self {s : List Char} (h : ∀ c ∈ s, isLowered c = true)
    (before : List Char) : lowercaseFrom before s = s := by
  induction s generalizing before with
  | nil => rfl
  | cons c s ih =>
      have hc := h c List.mem_cons_self
      have hsigma : (c == 'Σ') = false := by
        rw [beq_eq_false_iff_ne]
        rintro rfl
        have hcovers := (isLowered_iff.1 hc).2 _ sigma_mem_lowercaseRuns
        exact absurd hcovers (by decide)
      rw [lowercaseFrom, ih fun d hd => h d (List.mem_cons_of_mem c hd)]
      simp only [hsigma, lowercaseChar_eq_self hc]
      rfl

/-- **Lower-casing twice is lower-casing once.** -/
theorem lowercase_lowercase (s : String) : lowercase (lowercase s) = lowercase s := by
  have hlowered : lowercaseFrom [] (lowercase s).toList = (lowercase s).toList := by
    refine lowercaseFrom_eq_self (fun c hc => ?_) []
    rw [lowercase, String.toList_ofList] at hc
    exact isLowered_of_mem_lowercaseFrom hc
  rw [lowercase, hlowered, String.ofList_toList]

end TypedConsole.Text
