import TypedConsole.Reader.Scalar
import TypedConsole.Proofs.Spans

/-!
# TypedConsole.Proofs.Scalars

What the scalar readers claim: always characters from the front, and at least one on success.

Each reader has a `claims_` lemma for every text and a `consumes_` lemma for its successes; the
readers of groups and records only use these.
-/

namespace TypedConsole.Reader

/-! ## reading at all -/

/-- A reader that claims something whenever it succeeds. -/
def Consumes (r : Reader α) : Prop := ∀ s v t, r s = (some v, t) → t.length < s.length

/-- A reader that always claims something makes progress wherever it stands. -/
theorem Consumes.progresses {r : Reader α} (h : r.Consumes) : r.Progresses :=
  fun c s v t _ hr => h (c :: s) v t hr

theorem mapOption_eq_some_iff {r : Reader α} {f : α → Option β} {s t : List Char} {w : β} :
    r.mapOption f s = (some w, t) ↔ ∃ v, r s = (some v, t) ∧ f v = some w := by
  simp only [mapOption, Prod.mk.injEq, Option.bind_eq_some_iff]
  constructor
  · intro h
    obtain ⟨⟨v, hv, hf⟩, ht⟩ := h
    exact ⟨v, Prod.ext hv ht, hf⟩
  · intro h
    obtain ⟨v, hr, hf⟩ := h
    rw [hr]
    exact ⟨⟨v, rfl, hf⟩, rfl⟩

theorem map_eq_some_iff {r : Reader α} {f : α → β} {s t : List Char} {w : β} :
    r.map f s = (some w, t) ↔ ∃ v, r s = (some v, t) ∧ f v = w := by
  rw [map, mapOption_eq_some_iff]
  simp

theorem Consumes.mapOption {r : Reader α} (h : r.Consumes) (f : α → Option β) :
    (r.mapOption f).Consumes := by
  intro s w t hr
  obtain ⟨v, hv, -⟩ := mapOption_eq_some_iff.1 hr
  exact h s v t hv

theorem Consumes.map {r : Reader α} (h : r.Consumes) (f : α → β) : (r.map f).Consumes :=
  h.mapOption (some ∘ f)

/-! ## strings -/

theorem claims_quotedText (quote : Char) : (quotedText quote).Claims := by
  intro s
  fun_induction quotedText quote s with
  | case1 => exact List.suffix_refl _
  | case2 s v t h ih =>
      rw [h] at ih
      exact ih.trans ((List.suffix_cons _ _).trans (List.suffix_cons _ _))
  | case3 c s _ v t h ih =>
      rw [h] at ih
      exact ih.trans (List.suffix_cons _ _)
  | case4 s _ => exact List.suffix_cons _ _
  | case5 c s _ _ v t h ih =>
      rw [h] at ih
      exact ih.trans (List.suffix_cons _ _)

/-- A closing quote is claimed. -/
theorem consumes_quotedText (quote : Char) : (quotedText quote).Consumes := by
  intro s v t h
  fun_induction quotedText quote s generalizing v t with
  | case1 => simp at h
  | case2 s w u hw ih =>
      obtain ⟨hv, rfl⟩ := Prod.mk.inj h
      obtain ⟨a, ha, -⟩ := Option.map_eq_some_iff.1 hv
      have hlt := ih a u (by rw [hw, ha])
      simp only [List.length_cons]
      omega
  | case3 c s _ w u hw ih =>
      obtain ⟨hv, rfl⟩ := Prod.mk.inj h
      obtain ⟨a, ha, -⟩ := Option.map_eq_some_iff.1 hv
      exact (ih a u (by rw [hw, ha])).trans (Nat.lt_succ_self _)
  | case4 s _ =>
      obtain ⟨-, rfl⟩ := Prod.mk.inj h
      exact Nat.lt_succ_self _
  | case5 c s _ _ w u hw ih =>
      obtain ⟨hv, rfl⟩ := Prod.mk.inj h
      obtain ⟨a, ha, -⟩ := Option.map_eq_some_iff.1 hv
      exact (ih a u (by rw [hw, ha])).trans (Nat.lt_succ_self _)

theorem quotedText_escaped (quote : Char) (s : List Char) :
    quotedText quote ('\\' :: quote :: s) =
      ((quotedText quote s).1.map (quote :: ·), (quotedText quote s).2) := by
  rw [quotedText, if_pos rfl]

theorem quotedText_backslash {quote c : Char} (hc : c ≠ quote) (s : List Char) :
    quotedText quote ('\\' :: c :: s) =
      ((quotedText quote (c :: s)).1.map ('\\' :: ·), (quotedText quote (c :: s)).2) := by
  rw [quotedText, if_neg hc]

theorem quotedText_quote {quote : Char} (hq : quote ≠ '\\') (s : List Char) :
    quotedText quote (quote :: s) = (some [], s) := by
  rw [quotedText, if_pos rfl]
  exact fun c r h _ => hq h

theorem quotedText_char {quote c : Char} (hc : c ≠ quote) (hb : c ≠ '\\') (s : List Char) :
    quotedText quote (c :: s) =
      ((quotedText quote s).1.map (c :: ·), (quotedText quote s).2) := by
  rw [quotedText, if_neg hc]
  exact fun a r h _ => hb h

/-- A text is at the end of a token exactly if its first character ends one. -/
theorem atTokenEnd_iff {special : SpecialSet} {s : List Char} :
    special.atTokenEnd s = true ↔ ∀ c ∈ s.head?, special.terminates c = true := by
  cases s <;> simp [SpecialSet.atTokenEnd]

/-- A token leaves what follows it. -/
theorem token_suffix (special : SpecialSet) (s : List Char) : (token special s).2 <:+ s :=
  List.dropWhile_suffix _

/-- A token that is not empty has claimed its characters. -/
theorem length_token_lt {special : SpecialSet} {s : List Char} (h : (token special s).1 ≠ []) :
    (token special s).2.length < s.length := by
  have hsplit : (token special s).1 ++ (token special s).2 = s := List.takeWhile_append_dropWhile
  have hpos : 0 < (token special s).1.length := List.length_pos_iff.2 h
  rw [← List.length_append.symm.trans (congrArg List.length hsplit)]
  omega

theorem claims_string (special : SpecialSet) : (string special).Claims := by
  intro s
  cases s with
  | nil => exact List.suffix_refl _
  | cons c s =>
      simp only [string]
      split
      · exact (claims_quotedText c s).trans (List.suffix_cons _ _)
      · exact token_suffix special (c :: s)

theorem consumes_string (special : SpecialSet) : (string special).Consumes := by
  intro s v t h
  cases s with
  | nil => simp [string] at h
  | cons c s =>
      simp only [string] at h
      split at h
      · have ht : (quotedText c s).2 = t := congrArg Prod.snd h
        rw [← ht, List.length_cons]
        exact Nat.lt_succ_of_le (claims_quotedText c s).length_le
      · have ht : (token special (c :: s)).2 = t := congrArg Prod.snd h
        have hv := congrArg Prod.fst h
        rw [← ht]
        refine length_token_lt fun he => ?_
        simp [he] at hv

/-! ## characters and truth values -/

theorem claims_char (special : SpecialSet) : (char special).Claims := by
  intro s
  cases s with
  | nil => exact List.suffix_refl _
  | cons c s =>
      simp only [char]
      split
      · exact List.suffix_refl _
      · exact List.suffix_cons _ _

theorem consumes_char (special : SpecialSet) : (char special).Consumes := by
  intro s v t h
  cases s with
  | nil => simp [char] at h
  | cons c s =>
      simp only [char] at h
      split at h
      · simp at h
      · have ht : s = t := congrArg Prod.snd h
        simp [ht]

theorem claims_bool (special : SpecialSet) : (bool special).Claims := fun s =>
  token_suffix special s

theorem truthValue_empty : truthValue (Text.lowercase (String.ofList [])) = none := by decide

theorem consumes_bool (special : SpecialSet) : (bool special).Consumes := by
  intro s v t h
  rw [bool, Prod.mk.injEq] at h
  obtain ⟨hv, rfl⟩ := h
  refine length_token_lt fun he => ?_
  rw [he, truthValue_empty] at hv
  contradiction

/-! ## numbers -/

theorem sign_suffix (s : List Char) : (sign s).2 <:+ s := by
  cases s with
  | nil => exact List.suffix_refl _
  | cons c s =>
      simp only [sign]
      split
      · exact List.suffix_cons _ _
      · exact List.suffix_refl _

theorem integer_snd (type : IntegerType) (special : SpecialSet) (s : List Char) :
    (integer type special s).2 = (sign s).2.dropWhile Decimal.isDigit := by
  simp only [integer]
  split <;> rfl

theorem claims_integer (type : IntegerType) (special : SpecialSet) :
    (integer type special).Claims := by
  intro s
  rw [integer_snd]
  exact (List.dropWhile_suffix _).trans (sign_suffix s)

theorem consumes_integer (type : IntegerType) (special : SpecialSet) :
    (integer type special).Consumes := by
  intro s v t h
  have ht : (integer type special s).2 = t := congrArg Prod.snd h
  rw [integer_snd] at ht
  have hdigits : (sign s).2.takeWhile Decimal.isDigit ≠ [] := fun he => by
    simp [integer, he] at h
  have hsplit := congrArg List.length
    (List.takeWhile_append_dropWhile (p := Decimal.isDigit) (l := (sign s).2))
  have hpos := List.length_pos_iff.2 hdigits
  have hle := (sign_suffix s).length_le
  rw [List.length_append, ht] at hsplit
  omega

/-- A decimal is its digits, perhaps a point between them, and what follows. -/
theorem decimal_eq (s : List Char) :
    ∃ point, point.length ≤ 1 ∧
      s = (decimal s).1 ++ point ++ (decimal s).2.1 ++ (decimal s).2.2 := by
  have hsplit := (List.takeWhile_append_dropWhile (p := Decimal.isDigit) (l := s)).symm
  simp only [decimal]
  split
  · next r hr =>
      refine ⟨['.'], Nat.le_refl _, ?_⟩
      rw [List.append_assoc, List.append_assoc, List.takeWhile_append_dropWhile,
        List.singleton_append, ← hr]
      exact hsplit
  · exact ⟨[], Nat.zero_le _, by simp⟩

theorem decimal_suffix (s : List Char) : (decimal s).2.2 <:+ s := by
  obtain ⟨point, -, h⟩ := decimal_eq s
  exact ⟨_, h.symm⟩

theorem float_snd (type : FloatType) (special : SpecialSet) (s : List Char) :
    (float type special s).2 = (decimal (sign s).2).2.2 := by
  simp only [float]
  split <;> rfl

theorem claims_float (type : FloatType) (special : SpecialSet) : (float type special).Claims := by
  intro s
  rw [float_snd]
  exact (decimal_suffix _).trans (sign_suffix s)

theorem consumes_float (type : FloatType) (special : SpecialSet) :
    (float type special).Consumes := by
  intro s v t h
  have ht : (float type special s).2 = t := congrArg Prod.snd h
  rw [float_snd] at ht
  have hdigits : (decimal (sign s).2).1 ++ (decimal (sign s).2).2.1 ≠ [] := fun he => by
    simp only [float, he] at h
    simp at h
  obtain ⟨point, -, hsplit⟩ := decimal_eq (sign s).2
  have hlength := congrArg List.length hsplit
  have hpos := List.length_pos_iff.2 hdigits
  have hle := (sign_suffix s).length_le
  rw [ht] at hlength
  simp only [List.length_append] at hlength hpos
  omega

end TypedConsole.Reader
