import TypedConsole.Proofs.Building
import TypedConsole.Proofs.Claims
import TypedConsole.Proofs.Resolution

/-!
# TypedConsole.Proofs.Lookahead

How much of what follows a literal decides how it is read.  A reader that has read `x` in front of
`y` reads the same in front of any `z` that starts with the same character as `y`, or with one
that ends every token: the parsers that resolution makes look one character ahead and no further.

`Carries` is the statement about one `y` and one `z`.  Quoted strings and groups carry over to
any text, since they end with a character of their own; the other scalars look at the first
character of what follows; optional values, pairs and records inherit it from their parts.
-/

namespace TypedConsole

/-! ## what may follow -/

/-- The text is empty, or starts with a blank, or with a special character that is part of no
number. -/
def SpecialSet.Stops (special : SpecialSet) (z : List Char) : Prop :=
  ∀ c ∈ z.head?, Text.isBlank c = true ∨
    (special.contains c = true ∧ Decimal.isDigit c = false ∧ c ≠ '.')

/-- The text `z` may stand in place of `y`: it starts with the same character, or stops every
token. -/
def SpecialSet.Replaces (special : SpecialSet) (y z : List Char) : Prop :=
  (∃ c y' z', y = c :: y' ∧ z = c :: z') ∨ special.Stops z

namespace SpecialSet

variable {special : SpecialSet} {y z : List Char}

theorem replaces_cons (special : SpecialSet) (c : Char) (y z : List Char) :
    special.Replaces (c :: y) (c :: z) := .inl ⟨c, y, z, rfl, rfl⟩

/-- What holds of the first character of `y` and of every character that stops a token holds of
the first character of `z`. -/
theorem Replaces.head {P : Char → Prop} (h : special.Replaces y z) (hy : ∀ c ∈ y.head?, P c)
    (hblank : ∀ c, Text.isBlank c = true → P c)
    (hspecial : ∀ c, special.contains c = true → Decimal.isDigit c = false → c ≠ '.' → P c) :
    ∀ c ∈ z.head?, P c := by
  rcases h with ⟨c, y', z', rfl, rfl⟩ | hstops
  · exact hy
  · intro c hc
    rcases hstops c hc with hb | ⟨hs, hd, hp⟩
    · exact hblank c hb
    · exact hspecial c hs hd hp

theorem Replaces.atTokenEnd (h : special.Replaces y z) (hy : special.atTokenEnd y = true) :
    special.atTokenEnd z = true := by
  rw [Reader.atTokenEnd_iff] at hy ⊢
  refine h.head hy (fun c hb => ?_) fun c hs _ _ => ?_
  · simp [terminates, hb]
  · simp [terminates, hs]

theorem Replaces.notDigit (h : special.Replaces y z)
    (hy : ∀ c ∈ y.head?, Decimal.isDigit c = false) :
    ∀ c ∈ z.head?, Decimal.isDigit c = false :=
  h.head hy (fun _ => Text.isDigit_of_isBlank) fun _ _ hd _ => hd

end SpecialSet

namespace Reader

/-! ## carrying over -/

/-- Whatever the reader reads in front of `y` it reads in front of `z`. -/
def Carries (r : Reader α) (y z : List Char) : Prop :=
  ∀ x v, r (x ++ y) = (some v, y) → r (x ++ z) = (some v, z)

theorem Carries.mapOption {r : Reader α} {y z : List Char} (h : r.Carries y z)
    (f : α → Option β) : (r.mapOption f).Carries y z := by
  intro x w hr
  obtain ⟨v, hv, hf⟩ := mapOption_eq_some_iff.1 hr
  exact mapOption_eq_some_iff.2 ⟨v, h x v hv, hf⟩

theorem Carries.map {r : Reader α} {y z : List Char} (h : r.Carries y z) (f : α → β) :
    (r.map f).Carries y z := h.mapOption (some ∘ f)

/-- What a reader claims in front of `y` starts with the first character of the text. -/
theorem exists_cons_of_append {x y s : List Char} {c : Char} (h : x ++ y = c :: s)
    (hy : y.length < (c :: s).length) : ∃ x', x = c :: x' ∧ s = x' ++ y := by
  cases x with
  | nil =>
      rw [← h, List.nil_append] at hy
      exact absurd hy (Nat.lt_irrefl _)
  | cons a x =>
      obtain ⟨rfl, rfl⟩ := List.cons.inj h
      exact ⟨x, rfl, rfl⟩

/-! ## strings and characters -/

/-- A quoted text ends with its quote, whatever follows. -/
theorem carries_quotedText {quote : Char} (hq : quote ≠ '\\') (y z : List Char) :
    (quotedText quote).Carries y z := by
  intro x v h
  have hlt := consumes_quotedText quote _ _ _ h
  generalize hs : x ++ y = s at h hlt
  fun_induction quotedText quote s generalizing x v with
  | case1 => simp at h
  | case2 s w u hw ih =>
      obtain ⟨hv, rfl⟩ := Prod.mk.inj h
      obtain ⟨a, rfl, rfl⟩ := Option.map_eq_some_iff.1 hv
      have hlt' := consumes_quotedText quote s a u hw
      obtain ⟨x₁, rfl, hs₁⟩ := exists_cons_of_append hs hlt
      obtain ⟨x₂, rfl, rfl⟩ := exists_cons_of_append hs₁.symm (Nat.lt_succ_of_lt hlt')
      have hrest := ih x₂ a rfl (hw ▸ rfl) hlt'
      simp only [List.cons_append, quotedText_escaped, hrest, Option.map_some]
  | case3 c s hc w u hw ih =>
      obtain ⟨hv, rfl⟩ := Prod.mk.inj h
      obtain ⟨a, rfl, rfl⟩ := Option.map_eq_some_iff.1 hv
      have hlt' := consumes_quotedText quote _ a u hw
      obtain ⟨x₁, rfl, hs₁⟩ := exists_cons_of_append hs hlt
      obtain ⟨x₂, rfl, rfl⟩ := exists_cons_of_append hs₁.symm hlt'
      have hrest := ih (c :: x₂) a rfl (hw ▸ rfl) hlt'
      simp only [List.cons_append] at hrest ⊢
      simp only [quotedText_backslash hc, hrest, Option.map_some]
  | case4 s _ =>
      obtain ⟨hv, rfl⟩ := Prod.mk.inj h
      obtain rfl := Option.some.inj hv
      obtain ⟨x₁, rfl, hs₁⟩ := exists_cons_of_append hs hlt
      obtain rfl : x₁ = [] := List.append_left_eq_self.1 hs₁.symm
      exact quotedText_quote hq z
  | case5 c s hb hc w u hw ih =>
      obtain ⟨hv, rfl⟩ := Prod.mk.inj h
      obtain ⟨a, rfl, rfl⟩ := Option.map_eq_some_iff.1 hv
      have hlt' := consumes_quotedText quote s a u hw
      obtain ⟨x₁, rfl, rfl⟩ := exists_cons_of_append hs hlt
      have hrest := ih x₁ a rfl (hw ▸ rfl) hlt'
      have hne : c ≠ '\\' := fun he => by
        cases hx : x₁ ++ u with
        | nil => simp [hx] at hlt'
        | cons b r => exact hb b r he hx
      simp only [List.cons_append, quotedText_char hc hne, hrest, Option.map_some]

/-- A token ends in front of `z` if it ends in front of `y`. -/
theorem token_append {special : SpecialSet} {x y z : List Char}
    (h : (token special (x ++ y)).2 = y) (hz : special.Replaces y z) :
    token special (x ++ y) = (x, y) ∧ token special (x ++ z) = (x, z) := by
  obtain ⟨hx, hy⟩ := dropWhile_append_eq_right_iff.1 h
  have hz' : ∀ c ∈ z.head?, (!special.terminates c) = false :=
    hz.head hy (fun c hb => by simp [SpecialSet.terminates, hb])
      fun c hs _ _ => by simp [SpecialSet.terminates, hs]
  constructor
  · exact Prod.ext (takeWhile_append_eq_left hx hy) h
  · exact Prod.ext (takeWhile_append_eq_left hx hz') (dropWhile_append_eq_right hx hz')

theorem carries_string {special : SpecialSet} {y z : List Char} (hz : special.Replaces y z) :
    (string special).Carries y z := by
  intro x v h
  have hlt := consumes_string special _ v y h
  cases x with
  | nil => exact absurd hlt (Nat.lt_irrefl _)
  | cons c x =>
      rw [List.cons_append] at h ⊢
      simp only [string] at h ⊢
      by_cases hc : (c = '"' || c = '\'') = true
      · rw [if_pos hc] at h ⊢
        obtain ⟨hv, hy⟩ := Prod.mk.inj h
        obtain ⟨w, hw, rfl⟩ := Option.map_eq_some_iff.1 hv
        have hq : c ≠ '\\' := fun he => by
          subst he
          exact absurd hc (by decide)
        rw [carries_quotedText hq y z x w (Prod.ext hw hy)]
        rfl
      · rw [if_neg hc] at h ⊢
        obtain ⟨hv, hy⟩ := Prod.mk.inj h
        rw [← List.cons_append] at hv hy ⊢
        obtain ⟨hword, hword'⟩ := token_append hy hz
        rw [hword] at hv
        rw [hword', ← hv]

theorem carries_char {special : SpecialSet} {y z : List Char} (hz : special.Replaces y z) :
    (char special).Carries y z := by
  intro x v h
  have hlt := consumes_char special _ v y h
  cases x with
  | nil => exact absurd hlt (Nat.lt_irrefl _)
  | cons c x =>
      rw [List.cons_append] at h ⊢
      simp only [char] at h ⊢
      split at h
      · simp at h
      · next hc =>
          obtain ⟨hv, hy⟩ := Prod.mk.inj h
          obtain rfl : x = [] := List.append_left_eq_self.1 hy
          rw [if_neg hc]
          rw [List.nil_append] at hv ⊢
          split at hv
          · next hend => rw [if_pos (hz.atTokenEnd hend), ← hv]
          · contradiction

theorem carries_bool {special : SpecialSet} {y z : List Char} (hz : special.Replaces y z) :
    (bool special).Carries y z := by
  intro x v h
  simp only [bool] at h ⊢
  obtain ⟨hv, hy⟩ := Prod.mk.inj h
  obtain ⟨hword, hword'⟩ := token_append hy hz
  rw [hword] at hv
  rw [hword', ← hv]

/-! ## numbers -/

/-- The sign of a number does not depend on what follows the number. -/
theorem sign_append {x : List Char} (hx : x ≠ []) (y : List Char) :
    sign (x ++ y) = ((sign x).1, (sign x).2 ++ y) := by
  cases x with
  | nil => contradiction
  | cons c x =>
      simp only [List.cons_append, sign]
      split <;> rfl

theorem ne_nil_of_read {r : Reader α} (hr : r.Consumes) {x y : List Char} {v : α}
    (h : r (x ++ y) = (some v, y)) : x ≠ [] := fun he => by
  subst he
  exact absurd (hr _ v y h) (Nat.lt_irrefl _)

theorem carries_integer {type : IntegerType} {special : SpecialSet} {y z : List Char}
    (hz : special.Replaces y z) : (integer type special).Carries y z := by
  intro x v h
  have hx := ne_nil_of_read (consumes_integer type special) h
  simp only [integer, sign_append hx] at h ⊢
  have hdrop : ((sign x).2 ++ y).dropWhile Decimal.isDigit = y := by
    split at h
    · simp at h
    · exact congrArg Prod.snd h
  obtain ⟨hdigits, hy⟩ := dropWhile_append_eq_right_iff.1 hdrop
  have hz' := hz.notDigit hy
  rw [takeWhile_append_eq_left hdigits hy, hdrop] at h
  rw [takeWhile_append_eq_left hdigits hz', dropWhile_append_eq_right hdigits hz']
  split at h
  · simp at h
  · next hc =>
      simp only [Bool.or_eq_true, Bool.not_eq_true', not_or, Bool.not_eq_true,
        Bool.not_eq_false] at hc
      rw [if_neg (by simp [hc.1, hz.atTokenEnd hc.2]), (Prod.mk.inj h).1]

theorem decimal_of_point {w : List Char} (hw : ∀ c ∈ w, Decimal.isDigit c = true) (s : List Char) :
    decimal (w ++ '.' :: s) =
      (w, s.takeWhile Decimal.isDigit, s.dropWhile Decimal.isDigit) := by
  have hpoint : ∀ c ∈ ('.' :: s).head?, Decimal.isDigit c = false := fun c hc => by
    obtain rfl := Option.some.inj hc
    decide
  rw [decimal, takeWhile_append_eq_left hw hpoint, dropWhile_append_eq_right hw hpoint]
  rfl

theorem decimal_of_whole {w s : List Char} (hw : ∀ c ∈ w, Decimal.isDigit c = true)
    (hs : ∀ c ∈ s.head?, Decimal.isDigit c = false ∧ c ≠ '.') : decimal (w ++ s) = (w, [], s) := by
  have hdigit : ∀ c ∈ s.head?, Decimal.isDigit c = false := fun c hc => (hs c hc).1
  rw [decimal, takeWhile_append_eq_left hw hdigit, dropWhile_append_eq_right hw hdigit]
  split
  · exact absurd rfl (hs '.' rfl).2
  · rfl

/-- A decimal ends in front of `z` if it ends in front of `y`. -/
theorem decimal_append {special : SpecialSet} {x y z : List Char}
    (h : (decimal (x ++ y)).2.2 = y) (hz : special.Replaces y z) :
    decimal (x ++ z) = ((decimal (x ++ y)).1, (decimal (x ++ y)).2.1, z) := by
  have hsplit := List.takeWhile_append_dropWhile (p := Decimal.isDigit) (l := x ++ y)
  have hdigits : ∀ c ∈ (x ++ y).takeWhile Decimal.isDigit, Decimal.isDigit c = true :=
    fun _ hc => List.mem_takeWhile_imp hc
  generalize (x ++ y).takeWhile Decimal.isDigit = w at hsplit hdigits
  have hend := List.head?_dropWhile_not Decimal.isDigit (x ++ y)
  generalize (x ++ y).dropWhile Decimal.isDigit = s at hsplit hend
  by_cases hs : ∃ r, s = '.' :: r
  · obtain ⟨r, rfl⟩ := hs
    rw [← hsplit, decimal_of_point hdigits] at h ⊢
    simp only at h ⊢
    have hfraction := List.takeWhile_append_dropWhile (p := Decimal.isDigit) (l := r)
    rw [h] at hfraction
    have hr : (r.takeWhile Decimal.isDigit ++ y).dropWhile Decimal.isDigit = y := by
      rw [hfraction, h]
    obtain ⟨hf, hy⟩ := dropWhile_append_eq_right_iff.1 hr
    have hz' := hz.notDigit hy
    have hx : x ++ y = (w ++ '.' :: r.takeWhile Decimal.isDigit) ++ y := by
      rw [← hsplit, List.append_assoc, List.cons_append, hfraction]
    obtain rfl : x = w ++ '.' :: r.takeWhile Decimal.isDigit := List.append_cancel_right hx
    rw [List.append_assoc, List.cons_append, decimal_of_point hdigits,
      takeWhile_append_eq_left hf hz', dropWhile_append_eq_right hf hz']
  · have hs' : ∀ c ∈ s.head?, Decimal.isDigit c = false ∧ c ≠ '.' := fun c hc => by
      cases s with
      | nil => simp at hc
      | cons a s =>
          obtain rfl := Option.some.inj hc
          exact ⟨by simpa using hend, fun he => hs ⟨s, by rw [he]⟩⟩
    rw [← hsplit, decimal_of_whole hdigits hs'] at h ⊢
    simp only at h ⊢
    subst h
    obtain rfl : w = x := List.append_cancel_right hsplit
    refine decimal_of_whole hdigits (hz.head hs' (fun c hb => ?_) fun c _ hd hp => ⟨hd, hp⟩)
    refine ⟨Text.isDigit_of_isBlank hb, fun he => ?_⟩
    subst he
    exact absurd hb (by decide)

theorem carries_float {type : FloatType} {special : SpecialSet} {y z : List Char}
    (hz : special.Replaces y z) : (float type special).Carries y z := by
  intro x v h
  have hx := ne_nil_of_read (consumes_float type special) h
  simp only [float, sign_append hx] at h ⊢
  have hrest : (decimal ((sign x).2 ++ y)).2.2 = y := by
    split at h
    · simp at h
    · exact congrArg Prod.snd h
  rw [hrest] at h
  rw [decimal_append hrest hz]
  split at h
  · simp at h
  · next hc =>
      simp only [Bool.or_eq_true, Bool.not_eq_true', not_or, Bool.not_eq_true,
        Bool.not_eq_false] at hc
      simp only
      rw [if_neg (by simp [hc.1, hz.atTokenEnd hc.2]), (Prod.mk.inj h).1]

/-! ## groups -/

section Groups

variable {closing separator : Char} {element : Nat → Reader α}

/-- A reader that only looks at the first character behind a literal looks at no other one. -/
theorem carries_append {r : Reader α} (h : ∀ c y z, r.Carries (c :: y) (c :: z)) {w : List Char}
    (hw : w ≠ []) (y z : List Char) : r.Carries (w ++ y) (w ++ z) := by
  cases w with
  | nil => contradiction
  | cons c w => exact h c (w ++ y) (w ++ z)

/-- An element of a group, and the character `d` that comes next, are the same whatever follows
the text `x` behind that character. -/
theorem element_carries {r : Reader α} (hclaims : r.Claims)
    (hr : ∀ c y z, r.Carries (c :: y) (c :: z)) {s t u x v : List Char} {c d : Char} {a : α}
    (hs : Text.skipBlanks s = c :: t) (hread : r (c :: t) = (some a, u))
    (hlt : u.length < (c :: t).length) (hu : Text.skipBlanks u = d :: (x ++ v)) :
    ∃ w, w ≠ [] ∧ s = w ++ v ∧ ∀ z, ∃ t' u', Text.skipBlanks (w ++ z) = c :: t' ∧
      r (c :: t') = (some a, u') ∧ u'.length < (c :: t').length ∧
      Text.skipBlanks u' = d :: (x ++ z) := by
  obtain ⟨b₁, hb₁, rfl, hc⟩ := Text.skipBlanks_eq_cons_iff.1 hs
  obtain ⟨b₂, hb₂, rfl, hd⟩ := Text.skipBlanks_eq_cons_iff.1 hu
  have hbehind : b₂ ++ d :: (x ++ v) = b₂ ++ d :: x ++ v := by simp
  rw [hbehind] at hread hlt
  have hsuffix := hclaims (c :: t)
  rw [hread] at hsuffix
  obtain ⟨e, he⟩ := hsuffix
  obtain ⟨e, rfl, rfl⟩ := exists_cons_of_append he hlt
  refine ⟨b₁ ++ c :: (e ++ (b₂ ++ d :: x)), by simp, by simp, fun z => ?_⟩
  refine ⟨e ++ (b₂ ++ d :: x ++ z), b₂ ++ d :: x ++ z, ?_, ?_, ?_, ?_⟩
  · rw [List.append_assoc, List.cons_append, Text.skipBlanks_append_cons hb₁ hc, List.append_assoc]
  · exact carries_append hr (by simp) v z (c :: e) a hread
  · simp only [List.length_cons, List.length_append]
    omega
  · rw [List.append_assoc, List.cons_append, Text.skipBlanks_append_cons hb₂ hd]

/-- The members of a group up to its closing character are the same in front of any text, if what
stands behind an element only matters by its first character. -/
theorem Members.carries (hclaims : ∀ i, (element i).Claims)
    (he : ∀ i c y z, (element i).Carries (c :: y) (c :: z)) {i : Nat} {b : Bool}
    {s y : List Char} {as : List α} (h : Members closing separator element i b s as y) :
    ∃ x, x ≠ [] ∧ s = x ++ y ∧ ∀ z, Members closing separator element i b (x ++ z) as z := by
  induction h with
  | close hs =>
      obtain ⟨b, hb, rfl, hc⟩ := Text.skipBlanks_eq_cons_iff.1 hs
      refine ⟨b ++ [closing], by simp, by simp, fun z => .close (r := z) ?_⟩
      rw [List.append_assoc]
      exact Text.skipBlanks_append_cons hb hc
  | separated hs hclose hsep hread hlt hu rest ih =>
      obtain ⟨x, -, rfl, hx⟩ := ih
      obtain ⟨w, hne, hw, hz⟩ := element_carries (hclaims _) (he _) hs hread hlt hu
      refine ⟨w, hne, hw, fun z => ?_⟩
      obtain ⟨t', u', hs', hread', hlt', hu'⟩ := hz z
      exact .separated hs' hclose hsep hread' hlt' hu' (hx z)
  | adjacent hs hclose hsep hread hlt hu hd rest ih =>
      -- the next element starts with the character that is no separator
      obtain ⟨x, hxne, hxu, hx⟩ := ih
      obtain ⟨a, x, rfl⟩ := List.exists_cons_of_ne_nil hxne
      obtain ⟨rfl, rfl⟩ := List.cons.inj hxu
      obtain ⟨w, hne, hw, hz⟩ := element_carries (hclaims _) (he _) hs hread hlt hu
      refine ⟨w, hne, hw, fun z => ?_⟩
      obtain ⟨t', u', hs', hread', hlt', hu'⟩ := hz z
      exact .adjacent hs' hclose hsep hread' hlt' hu' hd (hx z)

/-- A group ends with its closing character, whatever follows. -/
theorem carries_group (hclaims : ∀ i, (element i).Claims)
    (he : ∀ i c y z, (element i).Carries (c :: y) (c :: z)) (g : Groupings) (y z : List Char) :
    (group g separator element).Carries y z := by
  intro x as h
  obtain ⟨c, r, p, hs, hp, hm⟩ := group_eq_some_iff.1 h
  obtain ⟨x', -, rfl, hx'⟩ := hm.carries hclaims he
  obtain rfl : x = c :: x' := List.append_cancel_right hs
  exact group_eq_some_iff.2 ⟨c, x' ++ z, p, rfl, hp, hx' z⟩

end Groups

end Reader

/-! ## pairs -/

namespace Parser

/-- A pair is read in front of `z` if its value is. -/
theorem carries_readPair {key value : Reader Value} {y z : List Char} (hkclaims : key.Claims)
    (hkey : ∀ c y z, key.Carries (c :: y) (c :: z)) (hvclaims : value.Claims)
    (hvconsumes : value.Consumes) (hvalue : value.Carries y z) :
    (readPair key value).Carries y z := by
  intro x w h
  obtain ⟨k, v⟩ := w
  obtain ⟨t, r, hk, hs, hv⟩ := readPair_eq_some_iff.1 h
  -- the value is `c :: x₂` with `y` behind it
  have hlt := hvconsumes _ v y hv
  obtain ⟨c, s, hc⟩ : ∃ c s, Text.skipBlanks r = c :: s :=
    List.exists_cons_of_ne_nil fun h => by simp [h] at hlt
  have hvsuffix := hvclaims (Text.skipBlanks r)
  rw [hv, hc] at hvsuffix
  rw [hc] at hlt hv
  obtain ⟨e, he⟩ := hvsuffix
  obtain ⟨x₂, rfl, rfl⟩ := Reader.exists_cons_of_append he hlt
  obtain ⟨b₁, hb₁, rfl, hcolon⟩ := Text.skipBlanks_eq_cons_iff.1 hs
  obtain ⟨b₂, hb₂, rfl, hblank⟩ := Text.skipBlanks_eq_cons_iff.1 hc
  -- and `w` is all that stands behind the key
  let w := b₁ ++ keySeparator :: (b₂ ++ c :: x₂)
  have hw : ∀ u, b₁ ++ keySeparator :: (b₂ ++ c :: (x₂ ++ u)) = w ++ u := by simp [w]
  obtain ⟨e, he'⟩ := hkclaims (x ++ y)
  rw [hk, hw, ← List.append_assoc] at he'
  obtain rfl : e ++ w = x := List.append_cancel_right he'
  rw [List.append_assoc, hw] at hk
  rw [List.append_assoc]
  refine readPair_eq_some_iff.2 ⟨w ++ z, b₂ ++ c :: (x₂ ++ z), ?_, ?_, ?_⟩
  · exact Reader.carries_append hkey (by simp [w]) y z e k hk
  · rw [← hw, Text.skipBlanks_append_cons hb₁ hcolon]
  · rw [Text.skipBlanks_append_cons hb₂ hblank]
    exact hvalue (c :: x₂) v hv

/-! ## parsers without custom parts -/

/-- No part of the parser was supplied from outside. -/
inductive Synthesized : Parser → Prop
  | string : Synthesized .string
  | char : Synthesized .char
  | bool : Synthesized .bool
  | integer (t : IntegerType) : Synthesized (.integer t)
  | float (t : FloatType) : Synthesized (.float t)
  | optional (h : Synthesized p) : Synthesized (.optional p)
  | sequence (h : Synthesized p) (g : Groupings) (name : String)
      (collect : List Value → Option Value) : Synthesized (.sequence p g name collect)
  | pair (hk : Synthesized k) (hv : Synthesized v) : Synthesized (.pair k v)
  | map (h : Synthesized p) (name : String) (bind : Binder) : Synthesized (.map p name bind)
  | record (slots : List (Slot Parser)) (form : RecordForm)
      (h : ∀ slot ∈ slots, Synthesized slot.parser) : Synthesized (.record slots form)
  | renamed (h : Synthesized p) (name : String) : Synthesized (.renamed p name)

/-- What resolution makes for a type has no custom parts. -/
theorem synthesized_of_makes {types : Declarations} {special : SpecialSet} {t : Ty} {p : Parser}
    (h : Makes types special t p) : p.Synthesized := by
  induction h with
  | string => exact .string
  | char => exact .char
  | bool => exact .bool
  | integer t => exact .integer t
  | float t => exact .float t
  | optional _ ih => exact .optional ih
  | sequence kind name _ _ ih => exact .sequence ih _ _ _
  | set i name _ _ ih => exact .sequence ih _ _ _
  | map i name _ _ ih => exact .map ih _ _
  | pair _ _ _ ihk ihv => exact .pair ihk ihv
  | record spec slots _ _ _ _ ih => exact .record slots _ ih
  | renamed name _ _ _ ih => exact .renamed ih name

/-- The parsers of a grammar have no custom parts if none has been registered and no parameter
brings its own. -/
theorem synthesized_of_build {ps : List Parameter} {r : Registry} {g : Grammar}
    (hr : r.Uncustomized) (hps : ∀ p ∈ ps, p.parser = none)
    (hb : (Grammar.build ps r).1 = .ok g) : ∀ d ∈ g.parameters, d.parser.Synthesized := by
  have hdescribes := Grammar.describes_of_build (fun _ t h => .resolve t h) hr hb
  intro d hd
  obtain ⟨p, hp, r', index, parser, hr', hparser, rfl⟩ := Grammar.exists_described hdescribes hd
  rw [Grammar.parserFor, hps p hp] at hparser
  exact synthesized_of_makes (hr'.made_of_resolve (Prod.ext hparser rfl))

/-- A parser without custom parts claims something whenever it succeeds. -/
theorem Synthesized.consumes {p : Parser} (h : p.Synthesized) (special : SpecialSet) :
    (p.read special).Consumes := by
  induction h with
  | string => exact (Reader.consumes_string special).map _
  | char => exact (Reader.consumes_char special).map _
  | bool => exact (Reader.consumes_bool special).map _
  | integer t => exact (Reader.consumes_integer t special).map _
  | float t => exact (Reader.consumes_float t special).map _
  | optional _ ih => exact ih.map _
  | sequence => exact (Reader.consumes_group _ fun _ => claims_read special _).mapOption _
  | pair => exact (consumes_readPair (claims_read special _) (claims_read special _)).map _
  | map => exact (Reader.consumes_group .braces fun _ => claims_read special _).mapOption _
  | record slots form =>
      rw [read_record]
      exact (Reader.consumes_group _
        (claims_slotReader fun slot _ => claims_read special slot.parser)).mapOption _
  | renamed _ _ ih => exact ih

/-- **A parser without custom parts looks at one character behind its literal.** -/
theorem Synthesized.carries {p : Parser} (h : p.Synthesized) {special : SpecialSet}
    {y z : List Char} (hz : special.Replaces y z) : (p.read special).Carries y z := by
  induction h generalizing y z with
  | string => exact (Reader.carries_string hz).map _
  | char => exact (Reader.carries_char hz).map _
  | bool => exact (Reader.carries_bool hz).map _
  | integer t => exact (Reader.carries_integer hz).map _
  | float t => exact (Reader.carries_float hz).map _
  | optional _ ih => exact (ih hz).map _
  | sequence _ g _ collect ih =>
      exact (Reader.carries_group (fun _ => claims_read special _)
        (fun _ c y z => ih (special.replaces_cons c y z)) g y z).mapOption _
  | pair _ hv ihk ihv =>
      exact (carries_readPair (claims_read special _)
        (fun c y z => ihk (special.replaces_cons c y z)) (claims_read special _)
        (hv.consumes special) (ihv hz)).map _
  | map _ _ bind ih =>
      exact (Reader.carries_group (fun _ => claims_read special _)
        (fun _ c y z => ih (special.replaces_cons c y z)) .braces y z).mapOption _
  | record slots form _ ih =>
      rw [read_record]
      refine (Reader.carries_group
        (claims_slotReader fun slot _ => claims_read special slot.parser)
        (fun i c y z => ?_) form.groupings y z).mapOption _
      rcases slotReader_cases special slots i with ⟨slot, hslot, heq⟩ | heq
      · rw [heq]
        exact ih slot hslot (special.replaces_cons c y z)
      · intro x v h
        simp [heq] at h
  | renamed _ _ ih => exact ih hz

end Parser

/-- **One character of lookahead.**  In a registry without registered parsers, what the parser of
a type reads as `x` in front of `y` it reads in front of any `z` that is empty or starts with a
blank, or with a special character that is neither a digit nor a point.  What it reads as a proper
prefix of `x` does not depend on what follows `x` at all. -/
theorem one_character_lookahead {r r' : Registry} {t : Ty} {p : Parser} (hr : r.Uncustomized)
    (h : r.resolve t = (.ok p, r')) (special : SpecialSet) (x y z : List Char) (v : Value) :
    (p.read special (x ++ y) = (some v, y) → special.Stops z →
      p.read special (x ++ z) = (some v, z)) ∧
    ∀ w u, x = w ++ u → u ≠ [] → p.read special (x ++ y) = (some v, u ++ y) →
      p.read special (x ++ z) = (some v, u ++ z) := by
  have hp := Parser.synthesized_of_makes (hr.made_of_resolve h)
  constructor
  · intro hread hz
    exact hp.carries (.inr hz) x v hread
  · intro w u hx hu hread
    subst hx
    rw [List.append_assoc] at hread ⊢
    exact Reader.carries_append (fun c y z => hp.carries (special.replaces_cons c y z)) hu y z w v
      hread

/-- A pair in front of nothing, of a comma and of anything behind a blank. -/
theorem one_character_lookahead_pair :
    ∃ p r', (Registry.empty fun _ _ => none).resolve (.pair .string (.integer .i32)) =
        (.ok p, r') ∧
      p.read .builtIn ['a', ':', '7'] = (some (.pair (.string "a") (.integer 7)), []) ∧
      SpecialSet.builtIn.Stops [',', '1'] ∧
      p.read .builtIn ['a', ':', '7', ',', '1'] =
        (some (.pair (.string "a") (.integer 7)), [',', '1']) ∧
      p.read .builtIn ['a', ':', '7', ' '] = (some (.pair (.string "a") (.integer 7)), [' ']) ∧
      p.read .builtIn ['a', ':', '7', ' ', '?'] =
        (some (.pair (.string "a") (.integer 7)), [' ', '?']) := by
  have hstops : SpecialSet.builtIn.Stops [',', '1'] := fun c hc => by
    obtain rfl := Option.some.inj hc
    exact .inr (by decide)
  let t : Ty := .pair .string (.integer .i32)
  have hresolve : (Registry.empty fun _ _ => none).resolve t =
      (.ok (.pair .string (.integer .i32)), ((Registry.empty fun _ _ => none).resolve t).2) := rfl
  refine ⟨_, _, hresolve, rfl, hstops, ?_, rfl, ?_⟩
  · exact (one_character_lookahead (.empty _) hresolve .builtIn ['a', ':', '7'] [] _ _).1 rfl
      hstops
  · exact (one_character_lookahead (.empty _) hresolve .builtIn ['a', ':', '7', ' '] [] ['?'] _).2
      ['a', ':', '7'] [' '] rfl (by decide) rfl

end TypedConsole
