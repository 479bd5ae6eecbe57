import TypedConsole.Reader.Group
import TypedConsole.Proofs.Scalars

/-!
# TypedConsole.Proofs.Groups

The members of a group, as a relation: which elements stand before the closing character, what
each element's reader claims of the text, and what follows the group.

`elements_eq_some_iff` is the one place where the reader of groups is opened for its successes.
-/

namespace TypedConsole.Reader

variable {closing separator : Char} {element : Nat → Reader α}

/-! ## the relation -/

/-- `Members closing separator element i separated s as r`: the text `s` consists of the elements
`as`, numbered from `i` on, up to the closing character, and `r` follows. Right before `s` there
is a separator if `separated`. -/
inductive Members (closing separator : Char) (element : Nat → Reader α) :
    Nat → Bool → List Char → List α → List Char → Prop
  | close (hs : Text.skipBlanks s = closing :: r) :
      Members closing separator element i false s [] r
  | separated (hs : Text.skipBlanks s = c :: r) (hclose : c ≠ closing) (hsep : c ≠ separator)
      (he : element i (c :: r) = (some a, t)) (hlt : t.length < (c :: r).length)
      (hu : Text.skipBlanks t = separator :: u)
      (rest : Members closing separator element (i + 1) true u as v) :
      Members closing separator element i b s (a :: as) v
  | adjacent (hs : Text.skipBlanks s = c :: r) (hclose : c ≠ closing) (hsep : c ≠ separator)
      (he : element i (c :: r) = (some a, t)) (hlt : t.length < (c :: r).length)
      (hu : Text.skipBlanks t = d :: u) (hd : d ≠ separator)
      (rest : Members closing separator element (i + 1) false (d :: u) as v) :
      Members closing separator element i b s (a :: as) v

/-! ## one pass -/

theorem elements_of_nil {i : Nat} {b : Bool} {s : List Char} (hs : Text.skipBlanks s = []) :
    elements closing separator element i b s = (none, []) := by
  rw [elements]
  split
  · rfl
  · next h => rw [hs] at h; contradiction

theorem elements_of_closing {i : Nat} {b : Bool} {s r : List Char}
    (hs : Text.skipBlanks s = closing :: r) :
    elements closing separator element i b s =
      if b then (none, closing :: r) else (some [], r) := by
  rw [elements]
  split
  · next h => rw [hs] at h; contradiction
  · next h =>
      rw [hs] at h
      obtain ⟨rfl, rfl⟩ := List.cons.inj h
      rw [if_pos rfl]

theorem elements_of_separator {i : Nat} {b : Bool} {s r : List Char}
    (hs : Text.skipBlanks s = separator :: r) (hne : separator ≠ closing) :
    elements closing separator element i b s = (none, separator :: r) := by
  rw [elements]
  split
  · next h => rw [hs] at h; contradiction
  · next h =>
      rw [hs] at h
      obtain ⟨rfl, rfl⟩ := List.cons.inj h
      rw [if_neg hne, if_pos rfl]

theorem elements_of_failure {i : Nat} {b : Bool} {s r t : List Char} {c : Char}
    (hs : Text.skipBlanks s = c :: r) (hclose : c ≠ closing) (hsep : c ≠ separator)
    (he : element i (c :: r) = (none, t)) :
    elements closing separator element i b s = (none, t) := by
  rw [elements]
  split
  · next h => rw [hs] at h; contradiction
  · next h =>
      rw [hs] at h
      obtain ⟨rfl, rfl⟩ := List.cons.inj h
      rw [if_neg hclose, if_neg hsep]
      split
      · next h' =>
          rw [he] at h'
          rw [(Prod.mk.inj h').2]
      · next h' => rw [he] at h'; simp at h'

theorem elements_of_element {i : Nat} {b : Bool} {s r t : List Char} {c : Char} {a : α}
    (hs : Text.skipBlanks s = c :: r) (hclose : c ≠ closing) (hsep : c ≠ separator)
    (he : element i (c :: r) = (some a, t)) (hlt : t.length < (c :: r).length) :
    elements closing separator element i b s =
      match Text.skipBlanks t with
      | [] => (none, [])
      | d :: u =>
        let (as, v) :=
          if d = separator then elements closing separator element (i + 1) true u
          else elements closing separator element (i + 1) false (d :: u)
        (as.map (a :: ·), v) := by
  rw [elements]
  split
  · next h => rw [hs] at h; contradiction
  · next h =>
      rw [hs] at h
      obtain ⟨rfl, rfl⟩ := List.cons.inj h
      rw [if_neg hclose, if_neg hsep]
      split
      · next h' => rw [he] at h'; simp at h'
      · next h' =>
          rw [he] at h'
          obtain ⟨ha, rfl⟩ := Prod.mk.inj h'
          obtain rfl := Option.some.inj ha
          rw [dif_pos hlt]
          split <;> simp_all

/-- An element that claims nothing is a failure. -/
theorem elements_of_idle {i : Nat} {b : Bool} {s r t : List Char} {c : Char} {a : α}
    (hs : Text.skipBlanks s = c :: r) (hclose : c ≠ closing) (hsep : c ≠ separator)
    (he : element i (c :: r) = (some a, t)) (hlt : ¬ t.length < (c :: r).length) :
    elements closing separator element i b s = (none, t) := by
  rw [elements]
  split
  · next h => rw [hs] at h; contradiction
  · next h =>
      rw [hs] at h
      obtain ⟨rfl, rfl⟩ := List.cons.inj h
      rw [if_neg hclose, if_neg hsep]
      split
      · next h' => rw [he] at h'; simp at h'
      · next h' =>
          rw [he] at h'
          obtain ⟨-, rfl⟩ := Prod.mk.inj h'
          rw [dif_neg hlt]

/-! ## successes -/

/-- Reading elements succeeds exactly with the members of the group. -/
theorem elements_eq_some_iff {i : Nat} {b : Bool} {s v : List Char} {as : List α} :
    elements closing separator element i b s = (some as, v) ↔
      Members closing separator element i b s as v := by
  constructor
  · intro h
    fun_induction elements closing separator element i b s generalizing as v with
    | case1 => simp at h
    | case2 => simp at h
    | case3 i b s u hb hs =>
        simp only [Prod.mk.injEq, Option.some.injEq] at h
        obtain ⟨rfl, rfl⟩ := h
        have hfalse : b = false := by simpa using hb
        subst hfalse
        exact .close hs
    | case4 => simp at h
    | case5 => simp at h
    | case6 => simp at h
    | case7 i b s c r hs hclose hsep a t he hlt d u hu as' v' hrest ih₁ ih₂ =>
        simp only [Prod.mk.injEq, Option.map_eq_some_iff] at h
        obtain ⟨⟨as'', rfl, rfl⟩, rfl⟩ := h
        by_cases hd : d = separator
        · subst hd
          rw [dif_pos rfl] at hrest
          exact .separated hs hclose hsep he hlt hu (ih₁ hrest)
        · rw [dif_neg hd] at hrest
          exact .adjacent hs hclose hsep he hlt hu hd (ih₂ hrest)
    | case8 => simp at h
  · intro h
    induction h with
    | close hs => rw [elements_of_closing hs, if_neg Bool.false_ne_true]
    | separated hs hclose hsep he hlt hu _ ih =>
        rw [elements_of_element hs hclose hsep he hlt, hu]
        simp [ih]
    | adjacent hs hclose hsep he hlt hu hd _ ih =>
        rw [elements_of_element hs hclose hsep he hlt, hu]
        simp [hd, ih]

/-! ## what is claimed -/

theorem claims_elements (he : ∀ i, (element i).Claims) (i : Nat) (b : Bool) (s : List Char) :
    (elements closing separator element i b s).2 <:+ s := by
  fun_induction elements closing separator element i b s with
  | case1 => exact List.nil_suffix
  | case2 _ s r hs => exact hs ▸ Text.skipBlanks_suffix s
  | case3 _ _ s r _ hs => exact (List.suffix_cons _ r).trans (hs ▸ Text.skipBlanks_suffix s)
  | case4 _ _ s r hs _ => exact hs ▸ Text.skipBlanks_suffix s
  | case5 i _ s c r hs _ _ t ht =>
      have hclaims := he i (c :: r)
      rw [ht] at hclaims
      exact hclaims.trans (hs ▸ Text.skipBlanks_suffix s)
  | case6 => exact List.nil_suffix
  | case7 i _ s c r hs _ _ a t ht _ d u hu as v hrest ih₁ ih₂ =>
      have hclaims := he i (c :: r)
      rw [ht] at hclaims
      have hdu : d :: u <:+ s :=
        (hu ▸ Text.skipBlanks_suffix t).trans (hclaims.trans (hs ▸ Text.skipBlanks_suffix s))
      by_cases hd : d = separator
      · rw [dif_pos hd] at hrest
        rw [hrest] at ih₁
        exact ih₁.trans ((List.suffix_cons _ _).trans hdu)
      · rw [dif_neg hd] at hrest
        rw [hrest] at ih₂
        exact ih₂.trans hdu
  | case8 i _ s c r hs _ _ a t ht _ =>
      have hclaims := he i (c :: r)
      rw [ht] at hclaims
      exact hclaims.trans (hs ▸ Text.skipBlanks_suffix s)

theorem claims_group (g : Groupings) (he : ∀ i, (element i).Claims) :
    (group g separator element).Claims := by
  intro s
  cases s with
  | nil => exact List.suffix_refl _
  | cons c s =>
      rw [group_cons]
      split
      · exact List.suffix_refl _
      · exact (claims_elements he 0 false s).trans (List.suffix_cons _ _)

/-- A group succeeds with the members between one of its openings and the closing character. -/
theorem group_eq_some_iff {g : Groupings} {s v : List Char} {as : List α} :
    group g separator element s = (some as, v) ↔
      ∃ c r p, s = c :: r ∧ g.openedBy c = some p ∧
        Members p.closing separator element 0 false r as v := by
  cases s with
  | nil => simp [group, groupIn]
  | cons c s =>
      cases hp : g.openedBy c with
      | none => simp [group_cons, hp]
      | some p => simp [group_cons, hp, elements_eq_some_iff]

/-- The opening character is claimed at least. -/
theorem consumes_group (g : Groupings) (he : ∀ i, (element i).Claims) :
    (group g separator element).Consumes := by
  intro s as v h
  obtain ⟨c, r, p, rfl, -, hm⟩ := group_eq_some_iff.1 h
  have hv : (elements p.closing separator element 0 false r).2 <:+ r :=
    claims_elements he 0 false r
  rw [elements_eq_some_iff.2 hm] at hv
  rw [List.length_cons]
  exact Nat.lt_succ_of_le hv.length_le

/-! ## where the elements are read -/

/-- `Visits closing separator element i s j t`: reading elements of the text `s`, numbered from `i`
on, comes to the text `t` and has the element number `j` read there. -/
inductive Visits (closing separator : Char) (element : Nat → Reader α) :
    Nat → List Char → Nat → List Char → Prop
  | here (hs : Text.skipBlanks s = c :: r) (hclose : c ≠ closing) (hsep : c ≠ separator) :
      Visits closing separator element i s i (c :: r)
  | separated (hs : Text.skipBlanks s = c :: r) (hclose : c ≠ closing) (hsep : c ≠ separator)
      (he : element i (c :: r) = (some a, t)) (hlt : t.length < (c :: r).length)
      (hu : Text.skipBlanks t = separator :: u)
      (rest : Visits closing separator element (i + 1) u j v) :
      Visits closing separator element i s j v
  | adjacent (hs : Text.skipBlanks s = c :: r) (hclose : c ≠ closing) (hsep : c ≠ separator)
      (he : element i (c :: r) = (some a, t)) (hlt : t.length < (c :: r).length)
      (hu : Text.skipBlanks t = d :: u) (hd : d ≠ separator)
      (rest : Visits closing separator element (i + 1) (d :: u) j v) :
      Visits closing separator element i s j v

/-- An element is never read at a closing character or at a separator. -/
theorem Visits.exists_eq_cons {i j : Nat} {s t : List Char}
    (h : Visits closing separator element i s j t) :
    ∃ c r, t = c :: r ∧ c ≠ closing ∧ c ≠ separator := by
  induction h with
  | here _ hclose hsep => exact ⟨_, _, rfl, hclose, hsep⟩
  | separated _ _ _ _ _ _ _ ih | adjacent _ _ _ _ _ _ _ _ ih => exact ih

/-- Elements are read in parts of the text. -/
theorem Visits.suffix (hclaims : ∀ i, (element i).Claims) {i j : Nat} {s t : List Char}
    (h : Visits closing separator element i s j t) : t <:+ s := by
  have hrest {i s c r a t u} (hs : Text.skipBlanks s = c :: r)
      (he : element i (c :: r) = (some a, t)) (hu : Text.skipBlanks t = u) : u <:+ s := by
    have ht := hclaims i (c :: r)
    rw [he] at ht
    exact (hu ▸ Text.skipBlanks_suffix t).trans (ht.trans (hs ▸ Text.skipBlanks_suffix s))
  induction h with
  | here hs => exact hs ▸ Text.skipBlanks_suffix _
  | separated hs _ _ he _ hu _ ih =>
      exact ih.trans ((List.suffix_cons _ _).trans (hrest hs he hu))
  | adjacent hs _ _ he _ hu _ _ ih => exact ih.trans (hrest hs he hu)

/-- **Nothing else is read**: elements are read alike if their readers agree where they are used. -/
theorem elements_congr_of_visits {element' : Nat → Reader α} {i : Nat} {b : Bool} {s : List Char}
    (h : ∀ j t, Visits closing separator element i s j t → element j t = element' j t) :
    elements closing separator element i b s = elements closing separator element' i b s := by
  fun_induction elements closing separator element i b s with
  | case1 i b s hs => rw [elements_of_nil hs]
  | case2 i s r hs => rw [elements_of_closing hs, if_pos rfl]
  | case3 i b s r hb hs => rw [elements_of_closing hs, if_neg hb]
  | case4 i b s r hs hne => rw [elements_of_separator hs hne]
  | case5 i b s c r hs hclose hsep t ht =>
      rw [elements_of_failure hs hclose hsep ((h i _ (.here hs hclose hsep)).symm.trans ht)]
  | case6 i b s c r hs hclose hsep a t ht hlt hu =>
      have he := (h i _ (.here hs hclose hsep)).symm.trans ht
      rw [elements_of_element hs hclose hsep he hlt, hu]
  | case7 i b s c r hs hclose hsep a t ht hlt d u hu as v hrest ih₁ ih₂ =>
      have he := (h i _ (.here hs hclose hsep)).symm.trans ht
      rw [elements_of_element hs hclose hsep he hlt, hu]
      by_cases hd : d = separator
      · subst hd
        rw [dif_pos rfl] at hrest
        have hvisits := ih₁ fun j v hv => h j v (.separated hs hclose hsep ht hlt hu hv)
        simp only [if_pos, ← hvisits, hrest]
      · rw [dif_neg hd] at hrest
        have hvisits := ih₂ fun j v hv => h j v (.adjacent hs hclose hsep ht hlt hu hd hv)
        simp only [if_neg hd, ← hvisits, hrest]
  | case8 i b s c r hs hclose hsep a t ht hlt =>
      rw [elements_of_idle hs hclose hsep ((h i _ (.here hs hclose hsep)).symm.trans ht) hlt]

end TypedConsole.Reader
