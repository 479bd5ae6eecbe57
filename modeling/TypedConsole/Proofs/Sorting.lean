import TypedConsole.Parser
import TypedConsole.Registry.Resolve
import Mathlib.Data.List.Nodup

/-!
# TypedConsole.Proofs.Sorting

Sets and maps are increasing, and do not depend on the order in which their elements are written.

`compare_swap` says that the order of values is oriented.  From that alone, inserting the elements
of an increasing list one by one, in whatever order, gives the list: each element finds its place
between those that are below it and those that are above it (`foldl_eq_of_perm`).  The order is
also transitive (`Before.trans`), so that an increasing list stays one whatever is inserted.
-/

namespace TypedConsole

/-! ## insertion in any order -/

/-- A member of a list in order has its place in every part of the list that lacks it. -/
theorem exists_place {R : α → α → Prop} {L M : List α} {v : α} (hL : L.Pairwise R)
    (hM : M.Sublist L) (hv : v ∈ L) (hnew : v ∉ M) :
    ∃ M₁ M₂, M = M₁ ++ M₂ ∧ (∀ w ∈ M₁, R w v) ∧ (∀ w ∈ M₂, R v w) ∧
      (M₁ ++ v :: M₂).Sublist L := by
  obtain ⟨L₁, L₂, rfl⟩ := List.append_of_mem hv
  obtain ⟨-, hafter, hbefore⟩ := List.pairwise_append.1 hL
  obtain ⟨M₁, M₂, rfl, h₁, h₂⟩ := List.sublist_append_iff.1 hM
  have hM₂ : M₂.Sublist L₂ := by
    rcases List.sublist_cons_iff.1 h₂ with h | ⟨r, rfl, -⟩
    · exact h
    · exact absurd (List.mem_append_right M₁ List.mem_cons_self) hnew
  refine ⟨M₁, M₂, rfl, fun w hw => ?_, fun w hw => ?_, h₁.append (hM₂.cons_cons v)⟩
  · exact hbefore w (h₁.subset hw) v List.mem_cons_self
  · exact (List.pairwise_cons.1 hafter).1 w (hM₂.subset hw)

/-- Going through the members of a list in order, in whatever order, while a state `g M` holds the
part `M` of the list that has been seen, ends with the whole list. -/
theorem foldl_eq_of_perm {R : α → α → Prop} {f : β → α → β} {g : List α → β}
    (hirrefl : ∀ a, ¬R a a)
    (hstep : ∀ M₁ M₂ v, (∀ w ∈ M₁, R w v) → (∀ w ∈ M₂, R v w) →
      f (g (M₁ ++ M₂)) v = g (M₁ ++ v :: M₂))
    {L vs : List α} (hL : L.Pairwise R) (h : vs.Perm L) : vs.foldl f (g []) = g L := by
  have hnodup : L.Nodup := hL.imp fun {a b} hab he => by
    subst he
    exact hirrefl a hab
  -- the invariant: what has been seen is a part of the list, in its order
  suffices hgen : ∀ vs M : List α, M.Sublist L → (M ++ vs).Perm L → vs.foldl f (g M) = g L from
    hgen vs [] (List.nil_sublist L) h
  intro vs
  induction vs with
  | nil =>
      intro M hM hperm
      rw [List.append_nil] at hperm
      rw [List.foldl_nil, hM.eq_of_length hperm.length_eq]
  | cons v vs ih =>
      intro M hM hperm
      have hv : v ∈ L := hperm.subset (by simp)
      have hnew : v ∉ M := fun hm =>
        List.disjoint_of_nodup_append (hperm.nodup_iff.2 hnodup) hm List.mem_cons_self
      obtain ⟨M₁, M₂, rfl, h₁, h₂, hplaced⟩ := exists_place hL hM hv hnew
      rw [List.foldl_cons, hstep M₁ M₂ v h₁ h₂]
      refine ih _ hplaced (List.Perm.trans ?_ hperm)
      rw [List.append_assoc, List.append_assoc]
      exact (List.perm_middle.symm).append_left M₁

namespace Value

/-! ## the order of values -/

mutual
/-- The order of two values turns around with them. -/
theorem compare_swap : (a b : Value) → compare b a = (compare a b).swap
  | bool a, b => by
    cases b with
    | bool b =>
      show Ord.compare b a = _
      exact Std.OrientedOrd.eq_swap
    | _ => rfl
  | integer a, b => by
    cases b with
    | integer b =>
      show Ord.compare b a = _
      exact Std.OrientedOrd.eq_swap
    | _ => rfl
  | float a, b => by
    cases b with
    | float b =>
      show Ord.compare (floatKey b) (floatKey a) = _
      exact Std.OrientedOrd.eq_swap
    | _ => rfl
  | char a, b => by
    cases b with
    | char b =>
      show Ord.compare b.toNat a.toNat = _
      exact Std.OrientedOrd.eq_swap
    | _ => rfl
  | string a, b => by
    cases b with
    | string b =>
      show Ord.compare (b.toList.map Char.toNat) (a.toList.map Char.toNat) = _
      exact Std.OrientedOrd.eq_swap
    | _ => rfl
  | absent, b => by cases b <;> rfl
  | present a, b => by
    cases b with
    | present b => exact compare_swap a b
    | _ => rfl
  | pair k a, b => by
    cases b with
    | pair l b =>
      simp only [compare, Ordering.swap_then]
      rw [compare_swap k l, compare_swap a b]
    | _ => rfl
  | list as, b => by
    cases b with
    | list bs => exact compareLists_swap as bs
    | _ => rfl
  | unit, b => by cases b <;> rfl

theorem compareLists_swap : (as bs : List Value) →
    compareLists bs as = (compareLists as bs).swap
  | [], bs => by cases bs <;> rfl
  | a :: as, bs => by
    cases bs with
    | nil => rfl
    | cons b bs =>
      simp only [compareLists, Ordering.swap_then]
      rw [compare_swap a b, compareLists_swap as bs]
end

/-- The value `a` comes before `b`. -/
def Before (a b : Value) : Prop := compare a b = .lt

theorem Before.gt {a b : Value} (h : a.Before b) : compare b a = .gt := by
  rw [compare_swap a b, show compare a b = .lt from h]
  rfl

theorem not_before_self (a : Value) : ¬a.Before a := fun h => by
  have hgt := h.gt
  rw [show compare a a = .lt from h] at hgt
  contradiction

theorem floatKey_injective {x y : BinaryFloat} (h : floatKey x = floatKey y) : x = y := by
  obtain ⟨n, s, e⟩ := x
  obtain ⟨m, t, f⟩ := y
  -- the first number of the key is that of the sign, and the signs of the others cancel
  cases n <;> cases m <;> simp_all only [floatKey, Bool.false_eq_true, if_true, if_false,
    List.cons.injEq, Int.neg_inj, Int.natCast_inj, reduceCtorEq, false_and]

mutual
/-- Values that are neither below nor above one another are the same. -/
theorem eq_of_compare : (a b : Value) → compare a b = .eq → a = b
  | bool a, b, h => by
    cases b with
    | bool b => exact congrArg bool (Std.LawfulEqCmp.eq_of_compare h)
    | _ => contradiction
  | integer a, b, h => by
    cases b with
    | integer b => exact congrArg integer (Std.LawfulEqCmp.eq_of_compare h)
    | _ => contradiction
  | float a, b, h => by
    cases b with
    | float b => exact congrArg float (floatKey_injective (Std.LawfulEqCmp.eq_of_compare h))
    | _ => contradiction
  | char a, b, h => by
    cases b with
    | char b => exact congrArg char (Char.toNat_inj.1 (Std.LawfulEqCmp.eq_of_compare h))
    | _ => contradiction
  | string a, b, h => by
    cases b with
    | string b =>
      have hcodes := @Std.LawfulEqCmp.eq_of_compare (List Nat) Ord.compare _ _ _ h
      rw [List.map_inj_right fun _ _ => Char.toNat_inj.1] at hcodes
      exact congrArg string (String.toList_inj.1 hcodes)
    | _ => contradiction
  | absent, b, h => by cases b <;> first | rfl | contradiction
  | present a, b, h => by
    cases b with
    | present b => exact congrArg present (eq_of_compare a b h)
    | _ => contradiction
  | pair k a, b, h => by
    cases b with
    | pair l b =>
      obtain ⟨hk, ha⟩ := Ordering.then_eq_eq.1 h
      rw [eq_of_compare k l hk, eq_of_compare a b ha]
    | _ => contradiction
  | list as, b, h => by
    cases b with
    | list bs => exact congrArg list (eq_of_compareLists as bs h)
    | _ => contradiction
  | unit, b, h => by cases b <;> first | rfl | contradiction

theorem eq_of_compareLists : (as bs : List Value) → compareLists as bs = .eq → as = bs
  | [], bs, h => by cases bs <;> first | rfl | contradiction
  | a :: as, bs, h => by
    cases bs with
    | nil => contradiction
    | cons b bs =>
      obtain ⟨ha, has⟩ := Ordering.then_eq_eq.1 h
      rw [eq_of_compare a b ha, eq_of_compareLists as bs has]
end

theorem before_of_gt {a b : Value} (h : compare a b = .gt) : b.Before a := by
  rw [Before, compare_swap a b, h]
  rfl

/-- Values of different forms are ordered by their forms. -/
theorem compare_of_rank_ne {a b : Value} (h : a.rank ≠ b.rank) :
    compare a b = Ord.compare a.rank b.rank := by
  cases a <;> cases b <;> first | rfl | exact absurd rfl h

theorem before_of_rank_lt {a b : Value} (h : a.rank < b.rank) : a.Before b :=
  (compare_of_rank_ne (Nat.ne_of_lt h)).trans (Nat.compare_eq_lt.2 h)

theorem Before.rank_le {a b : Value} (h : a.Before b) : a.rank ≤ b.rank := by
  by_cases hrank : a.rank = b.rank
  · exact Nat.le_of_eq hrank
  · exact Nat.le_of_lt (Nat.compare_eq_lt.1 ((compare_of_rank_ne hrank).symm.trans h))

/-- The order is transitive where it is decided by the forms. -/
theorem Before.trans_of_rank {a b c : Value} (h : a.Before b) (h' : b.Before c)
    (hne : a.rank ≠ b.rank ∨ b.rank ≠ c.rank) : a.Before c := by
  have hab := h.rank_le
  have hbc := h'.rank_le
  exact before_of_rank_lt (by omega)

/-- Lexicographic orders are transitive where their parts are. -/
theorem then_trans {α β : Type} {f : α → α → Ordering} {g : β → β → Ordering} {a a' a'' : α}
    {b b' b'' : β} (heq : ∀ {x y}, f x y = .eq → x = y)
    (hf : f a a' = .lt → f a' a'' = .lt → f a a'' = .lt)
    (hg : g b b' = .lt → g b' b'' = .lt → g b b'' = .lt)
    (h : (f a a').then (g b b') = .lt) (h' : (f a' a'').then (g b' b'') = .lt) :
    (f a a'').then (g b b'') = .lt := by
  rw [Ordering.then_eq_lt] at h h' ⊢
  rcases h with h | ⟨h, hb⟩
  · rcases h' with h' | ⟨h', -⟩
    · exact .inl (hf h h')
    · exact .inl (heq h' ▸ h)
  · rcases h' with h' | ⟨h', hb'⟩
    · exact .inl (heq h ▸ h')
    · obtain rfl := heq h
      exact .inr ⟨h', hg hb hb'⟩

mutual
/-- The order of values is transitive. -/
theorem Before.trans : {a b c : Value} → a.Before b → b.Before c → a.Before c
  | bool _, b, c, h, h' => by
    cases b with
    | bool _ =>
      cases c with
      | bool _ => exact @Std.TransCmp.lt_trans Bool Ord.compare _ _ _ _ h h'
      | _ => exact h.trans_of_rank h' (.inr (by simp [rank]))
    | _ => exact h.trans_of_rank h' (.inl (by simp [rank]))
  | integer _, b, c, h, h' => by
    cases b with
    | integer _ =>
      cases c with
      | integer _ => exact @Std.TransCmp.lt_trans Int Ord.compare _ _ _ _ h h'
      | _ => exact h.trans_of_rank h' (.inr (by simp [rank]))
    | _ => exact h.trans_of_rank h' (.inl (by simp [rank]))
  | float _, b, c, h, h' => by
    cases b with
    | float _ =>
      cases c with
      | float _ => exact @Std.TransCmp.lt_trans (List Int) Ord.compare _ _ _ _ h h'
      | _ => exact h.trans_of_rank h' (.inr (by simp [rank]))
    | _ => exact h.trans_of_rank h' (.inl (by simp [rank]))
  | char _, b, c, h, h' => by
    cases b with
    | char _ =>
      cases c with
      | char _ => exact @Std.TransCmp.lt_trans Nat Ord.compare _ _ _ _ h h'
      | _ => exact h.trans_of_rank h' (.inr (by simp [rank]))
    | _ => exact h.trans_of_rank h' (.inl (by simp [rank]))
  | string _, b, c, h, h' => by
    cases b with
    | string _ =>
      cases c with
      | string _ => exact @Std.TransCmp.lt_trans (List Nat) Ord.compare _ _ _ _ h h'
      | _ => exact h.trans_of_rank h' (.inr (by simp [rank]))
    | _ => exact h.trans_of_rank h' (.inl (by simp [rank]))
  | absent, b, c, h, h' => by
    cases b with
    | absent => exact absurd h (not_before_self absent)
    | _ => exact h.trans_of_rank h' (.inl (by simp [rank]))
  | present a, b, c, h, h' => by
    cases b with
    | present b =>
      cases c with
      | present c => exact Before.trans (a := a) (b := b) (c := c) h h'
      | _ => exact h.trans_of_rank h' (.inr (by simp [rank]))
    | _ => exact h.trans_of_rank h' (.inl (by simp [rank]))
  | pair k a, b, c, h, h' => by
    cases b with
    | pair l b =>
      cases c with
      | pair m c =>
        exact then_trans (eq_of_compare _ _) (Before.trans (a := k)) (Before.trans (a := a)) h h'
      | _ => exact h.trans_of_rank h' (.inr (by simp [rank]))
    | _ => exact h.trans_of_rank h' (.inl (by simp [rank]))
  | list as, b, c, h, h' => by
    cases b with
    | list bs =>
      cases c with
      | list cs => exact compareLists_trans as bs cs h h'
      | _ => exact h.trans_of_rank h' (.inr (by simp [rank]))
    | _ => exact h.trans_of_rank h' (.inl (by simp [rank]))
  | unit, b, c, h, h' => by
    cases b with
    | unit => exact absurd h (not_before_self unit)
    | _ => exact h.trans_of_rank h' (.inl (by simp [rank]))

theorem compareLists_trans : (as bs cs : List Value) → compareLists as bs = .lt →
    compareLists bs cs = .lt → compareLists as cs = .lt
  | [], bs, cs, h, h' => by
    cases cs with
    | nil => cases bs <;> contradiction
    | cons => rfl
  | a :: as, bs, cs, h, h' => by
    cases bs with
    | nil => contradiction
    | cons b bs =>
      cases cs with
      | nil => contradiction
      | cons c cs =>
        exact then_trans (eq_of_compare _ _) (Before.trans (a := a)) (compareLists_trans as bs cs)
          h h'
end

/-! ## sets -/

theorem insert_between {v : Value} {vs ws : List Value} (hvs : ∀ w ∈ vs, w.Before v)
    (hws : ∀ w ∈ ws, v.Before w) : insert v (vs ++ ws) = vs ++ v :: ws := by
  induction vs with
  | nil =>
      cases ws with
      | nil => rfl
      | cons w ws => simp [insert, show compare v w = .lt from hws w List.mem_cons_self]
  | cons w vs ih =>
      obtain ⟨hw, hrest⟩ := List.forall_mem_cons.1 hvs
      simp [insert, hw.gt, ih hrest]

/-- **A set lists its elements in increasing order**, however they were written. -/
theorem distinct_eq_of_perm {vs ws : List Value} (h : vs.Perm ws) (hws : ws.Pairwise Before) :
    distinct vs = ws :=
  foldl_eq_of_perm (g := fun ws => ws) not_before_self (fun _ _ _ => insert_between) hws h

theorem mem_of_mem_insert {v w : Value} {ws : List Value} (h : w ∈ insert v ws) :
    w = v ∨ w ∈ ws := by
  induction ws with
  | nil => exact .inl (List.mem_singleton.1 h)
  | cons u ws ih =>
      simp only [insert] at h
      split at h
      · exact List.mem_cons.1 h
      · exact .inr h
      · rcases List.mem_cons.1 h with rfl | h
        · exact .inr List.mem_cons_self
        · exact (ih h).imp_right (List.mem_cons_of_mem u)

theorem pairwise_insert (v : Value) {ws : List Value} (h : ws.Pairwise Before) :
    (insert v ws).Pairwise Before := by
  induction ws with
  | nil => exact List.pairwise_singleton _ _
  | cons u ws ih =>
      obtain ⟨hu, hws⟩ := List.pairwise_cons.1 h
      simp only [insert]
      split
      · next hlt =>
          refine List.pairwise_cons.2 ⟨fun w hw => ?_, h⟩
          rcases List.mem_cons.1 hw with rfl | hw
          · exact hlt
          · exact Before.trans hlt (hu w hw)
      · exact h
      · next hgt =>
          refine List.pairwise_cons.2 ⟨fun w hw => ?_, ih hws⟩
          rcases mem_of_mem_insert hw with rfl | hw
          · exact before_of_gt hgt
          · exact hu w hw

/-- **A set is increasing, whatever elements it is made of**, and has no others. -/
theorem distinct_spec (vs : List Value) :
    (distinct vs).Pairwise Before ∧ ∀ v ∈ distinct vs, v ∈ vs :=
  List.foldlRecOn (motive := fun set => set.Pairwise Before ∧ ∀ v ∈ set, v ∈ vs) vs _
    ⟨.nil, fun _ h => absurd h List.not_mem_nil⟩ fun _ h v hv =>
      ⟨pairwise_insert v h.1, fun w hw => (mem_of_mem_insert hw).elim (· ▸ hv) (h.2 w)⟩

/-! ## maps -/

theorem bind_between {e : Value × Value} {es fs : List (Value × Value)}
    (hes : ∀ f ∈ es, f.1.Before e.1) (hfs : ∀ f ∈ fs, e.1.Before f.1) :
    bind e.1 e.2 (es ++ fs) = es ++ e :: fs := by
  induction es with
  | nil =>
      cases fs with
      | nil => rfl
      | cons f fs => simp [bind, show compare e.1 f.1 = .lt from hfs f List.mem_cons_self]
  | cons f es ih =>
      obtain ⟨hf, hrest⟩ := List.forall_mem_cons.1 hes
      simp [bind, hf.gt, ih hrest]

/-- A key between others is bound to nothing yet. -/
theorem find?_between {k : Value} {es fs : List (Value × Value)} (hes : ∀ f ∈ es, f.1.Before k)
    (hfs : ∀ f ∈ fs, k.Before f.1) : find? k (es ++ fs) = none := by
  have hnone : (es ++ fs).find? (fun e => compare k e.1 == .eq) = none := by
    rw [List.find?_eq_none]
    intro f hf
    rcases List.mem_append.1 hf with hf | hf
    · simp [(hes f hf).gt]
    · simp [show compare k f.1 = .lt from hfs f hf]
  rw [find?, hnone]
  rfl

/-- **A map lists its bindings in increasing order of their keys**, however they were written. -/
theorem bindAll_eq_of_perm {es fs : List (Value × Value)} (h : es.Perm fs)
    (hfs : fs.Pairwise fun e f => e.1.Before f.1) : Parser.bindAll bindSorted es = some fs := by
  have hfold := foldl_eq_of_perm (R := fun e f : Value × Value => e.1.Before f.1)
    (g := fun es => (es, true))
    (f := fun (s : List (Value × Value) × Bool) (e : Value × Value) =>
      ((bindSorted s.1 e.1 e.2).1, s.2 && (bindSorted s.1 e.1 e.2).2))
    (fun e => not_before_self e.1)
    (fun es fs e hes hfs => by simp [bindSorted, bind_between hes hfs, find?_between hes hfs])
    hfs h
  show (if (es.foldl _ ([], true)).2 then some (es.foldl _ ([], true)).1 else none) = some fs
  rw [show es.foldl _ ([], true) = (fs, true) from hfold]
  rfl

theorem mem_of_mem_bind {k v : Value} {e : Value × Value} {es : List (Value × Value)}
    (h : e ∈ bind k v es) : e = (k, v) ∨ e ∈ es := by
  induction es with
  | nil => exact .inl (List.mem_singleton.1 h)
  | cons f es ih =>
      simp only [bind] at h
      split at h
      · exact List.mem_cons.1 h
      · exact (List.mem_cons.1 h).imp_right (List.mem_cons_of_mem f)
      · rcases List.mem_cons.1 h with rfl | h
        · exact .inr List.mem_cons_self
        · exact (ih h).imp_right (List.mem_cons_of_mem f)

theorem pairwise_bind (k v : Value) {es : List (Value × Value)}
    (h : es.Pairwise fun e f => e.1.Before f.1) :
    (bind k v es).Pairwise fun e f => e.1.Before f.1 := by
  induction es with
  | nil => exact List.pairwise_singleton _ _
  | cons f es ih =>
      obtain ⟨hf, hes⟩ := List.pairwise_cons.1 h
      simp only [bind]
      split
      · next hlt =>
          refine List.pairwise_cons.2 ⟨fun e he => ?_, h⟩
          rcases List.mem_cons.1 he with rfl | he
          · exact hlt
          · exact Before.trans hlt (hf e he)
      · next heq =>
          refine List.pairwise_cons.2 ⟨fun e he => ?_, hes⟩
          rw [eq_of_compare _ _ heq]
          exact hf e he
      · next hgt =>
          refine List.pairwise_cons.2 ⟨fun e he => ?_, ih hes⟩
          rcases mem_of_mem_bind he with rfl | he
          · exact before_of_gt hgt
          · exact hf e he

/-- **A map is increasing in its keys, whatever bindings it is made of**, and has no others. -/
theorem bindAll_spec {es fs : List (Value × Value)}
    (h : Parser.bindAll bindSorted es = some fs) :
    fs.Pairwise (fun e f => e.1.Before f.1) ∧ ∀ f ∈ fs, f ∈ es := by
  simp only [Parser.bindAll] at h
  generalize hs : List.foldl _ _ es = s at h
  have hfold : s.1.Pairwise (fun e f => e.1.Before f.1) ∧ ∀ f ∈ s.1, f ∈ es := by
    rw [← hs]
    refine List.foldlRecOn (motive := fun s : List (Value × Value) × Bool =>
        s.1.Pairwise (fun e f => e.1.Before f.1) ∧ ∀ f ∈ s.1, f ∈ es) es _ ?_ ?_
    · exact ⟨.nil, fun _ h => absurd h List.not_mem_nil⟩
    · intro _ h e he
      exact ⟨pairwise_bind e.1 e.2 h.1, fun f hf => (mem_of_mem_bind hf).elim (· ▸ he) (h.2 f)⟩
  split at h
  · exact Option.some.inj h ▸ hfold
  · contradiction

end Value

end TypedConsole
