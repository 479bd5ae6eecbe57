import TypedConsole.Proofs.Sorting
import Mathlib.Data.List.Perm.Basic
import Mathlib.Data.Set.Card

/-!
# TypedConsole.Proofs.Contents

What sets and maps hold.

A set holds exactly the elements it is made of, each of them once.  A map is made if no key is
repeated, and then it holds exactly the bindings it is made of.  Whether a key is repeated is noted
while the bindings come in, and the map goes on with the later one; `Collected` is what is true
of the map and of the note all along, whatever has come in.
-/

namespace TypedConsole.Value

/-! ## keys -/

theorem compare_self (a : Value) : compare a a = .eq := by
  have h := compare_swap a a
  cases hc : compare a a <;> simp_all [Ordering.swap]

/-- Values are the same if they are neither below nor above one another, and only then. -/
theorem compare_eq_iff {a b : Value} : compare a b = .eq ↔ a = b :=
  ⟨eq_of_compare a b, fun h => h ▸ compare_self a⟩

theorem Before.ne {a b : Value} (h : a.Before b) : a ≠ b := fun he => not_before_self b (he ▸ h)

/-! ## sets -/

/-- An insertion adds the element and keeps the others. -/
theorem mem_insert {v w : Value} {ws : List Value} : w ∈ insert v ws ↔ w = v ∨ w ∈ ws := by
  refine ⟨mem_of_mem_insert, fun h => ?_⟩
  induction ws with
  | nil => simpa [insert] using h
  | cons u ws ih =>
      simp only [insert]
      split
      · exact List.mem_cons.2 h
      · next heq =>
          obtain rfl := compare_eq_iff.1 heq
          rcases h with rfl | h
          · exact List.mem_cons_self
          · exact h
      · rcases h with rfl | h
        · exact List.mem_cons_of_mem u (ih (.inl rfl))
        · exact (List.mem_cons.1 h).elim (fun he => he ▸ List.mem_cons_self)
            fun h => List.mem_cons_of_mem u (ih (.inr h))

/-- **A set has exactly the elements it is made of.** -/
theorem mem_distinct {v : Value} {vs : List Value} : v ∈ distinct vs ↔ v ∈ vs := by
  suffices hgen : ∀ set, v ∈ vs.foldl (fun set v => insert v set) set ↔ v ∈ set ∨ v ∈ vs by
    simpa [distinct] using hgen []
  induction vs with
  | nil => simp
  | cons w vs ih => simp [ih, mem_insert, or_assoc, or_left_comm]

theorem nodup_distinct (vs : List Value) : (distinct vs).Nodup :=
  (distinct_spec vs).1.imp Before.ne

/-- Increasing lists with the same elements are the same. -/
theorem eq_of_mem_iff {vs ws : List Value} (hvs : vs.Pairwise Before) (hws : ws.Pairwise Before)
    (h : ∀ v, v ∈ vs ↔ v ∈ ws) : vs = ws := by
  have hperm : vs.Perm ws :=
    (List.perm_ext_iff_of_nodup (hvs.imp Before.ne) (hws.imp Before.ne)).2 h
  exact (distinct_eq_of_perm (.refl vs) hvs).symm.trans (distinct_eq_of_perm hperm hws)

/-- A set has as many elements as there are distinct ones. -/
theorem length_distinct (vs : List Value) : (distinct vs).length = {v | v ∈ vs}.ncard := by
  classical
  have hset : {v | v ∈ vs} = ((distinct vs).toFinset : Set Value) := by
    ext v
    simp [mem_distinct]
  rw [hset, Set.ncard_coe_finset, List.toFinset_card_of_nodup (nodup_distinct vs)]

/-! ## maps -/

/-- The keys of a list of bindings. -/
def keys (es : List (Value × Value)) : List Value := es.map (·.1)

/-- The keys come one before the other. -/
def Increasing (es : List (Value × Value)) : Prop := es.Pairwise fun e f => e.1.Before f.1

variable {k v : Value} {es fs : List (Value × Value)}

theorem Increasing.nodup_keys (h : Increasing fs) : (keys fs).Nodup :=
  List.pairwise_map.2 (h.imp Before.ne)

/-- A key is bound if it is one of the keys. -/
theorem find?_eq_none_iff : find? k es = none ↔ k ∉ keys es := by
  rw [find?, Option.map_eq_none_iff, List.find?_eq_none]
  simp only [beq_iff_eq, compare_eq_iff, keys, List.mem_map, not_exists, not_and]
  exact ⟨fun h e he hk => h e he hk.symm, fun h e he hk => h e he hk.symm⟩

/-- What is found under a key is bound to it. -/
theorem mem_of_find? (h : find? k es = some v) : (k, v) ∈ es := by
  obtain ⟨e, he, rfl⟩ := Option.map_eq_some_iff.1 h
  have hk : k = e.1 := compare_eq_iff.1 (by simpa using List.find?_some he)
  exact hk ▸ List.mem_of_find?_eq_some he

/-- What is bound to a key is found under it, if the keys are distinct. -/
theorem find?_eq_some_iff (hes : (keys es).Nodup) : find? k es = some v ↔ (k, v) ∈ es := by
  refine ⟨mem_of_find?, fun h => ?_⟩
  cases hfind : find? k es with
  | none => exact absurd (List.mem_map.2 ⟨_, h, rfl⟩) (find?_eq_none_iff.1 hfind)
  | some w =>
      have he := List.inj_on_of_nodup_map hes (mem_of_find? hfind) h rfl
      rw [(Prod.mk.inj he).2]

/-- A binding adds its key and keeps the others. -/
theorem mem_keys_bind {l : Value} : l ∈ keys (bind k v es) ↔ l = k ∨ l ∈ keys es := by
  induction es with
  | nil => simp [bind, keys]
  | cons e es ih =>
      simp only [bind]
      split
      · simp [keys]
      · next heq =>
          obtain rfl := compare_eq_iff.1 heq
          simp [keys]
      · simp only [keys, List.map_cons, List.mem_cons] at ih ⊢
        rw [ih, or_left_comm]

/-- A binding of a new key is one more. -/
theorem bind_perm (h : k ∉ keys es) : (bind k v es).Perm ((k, v) :: es) := by
  induction es with
  | nil => exact .refl _
  | cons e es ih =>
      simp only [keys, List.map_cons, List.mem_cons, not_or] at h
      simp only [bind]
      split
      · exact .refl _
      · next heq => exact absurd (compare_eq_iff.1 heq) h.1
      · exact ((ih h.2).cons e).trans (.swap ..)

/-- `Collected es s`: what has become of the bindings `es`, in the order in which they came in.  The
state `s` is the map so far and whether all keys were new. -/
structure Collected (es : List (Value × Value)) (s : List (Value × Value) × Bool) : Prop where
  increasing : Increasing s.1
  mem_keys : ∀ k, k ∈ keys s.1 ↔ k ∈ keys es
  unique : s.2 = true ↔ (keys es).Nodup
  perm : s.2 = true → s.1.Perm es

theorem collected_nil : Collected [] ([], true) :=
  ⟨.nil, fun _ => .rfl, by simp [keys], fun _ => .refl _⟩

/-- One binding more. -/
theorem Collected.snoc {s : List (Value × Value) × Bool} (h : Collected es s) (k v : Value) :
    Collected (es ++ [(k, v)]) ((bindSorted s.1 k v).1, s.2 && (bindSorted s.1 k v).2) := by
  have hkeys : keys (es ++ [(k, v)]) = keys es ++ [k] := by simp [keys]
  have hnew : (find? k s.1).isNone = true ↔ k ∉ keys es := by
    rw [Option.isNone_iff_eq_none, find?_eq_none_iff, h.mem_keys]
  refine ⟨pairwise_bind k v h.increasing, fun l => ?_, ?_, fun hunique => ?_⟩
  · rw [hkeys, bindSorted, mem_keys_bind, h.mem_keys]
    simp [or_comm]
  · rw [hkeys, bindSorted, Bool.and_eq_true, h.unique, hnew,
      (List.perm_append_singleton k (keys es)).nodup_iff, List.nodup_cons, and_comm]
  · obtain ⟨hs, hk⟩ := Bool.and_eq_true_iff.1 hunique
    have hk' : k ∉ keys s.1 := by rwa [h.mem_keys, ← hnew]
    exact (bind_perm hk').trans (((h.perm hs).cons (k, v)).trans
      (List.perm_append_singleton (k, v) es).symm)

/-- The bindings of a list, in the order of the list. -/
def collect (es : List (Value × Value)) : List (Value × Value) × Bool :=
  es.foldl (fun s e => ((bindSorted s.1 e.1 e.2).1, s.2 && (bindSorted s.1 e.1 e.2).2)) ([], true)

theorem bindAll_eq_collect (es : List (Value × Value)) :
    Parser.bindAll bindSorted es = if (collect es).2 then some (collect es).1 else none := rfl

theorem collected_collect (es : List (Value × Value)) : Collected es (collect es) := by
  induction es using List.reverseRecOn with
  | nil => exact collected_nil
  | append_singleton es e ih =>
      rw [collect, List.foldl_append]
      exact ih.snoc e.1 e.2

/-- **Bindings make a map exactly if no key is repeated.**  The map lists them in increasing order
of their keys. -/
theorem bindAll_eq_some_iff :
    Parser.bindAll bindSorted es = some fs ↔ (keys es).Nodup ∧ fs.Perm es ∧ Increasing fs := by
  have h := collected_collect es
  constructor
  · intro hbind
    rw [bindAll_eq_collect, Option.ite_none_right_eq_some] at hbind
    obtain ⟨hunique, hfs⟩ := hbind
    obtain rfl := Option.some.inj hfs
    exact ⟨h.unique.1 hunique, h.perm hunique, h.increasing⟩
  · rintro ⟨-, hperm, hfs⟩
    exact bindAll_eq_of_perm hperm.symm hfs

/-- Bindings without a repeated key make a map. -/
theorem exists_bindAll (hes : (keys es).Nodup) :
    ∃ fs, Parser.bindAll bindSorted es = some fs := by
  refine ⟨(collect es).1, ?_⟩
  rw [bindAll_eq_collect, if_pos ((collected_collect es).unique.2 hes)]

/-- Maps with the same bindings are the same. -/
theorem Increasing.eq_of_perm (hfs : Increasing fs) (hes : Increasing es) (h : fs.Perm es) :
    fs = es := by
  have hself := bindAll_eq_of_perm (.refl fs) hfs
  exact Option.some.inj (hself.symm.trans (bindAll_eq_of_perm h hes))

end TypedConsole.Value
