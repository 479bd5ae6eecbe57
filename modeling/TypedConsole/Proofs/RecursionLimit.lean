import TypedConsole.Catalogue.Records
import TypedConsole.Proofs.NestedCreations

/-!
# TypedConsole.Proofs.RecursionLimit

The limit of 64 creations that are nested in one another.

* More stored parsers do no harm.  What is made in one registry is made in another that stores more,
  if types that are stored there come with their parts (`Supplied.creates`).
* Types that are made of one another are too deep for every limit (`tooDeep_of_cycle`).
* The counter of the creations under way is at zero again after each of several resolutions that
  share it (`run_resolveSharing`).
* A parser that is registered without the parsers of its parts can do harm: these are then not
  stored for other types to share (`not_forall_resolve_register`).
-/

namespace TypedConsole

namespace Registry

open Resolution (Creates Runs runs_resolve)

variable {r r' r'' : Registry} {t u : Ty} {ts : List Ty} {p : Parser} {n depth : Nat}

/-! ## more parsers -/

/-- `r.Supplied needed r'`: more may be stored in `r'` than in `r`, and whatever is stored there of
the needed types, their parts are stored too. -/
structure Supplied (needed : Ty → Prop) (r r' : Registry) : Prop extends Within r r' where
  closed : ∀ t, needed t → r.lookup t = none → ∀ u ∈ t.parts r.types, needed u
  parts : ∀ t, needed t → r.lookup t = none → r'.lookup t ≠ none →
    ∀ u ∈ t.parts r.types, r'.lookup u ≠ none

namespace Supplied

variable {needed : Ty → Prop} {ps : List Parser} {q : Parser}

theorem addSpecial (h : Supplied needed r r') (cs ds : List Char) :
    Supplied needed (r.addSpecial cs) (r'.addSpecial ds) :=
  ⟨⟨h.types, h.stored⟩, h.closed, h.parts⟩

theorem addSpecial_left (h : Supplied needed r r') (cs : List Char) :
    Supplied needed (r.addSpecial cs) r' :=
  ⟨⟨h.types, h.stored⟩, h.closed, h.parts⟩

/-- A parser is stored on the left that there is on the right already. -/
theorem register_left (h : Supplied needed r r') (ht : r'.lookup t ≠ none) :
    Supplied needed (r.register t p) r' := by
  have hnone : ∀ u, (r.register t p).lookup u = none → r.lookup u = none :=
    fun u => (Within.register r t p).lookup_eq_none
  refine ⟨⟨h.types, fun u hu => ?_⟩, fun u hu hn => h.closed u hu (hnone u hn),
    fun u hu hn => h.parts u hu (hnone u hn)⟩
  by_cases he : u = t
  · exact he ▸ ht
  · rw [lookup_register_of_ne r p he] at hu
    exact h.stored u hu

/-- A type is given a parser on both sides. -/
theorem register (h : Supplied needed r r') (t : Ty) (p q : Parser) :
    Supplied needed (r.register t p) (r'.register t q) := by
  have hstored := (Within.register r' t q).stored
  have hold : ∀ u, (r.register t p).lookup u = none → u ≠ t ∧ r.lookup u = none := fun u hu =>
    ⟨fun he => by simp [he, lookup_register_self] at hu,
      (Within.register r t p).lookup_eq_none hu⟩
  refine ⟨⟨h.types, fun u hu => ?_⟩, fun u hu hn => h.closed u hu (hold u hn).2,
    fun u hu hn hs v hv => ?_⟩
  · by_cases he : u = t
    · simp [he, lookup_register_self]
    · rw [lookup_register_of_ne r p he] at hu
      exact hstored u (h.stored u hu)
  · obtain ⟨hne, hn⟩ := hold u hn
    rw [lookup_register_of_ne r' q hne] at hs
    exact hstored v (h.parts u hu hn hs v hv)

/-- What is made of types that are stored on the right is stored there. -/
theorem of_creates (h : Supplied needed r r') (hts : ∀ t ∈ ts, needed t ∧ r'.lookup t ≠ none)
    (hr : Creates n ts r ps r'') : Supplied needed r'' r' := by
  induction hr with
  | nil => exact h
  | stored _ _ ih => exact ih h fun u hu => hts u (List.mem_cons_of_mem _ hu)
  | @made t r _ _ _ _ _ _ _ _ ht _ _ _ ihparts ih =>
      obtain ⟨hneeded, hstored⟩ := hts t List.mem_cons_self
      have hmade := ihparts (h.addSpecial_left _) fun u hu =>
        ⟨h.closed t hneeded ht u hu, h.parts t hneeded ht hstored u hu⟩
      exact ih (hmade.register_left hstored) fun u hu => hts u (List.mem_cons_of_mem _ hu)

/-- **What is made in one registry is made in a supplied one**, and the creations nest no deeper. -/
theorem creates (h : Supplied needed r r') (hts : ∀ t ∈ ts, needed t)
    (hr : Creates n ts r ps r'') :
    ∃ m ≤ n, ∃ qs r₁, Creates m ts r' qs r₁ ∧ Supplied needed r'' r₁ := by
  induction hr generalizing r' with
  | nil => exact ⟨0, Nat.le_refl _, [], r', .nil, h⟩
  | stored ht _ ih =>
      obtain ⟨q, hq⟩ := Option.ne_none_iff_exists'.1 (h.stored _ (ht ▸ Option.some_ne_none _))
      obtain ⟨m, hm, qs, r₁, hrest, h⟩ := ih h fun u hu => hts u (List.mem_cons_of_mem _ hu)
      exact ⟨m, hm, q :: qs, r₁, .stored hq hrest, h⟩
  | @made t r _ _ _ p _ _ _ _ ht hparts hp _ ihparts ih =>
      have hneeded := hts t List.mem_cons_self
      have hrest := fun u hu => hts u (List.mem_cons_of_mem t hu)
      have hclosed := h.closed t hneeded ht
      cases hq : r'.lookup t with
      | some q =>
          have hstored : r'.lookup t ≠ none := by simp [hq]
          have hmade := (h.addSpecial_left (t.delimiters r.types)).of_creates
            (fun u hu => ⟨hclosed u hu, h.parts t hneeded ht hstored u hu⟩) hparts
          obtain ⟨m, hm, qs, r₁, hts, h⟩ := ih (hmade.register_left hstored) hrest
          exact ⟨m, by omega, q :: qs, r₁, .stored hq hts, h⟩
      | none =>
          obtain ⟨m, hm, qs, r₁, hparts', hmade⟩ :=
            ihparts (h.addSpecial _ (t.delimiters r'.types)) hclosed
          obtain ⟨q, hq'⟩ : ∃ q, t.compose r.types qs = .ok q := by
            refine Ty.exists_compose (length_of_creates hparts') fun hnil => ⟨p, ?_⟩
            have hlength := length_of_creates hparts
            rw [hnil] at hlength
            rwa [List.length_eq_zero_iff.1 hlength.symm] at hp
          rw [← h.types] at hparts' hq'
          obtain ⟨n, hn, qs, r₂, hts, h⟩ := ih (hmade.register t _ q) hrest
          exact ⟨max (m + 1) n, by omega, q :: qs, r₂, .made hq hparts' hq' hts, h⟩

end Supplied

/-- `r.SuppliedFor t r'`: more may be stored in `r'` than in `r`, and whatever is stored there of
the types that making `t` needs, their parts are stored too. -/
structure SuppliedFor (t : Ty) (r r' : Registry) : Prop extends Within r r' where
  parts : ∀ u, r.Needs t u → r'.lookup u ≠ none → ∀ v ∈ u.parts r.types, r'.lookup v ≠ none

theorem Needs.lookup_eq_none (h : r.Needs t u) : r.lookup u = none := by
  induction h with
  | self h => exact h
  | part _ _ _ ih => exact ih

theorem SuppliedFor.supplied (h : r.SuppliedFor t r') :
    Supplied (fun u => r.lookup u ≠ none ∨ r.Needs t u) r r' where
  toWithin := h.toWithin
  closed u hu hnone v hv := by
    by_cases hstored : r.lookup v = none
    · have hneeds := hu.resolve_left fun hne => hne hnone
      exact .inr (hneeds.trans (.part hnone hv (.self hstored)))
    · exact .inl hstored
  parts u hu hnone := h.parts u (hu.resolve_left fun hne => hne hnone)

theorem Stored.lookup_ne_none {ps : List Parser} (h : r.Stored ts ps) :
    ∀ t ∈ ts, r.lookup t ≠ none := by
  refine ((List.forall₂_and_left ts ps).1 (h.imp fun t p hp => ⟨?_, hp⟩)).1
  simp [hp]

/-- What resolution stores, it stores with its parts. -/
theorem suppliedFor_resolve (r : Registry) (s t : Ty) : r.SuppliedFor t (r.resolve s).2 := by
  have hgains := r.gains_resolve s
  refine ⟨.of_gains hgains, fun u hu hstored v hv => ?_⟩
  obtain ⟨p, hp⟩ := Option.ne_none_iff_exists'.1 hstored
  have hcomposed := keepsComposed_of_runs (runs_resolve r s) u fun q hq => by
    rw [hu.lookup_eq_none] at hq
    contradiction
  obtain ⟨ps, hps, -⟩ := hcomposed p hp
  rw [hgains.types] at hps
  exact hps.lookup_ne_none v hv

/-! ## types made of one another -/

/-- Two types that are made of nothing but one another are too deep for every limit. -/
theorem tooDeep_of_cycle {outcome : Except ResolveError Parser}
    (h : Runs depth t r outcome r') (ht : r.lookup t = none) (hu : r.lookup u = none)
    (htparts : t.parts r.types = [u]) (huparts : u.parts r.types = [t]) :
    (∃ v, outcome = .error (.tooDeep v)) ∧ r'.lookup t = none ∧ r'.lookup u = none := by
  induction depth generalizing t u r r' outcome with
  | zero =>
      obtain ⟨rfl, rfl⟩ := h.of_zero ht
      exact ⟨⟨t, rfl⟩, ht, hu⟩
  | succ depth ih =>
      obtain ⟨outcome₁, r₁, hpart, -, herror⟩ := h.single ht htparts
      obtain ⟨⟨v, hv⟩, hu', ht'⟩ := ih hpart hu ht huparts htparts
      obtain ⟨rfl, rfl⟩ := herror _ hv
      exact ⟨⟨v, rfl⟩, ht', hu'⟩

end Registry

/-! ## resolutions that share the counter -/

namespace Resolution

/-- Resolutions one after the other.  The counter stays where it is in between. -/
def resolveSharing (ts : List Ty) :
    StateT Nat (StateM Registry) (List (Except ResolveError Parser)) :=
  ts.mapM fun t => (resolveCounting (resolveDepth + 1) t).run

end Resolution

namespace Registry

open Resolution (Creates Runs agrees_resolveCounting resolveCounting resolveSharing
  resolve_eq_resolveWithin runs_resolve runs_resolve_iff runs_ok_iff_creates)

variable {r r' : Registry} {t : Ty} {n depth : Nat}

theorem exists_creates_of_resolve (h : ∃ p, (r.resolve t).1 = .ok p) :
    ∃ n ≤ resolveDepth, ∃ p r', Creates n [t] r [p] r' := by
  obtain ⟨p, hp⟩ := h
  obtain ⟨n, hn, h⟩ := runs_ok_iff_creates.1 (hp ▸ runs_resolve r t)
  exact ⟨n, hn, p, _, h⟩

/-- **A type that can be made** is resolved exactly if its creations nest no deeper than the
limit. -/
theorem resolve_ok_iff_of_creates {p : Parser} (h : Creates n [t] r [p] r') :
    (∃ q, (r.resolve t).1 = .ok q) ↔ n ≤ resolveDepth := by
  constructor
  · intro hok
    obtain ⟨m, hm, q, r₁, h'⟩ := exists_creates_of_resolve hok
    obtain ⟨rfl, -⟩ := h.unique h'
    exact hm
  · intro hn
    exact ⟨p, congrArg Prod.fst (runs_resolve_iff.1 (runs_ok_iff_creates.2 ⟨n, hn, h⟩))⟩

theorem exists_creates_of_nesting (hleaves : r.HasLeaves t)
    (hnesting : ∀ n, r.Nesting t n → n ≤ depth) :
    ∃ n ≤ depth, ∃ p r', Creates n [t] r [p] r' := by
  have hparts : ∀ u ∈ [t], r.HasLeaves u ∧ ∀ n, r.Nesting u n → n ≤ depth := by
    simpa using ⟨hleaves, hnesting⟩
  obtain ⟨n, hn, ps, r', h⟩ := creates_of_nesting hparts
  obtain ⟨p, rfl⟩ := List.length_eq_one_iff.1 (length_of_creates h).symm
  exact ⟨n, hn, p, r', h⟩

/-- What could be resolved still can be when more is stored, together with its parts. -/
theorem SuppliedFor.resolve_ok (h : r.SuppliedFor t r') (hok : ∃ p, (r.resolve t).1 = .ok p) :
    ∃ p, (r'.resolve t).1 = .ok p := by
  obtain ⟨n, hn, p, r₁, hr⟩ := exists_creates_of_resolve hok
  have hneeded : r.lookup t ≠ none ∨ r.Needs t t := by
    by_cases ht : r.lookup t = none
    · exact .inr (.self ht)
    · exact .inl ht
  obtain ⟨m, hm, qs, r₂, hr', -⟩ := h.supplied.creates (by simpa using hneeded) hr
  obtain ⟨q, rfl⟩ := List.length_eq_one_iff.1 (length_of_creates hr').symm
  exact (resolve_ok_iff_of_creates hr').2 (hm.trans hn)

theorem resolve_ok_after (hok : ∃ p, (r.resolve t).1 = .ok p) (calls : List RegistryCall) :
    ∃ p, ((r.after calls).resolve t).1 = .ok p := by
  obtain ⟨ts, -, hafter⟩ := r.after_resolves calls
  rw [hafter]
  clear hafter
  induction ts generalizing r with
  | nil => exact hok
  | cons s ts ih => exact ih ((suppliedFor_resolve r s t).resolve_ok hok)

/-- Resolutions one after the other, each with no creation under way. -/
def resolveEach (r : Registry) : List Ty → List (Except ResolveError Parser) × Registry
  | [] => ([], r)
  | t :: ts =>
    (((r.resolve t).1 :: ((r.resolve t).2.resolveEach ts).1), ((r.resolve t).2.resolveEach ts).2)

/-- **The counter is at zero again** after every resolution, also when it fails. -/
theorem run_resolveSharing (r : Registry) (ts : List Ty) :
    ((resolveSharing ts).run 0).run r = (((r.resolveEach ts).1, 0), (r.resolveEach ts).2) := by
  induction ts generalizing r with
  | nil => rfl
  | cons t ts ih =>
      have hfirst : ((resolveCounting (resolveDepth + 1) t).run.run 0).run r =
          (((r.resolve t).1, 0), (r.resolve t).2) := by
        have h := agrees_resolveCounting (k := 0) (Nat.lt_succ_self _) t r
        rwa [Nat.sub_zero, ← resolve_eq_resolveWithin] at h
      have hrest := congrArg (fun x => (((r.resolve t).1 :: x.1.1, x.1.2), x.2))
        (ih (r.resolve t).2)
      simp only [resolveSharing, List.mapM_cons, StateT.run_bind, hfirst] at hrest ⊢
      exact hrest

/-- **The recursion limit.**
* A type that can be made without any limit is resolved exactly if its creations nest at most 64
  deep.
* It can be made so if all chains of parts that are to be made end, in types that have parsers, and
  its creations nest no deeper than the longest chain.  If that has at most 64 types, then it is
  resolved, whatever more is stored.
* A tower of options is resolved exactly if at most 64 of its levels are to be made, where the base
  counts for as many levels as its own creations nest.  They are not more when more is stored.  If
  it fails, none of its levels is stored, and if the base is made without nested creations, nothing
  at all.
* What can be resolved still can be after any resolutions and builds, whatever these store.  The
  same holds when parsers are registered, if those that the type needs have their parts stored.  A
  parser that is registered without its parts is another matter, since it keeps the parts from being
  stored for other types to share.
* A type that is made of a sequence of itself is too deep, and neither is stored.
* Resolutions that share the counter of creations do what they do with a counter of their own: it
  stands at zero before and after each of them, also when it fails. -/
theorem recursion_limit (r : Registry) :
    (∀ t n p r', Creates n [t] r [p] r' → ((∃ q, (r.resolve t).1 = .ok q) ↔ n ≤ 64)) ∧
      (∀ t depth, r.HasLeaves t → (∀ n, r.Nesting t n → n ≤ depth) →
        (∃ n ≤ depth, ∃ p r', Creates n [t] r [p] r') ∧
          (depth ≤ 64 → ∀ r', r.Within r' → ∃ p, (r'.resolve t).1 = .ok p)) ∧
      (∀ base m p r', Creates m [base] r [p] r' → ∀ n,
        ((∃ q, (r.resolve (.options n base)).1 = .ok q) ↔ r.levels base m n ≤ 64) ∧
          (∀ r', r.Within r' → ∀ m' ≤ m, r'.levels base m' n ≤ r.levels base m n) ∧
          (m ≤ 1 → ∀ e, (r.resolve (.options n base)).1 = .error e →
            (r.resolve (.options n base)).2 = r)) ∧
      (∀ base n e, (r.resolve (.options n base)).1 = .error e → ∀ k ≤ n,
        (r.resolve (.options n base)).2.lookup (.options k base) = r.lookup (.options k base)) ∧
      (∀ t, (∃ p, (r.resolve t).1 = .ok p) →
        (∀ calls, ∃ p, ((r.after calls).resolve t).1 = .ok p) ∧
          ∀ r', r.SuppliedFor t r' → ∃ p, (r'.resolve t).1 = .ok p) ∧
      (∀ path args name zero, r.types path args =
          some ⟨.alias name (.sequence .vector (.declared path args)), zero⟩ →
        r.lookup (.declared path args) = none →
        r.lookup (.sequence .vector (.declared path args)) = none →
        (∃ u, (r.resolve (.declared path args)).1 = .error (.tooDeep u)) ∧
          (r.resolve (.declared path args)).2.lookup (.declared path args) = none ∧
          (r.resolve (.declared path args)).2.lookup
            (.sequence .vector (.declared path args)) = none) ∧
      ∀ ts, ((resolveSharing ts).run 0).run r =
        (((r.resolveEach ts).1, 0), (r.resolveEach ts).2) := by
  refine ⟨fun t n p r' h => resolve_ok_iff_of_creates h, fun t depth hleaves hnesting => ?_,
    fun base m p r' h n => ?_, fun base n e he => (options_failed (he ▸ runs_resolve r _)).1,
    fun t hok => ⟨resolve_ok_after hok, fun r' h => h.resolve_ok hok⟩,
    fun path args name zero ht hself hsequence => ?_, run_resolveSharing r⟩
  · refine ⟨exists_creates_of_nesting hleaves hnesting, fun hdepth r' hwithin => ?_⟩
    obtain ⟨n, hn, p, r₁, h⟩ := exists_creates_of_nesting (hwithin.hasLeaves hleaves)
      fun n hn => hnesting n (hwithin.nesting hn)
    exact (resolve_ok_iff_of_creates h).2 (hn.trans hdepth)
  · obtain ⟨q, r₁, hcreates⟩ := creates_options h n
    refine ⟨resolve_ok_iff_of_creates hcreates, fun r' hwithin m' hm => hwithin.levels_le hm n,
      fun hm e he => ?_⟩
    obtain hsame | ⟨d, e', hbase⟩ := (options_failed (he ▸ runs_resolve r _)).2
    · exact hsame
    · -- a base without nested creations is made at any depth
      have hok := runs_ok_iff_creates.2 ⟨m, hm.trans (Nat.le_add_left 1 d), h⟩
      cases (Prod.mk.inj (hok.symm.trans hbase)).1
  · have hparts : (Ty.declared path args).parts r.types =
        [.sequence .vector (.declared path args)] := by
      simp only [Ty.parts, recordSpec?, ht]
    exact tooDeep_of_cycle (runs_resolve r _) hself hsequence hparts rfl

/-- In a new registry sixty-three options can be resolved, and sixty-four cannot, and nor can the
type of the catalogue that contains itself. -/
theorem recursion_limit_options :
    (∃ p, ((empty (Catalogue.types {})).resolve (.options 63 Catalogue.byte)).1 = .ok p) ∧
      (¬ ∃ p, ((empty (Catalogue.types {})).resolve (.options 64 Catalogue.byte)).1 = .ok p) ∧
      (∃ u, ((empty (Catalogue.types {})).resolve (Catalogue.type "Node")).1 =
        .error (.tooDeep u)) ∧
      ∀ ts, (((Resolution.resolveSharing ts).run 0).run (empty (Catalogue.types {}))).1.2 = 0 := by
  obtain ⟨-, -, htower, -, -, hself, hshared⟩ := recursion_limit (empty (Catalogue.types {}))
  have hbyte : Creates 1 [Catalogue.byte] (empty (Catalogue.types {})) [.integer .u8] _ :=
    .made rfl .nil rfl .nil
  refine ⟨(htower _ _ _ _ hbyte 63).1.2 (by decide), fun hok => ?_, ?_,
    fun ts => by rw [hshared ts]⟩
  · exact absurd ((htower _ _ _ _ hbyte 64).1.1 hok) (by decide)
  · exact (hself _ _ "Node" _ rfl rfl rfl).1

theorem exists_ok_of_isOk {x : Except ResolveError Parser} (h : x.isOk = true) :
    ∃ p, x = .ok p := by
  cases x with
  | error e => cases h
  | ok p => exact ⟨p, rfl⟩

/-- Not every type that can be resolved still can be when a parser is registered.  Sixty-two options
share their levels with the sixty-one in a sequence of sequences, and do not when they have a parser
that brings none. -/
theorem not_forall_resolve_register :
    ¬ ∀ (r : Registry) (t u : Ty) (p : Parser),
      (∃ q, (r.resolve t).1 = .ok q) → ∃ q, ((r.register u p).resolve t).1 = .ok q := by
  intro h
  have hbefore : ((empty fun _ _ => none).resolve (.tuple [.options 62 Catalogue.byte,
      .sequence .vector (.sequence .vector (.options 61 Catalogue.byte))])).1.isOk = true := by
    decide +kernel
  have hafter : (((empty fun _ _ => none).register (.options 62 Catalogue.byte)
      (Nat.repeat .optional 62 (.integer .u8))).resolve (.tuple [.options 62 Catalogue.byte,
      .sequence .vector (.sequence .vector (.options 61 Catalogue.byte))])).1.isOk = false := by
    decide +kernel
  obtain ⟨q, hq⟩ := h _ _ _ (Nat.repeat .optional 62 (.integer .u8))
    (exists_ok_of_isOk hbefore)
  rw [hq] at hafter
  cases hafter

end Registry

end TypedConsole
