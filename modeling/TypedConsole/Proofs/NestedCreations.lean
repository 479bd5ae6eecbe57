import TypedConsole.Proofs.Failure

/-!
# TypedConsole.Proofs.NestedCreations

How deep the making of parsers nests.

* `Resolution.Creates` is resolution without a limit.  It says how deep its creations nest in one
  another, and resolution within a depth succeeds exactly if that is no more
  (`runs_ok_iff_creates`).
* `Registry.Nesting` counts the chains of types that lead to parts of parts.  Creations nest no
  deeper than the longest chain (`creates_of_nesting`), and less deep where types share their parts.
* For towers of options the levels to be made are counted exactly (`creates_options`), and none of
  them is stored if a tower fails (`options_failed`).
-/

namespace TypedConsole

/-! ## what can be composed -/

/-- A type can be composed of any parsers for its parts.  Without parts it may have no parser at
all. -/
theorem Ty.exists_compose {types : Declarations} {t : Ty} {ps : List Parser}
    (hlength : (t.parts types).length = ps.length)
    (hleaf : t.parts types = [] → ∃ p, t.compose types [] = .ok p) :
    ∃ p, t.compose types ps = .ok p := by
  cases ps with
  | nil => exact hleaf (List.length_eq_zero_iff.1 hlength)
  | cons q qs =>
      cases hspec : recordSpec? types t with
      | some spec =>
          simp only [compose, hspec]
          exact ⟨_, rfl⟩
      | none =>
          cases t with
          | string | char | bool | integer | float => exact ⟨_, rfl⟩
          | optional | sequence | set =>
              obtain rfl := List.length_eq_zero_iff.1 (Nat.succ.inj hlength.symm)
              exact ⟨_, rfl⟩
          | pair k v =>
              obtain ⟨_, rfl⟩ := List.length_eq_one_iff.1 (Nat.succ.inj hlength.symm)
              exact ⟨_, rfl⟩
          | map i k v =>
              obtain ⟨_, _, rfl⟩ := List.length_eq_two.1 (Nat.succ.inj hlength.symm)
              exact ⟨_, rfl⟩
          | tuple => contradiction
          | declared path args =>
              simp only [parts, hspec] at hlength
              split at hlength
              · next name t zero ht =>
                  obtain rfl := List.length_eq_zero_iff.1 (Nat.succ.inj hlength.symm)
                  simp only [compose, hspec, ht]
                  exact ⟨_, rfl⟩
              · cases hlength

namespace Resolution

open Registry (PartOf gains_of_runs gains_of_allMade stored_of_allMade)

/-! ## one level of creations -/

section OneLevel

variable {depth : Nat} {t u : Ty} {ts : List Ty} {r r' : Registry} {p : Parser}
  {ps : List Parser} {outcome : Except ResolveError Parser}

/-- What is stored is found within any depth. -/
theorem runs_of_stored (h : r.lookup t = some p) : Runs depth t r (.ok p) r := by
  have hrun : Runs depth t r ((resolveWithin depth t).on r).1
      ((resolveWithin depth t).on r).2 := rfl
  obtain ⟨houtcome, hr⟩ := hrun.of_stored h
  exact Prod.ext houtcome hr

/-- **The equation of a creation**: what delimits the literals becomes special, the parts are
resolved one level deeper, and the parser that is composed of them is stored, unless there is one
by then. -/
theorem on_resolveWithin_succ (ht : r.lookup t = none) : (resolveWithin (depth + 1) t).on r =
    match ((t.parts r.types).mapM (resolveWithin depth)).on
        (r.addSpecial (t.delimiters r.types)) with
    | (.error e, r') => (.error e, r')
    | (.ok ps, r') =>
      match t.compose r.types ps with
      | .error e => (.error e, r')
      | .ok p =>
        match r'.lookup t with
        | some q => (.ok q, r')
        | none => (.ok p, r'.register t p) := by
  simp only [resolveWithin, on_bind, on_get, ht, on_create]
  generalize ((t.parts r.types).mapM (resolveWithin depth)).on _ = run
  rcases run with ⟨_ | ps, r'⟩
  · rfl
  · simp only
    cases t.compose r.types ps with
    | error e => rfl
    | ok p => cases hq : r'.lookup t <;> simp only [on_storeIfAbsent, hq]

theorem AllMade.on (h : AllMade (Runs depth) ts r ps r') :
    (ts.mapM (resolveWithin depth)).on r = (.ok ps, r') := by
  induction h with
  | nil => rfl
  | cons h _ ih =>
      have hfirst : (resolveWithin depth _).on _ = _ := h
      simp only [on_mapM_cons, hfirst, ih]

/-- While the parts of a type are made, the type itself is not. -/
theorem lookup_of_allMade (ht : r.lookup t = none)
    (h : AllMade (Runs depth) (t.parts r.types) (r.addSpecial (t.delimiters r.types)) ps r') :
    r'.lookup t = none := by
  by_contra hstored
  have hgains := gains_of_allMade (h.imp fun _ _ _ _ => gains_of_runs)
  obtain ⟨u, hu, hneeds⟩ := hgains.stored t ht hstored
  obtain ⟨-, hparts⟩ := grounded_of_allMade (h.imp fun _ _ _ _ h => ⟨h, h.grounded⟩)
  have hacc : Acc r.PartOf t := .intro t fun u hu => hparts u hu.2
  exact Registry.not_needs_of_acc hacc ⟨ht, hu⟩ (hneeds.anti rfl fun _ _ h => h)

/-- **One level of creations**: a type that is not stored is made, one level deeper, of the parsers
of its parts, and stored when all of these are. -/
theorem runs_succ_ok_iff (ht : r.lookup t = none) : Runs (depth + 1) t r (.ok p) r' ↔
    ∃ ps r₁, AllMade (Runs depth) (t.parts r.types) (r.addSpecial (t.delimiters r.types)) ps r₁ ∧
      t.compose r.types ps = .ok p ∧ r' = r₁.register t p := by
  constructor
  · intro h
    cases h.creation ht with
    | made hparts hp _ => exact ⟨_, _, hparts, hp, rfl⟩
    | found h hq =>
        rw [lookup_of_allMade ht h] at hq
        contradiction
  · rintro ⟨ps, r₁, h, hp, rfl⟩
    simp only [Runs, on_resolveWithin_succ ht, h.on, hp, lookup_of_allMade ht h]

/-- A type with one part succeeds or fails as that part does, one level deeper. -/
theorem Runs.single (h : Runs (depth + 1) t r outcome r') (ht : r.lookup t = none)
    (hu : t.parts r.types = [u]) :
    ∃ outcome₁ r₁, Runs depth u (r.addSpecial (t.delimiters r.types)) outcome₁ r₁ ∧
      ((∃ p, outcome₁ = .ok p) → ∃ p, outcome = .ok p) ∧
      ∀ e, outcome₁ = .error e → outcome = .error e ∧ r' = r₁ := by
  cases h.creation ht with
  | stopped hstopped =>
      rw [hu] at hstopped
      cases hstopped with
      | here hpart =>
          exact ⟨_, _, hpart, fun ⟨_, hp⟩ => by contradiction, fun _ he => ⟨he, rfl⟩⟩
      | later _ hrest => cases hrest
  | unmade hmade he =>
      -- parts there are, so that they can be composed
      obtain ⟨p, hp⟩ := Ty.exists_compose (stored_of_allMade hmade).length_eq
        fun hparts => by simp [hu] at hparts
      cases hp.symm.trans he
  | made hmade _ _ | found hmade _ =>
      rw [hu] at hmade
      cases hmade with
      | cons hpart _ => exact ⟨_, _, hpart, fun _ => ⟨_, rfl⟩, fun _ he => by cases he⟩

end OneLevel

/-! ## nested creations -/

/-- `Creates n ts r ps r'`: without any limit, the types are resolved one after the other, which
gives these parsers, and the creations that it takes nest up to `n` deep. -/
inductive Creates : Nat → List Ty → Registry → List Parser → Registry → Prop
  | nil : Creates 0 [] r [] r
  | stored (h : r.lookup t = some p) (rest : Creates n ts r ps r') :
      Creates n (t :: ts) r (p :: ps) r'
  | made {t : Ty} {r r₁ r' : Registry} {ts : List Ty} {p : Parser} {ps qs : List Parser} {m n : Nat}
      (h : r.lookup t = none)
      (hparts : Creates m (t.parts r.types) (r.addSpecial (t.delimiters r.types)) qs r₁)
      (hp : t.compose r.types qs = .ok p) (rest : Creates n ts (r₁.register t p) ps r') :
      Creates (max (m + 1) n) (t :: ts) r (p :: ps) r'

section Creates

variable {depth : Nat} {t : Ty} {ts : List Ty} {r r' : Registry} {p : Parser} {ps : List Parser}

/-- How deep the creations nest is settled, as are the parsers and the registry. -/
theorem Creates.unique {m n : Nat} {qs : List Parser} {r'' : Registry}
    (h : Creates n ts r ps r') (h' : Creates m ts r qs r'') : n = m ∧ ps = qs ∧ r' = r'' := by
  induction h generalizing m qs r'' with
  | nil =>
      cases h'
      exact ⟨rfl, rfl, rfl⟩
  | stored h _ ih =>
      cases h' with
      | stored h₁ rest =>
          obtain rfl := Option.some.inj (h.symm.trans h₁)
          obtain ⟨rfl, rfl, rfl⟩ := ih rest
          exact ⟨rfl, rfl, rfl⟩
      | made h₁ => cases h.symm.trans h₁
  | made h _ hp _ ihparts ih =>
      cases h' with
      | stored h₁ => cases h.symm.trans h₁
      | made _ hparts hp₁ rest =>
          obtain ⟨rfl, rfl, rfl⟩ := ihparts hparts
          obtain rfl := Except.ok.inj (hp.symm.trans hp₁)
          obtain ⟨rfl, rfl, rfl⟩ := ih rest
          exact ⟨rfl, rfl, rfl⟩

theorem Creates.allMade {n : Nat} (h : Creates n ts r ps r') (hn : n ≤ depth) :
    AllMade (Runs depth) ts r ps r' := by
  induction h generalizing depth with
  | nil => exact .nil
  | stored h _ ih => exact .cons (runs_of_stored h) (ih hn)
  | made h _ hp _ ihparts ih =>
      obtain ⟨depth, rfl⟩ : ∃ d, depth = d + 1 := ⟨depth - 1, by omega⟩
      have hparts := ihparts (Nat.le_of_succ_le_succ (le_trans (Nat.le_max_left ..) hn))
      have hrest := ih (le_trans (Nat.le_max_right ..) hn)
      exact .cons ((runs_succ_ok_iff h).2 ⟨_, _, hparts, hp, rfl⟩) hrest

/-- If the type is made within a depth, then by creations that nest up to that depth. -/
def CreatesWithin (depth : Nat) : Outcome := fun t r outcome r' =>
  ∀ p, outcome = .ok p → ∃ n ≤ depth, Creates n [t] r [p] r'

theorem Creates.cons {m n : Nat} {r₁ : Registry} (h : Creates m [t] r [p] r₁)
    (rest : Creates n ts r₁ ps r') : Creates (max m n) (t :: ts) r (p :: ps) r' := by
  cases h with
  | stored h hnil =>
      cases hnil
      rw [Nat.zero_max]
      exact .stored h rest
  | made h hparts hp hnil =>
      cases hnil
      rw [Nat.max_zero]
      exact .made h hparts hp rest

theorem creates_of_allMade (h : AllMade (CreatesWithin depth) ts r ps r') :
    ∃ n ≤ depth, Creates n ts r ps r' := by
  induction h with
  | nil => exact ⟨0, Nat.zero_le _, .nil⟩
  | cons h _ ih =>
      obtain ⟨m, hm, h⟩ := h _ rfl
      obtain ⟨n, hn, rest⟩ := ih
      exact ⟨max m n, Nat.max_le.2 ⟨hm, hn⟩, h.cons rest⟩

/-- **Resolution within a depth succeeds** exactly if it does without any limit and its creations
nest no deeper than that. -/
theorem runs_ok_iff_creates :
    Runs depth t r (.ok p) r' ↔ ∃ n ≤ depth, Creates n [t] r [p] r' := by
  constructor
  · intro h
    refine runs_induction (motive := CreatesWithin)
      (fun h p hp => ?_) (fun _ _ hp => by cases hp) (fun ht h p hp => ?_) h p rfl
    · obtain rfl := Except.ok.inj hp
      exact ⟨0, Nat.zero_le _, .stored h .nil⟩
    · cases h with
      | stopped | unmade => cases hp
      | made h hcompose _ =>
          obtain rfl := Except.ok.inj hp
          obtain ⟨n, hn, hparts⟩ := creates_of_allMade (h.imp fun _ _ _ _ h => h.2)
          exact ⟨max (n + 1) 0, by omega, .made ht hparts hcompose .nil⟩
      | found h hq =>
          rw [lookup_of_allMade ht (h.imp fun _ _ _ _ h => h.1)] at hq
          contradiction
  · rintro ⟨n, hn, h⟩
    cases h.allMade hn with
    | cons h hnil =>
        cases hnil
        exact h

end Creates

end Resolution

namespace Registry

open Resolution (Creates Runs runs_ok_iff_creates)

/-! ## chains of parts -/

/-- Every stored type is stored later. -/
structure Within (r r' : Registry) : Prop where
  types : r'.types = r.types
  stored : ∀ t, r.lookup t ≠ none → r'.lookup t ≠ none

/-- `r.Nesting t n`: a chain of `n` types leads from `t` on to parts of parts, and none of them is
stored. -/
inductive Nesting (r : Registry) : Ty → Nat → Prop
  | one (h : r.lookup t = none) : Nesting r t 1
  | more (h : r.lookup t = none) (hu : u ∈ t.parts r.types) (hn : Nesting r u n) :
      Nesting r t (n + 1)

/-- All types without parts that are needed for a type have parsers. -/
def HasLeaves (r : Registry) (t : Ty) : Prop :=
  ∀ u, r.Needs t u → u.parts r.types = [] → ∃ p, u.compose r.types [] = .ok p

variable {r r' r'' : Registry} {t u : Ty} {ts : List Ty} {p : Parser} {ps : List Parser}
  {n depth : Nat}

namespace Within

theorem refl (r : Registry) : r.Within r := ⟨rfl, fun _ h => h⟩

theorem trans (h : r.Within r') (h' : r'.Within r'') : r.Within r'' :=
  ⟨h'.types.trans h.types, fun t ht => h'.stored t (h.stored t ht)⟩

theorem addSpecial (r : Registry) (characters : List Char) : r.Within (r.addSpecial characters) :=
  ⟨rfl, fun _ h => h⟩

theorem register (r : Registry) (t : Ty) (p : Parser) : r.Within (r.register t p) where
  types := rfl
  stored u hu := by
    by_cases he : u = t
    · simp [he, lookup_register_self]
    · rwa [lookup_register_of_ne r p he]

theorem of_gains {needed : Ty → Prop} (h : r.Gains needed r') : r.Within r' where
  types := h.types
  stored t ht := by
    obtain ⟨p, hp⟩ := Option.ne_none_iff_exists'.1 ht
    simp [h.kept t p hp]

theorem lookup_eq_none (h : r.Within r') (ht : r'.lookup t = none) : r.lookup t = none := by
  by_contra hstored
  exact h.stored t hstored ht

/-- With more stored, chains only get shorter. -/
theorem nesting (h : r.Within r') (hn : r'.Nesting t n) : r.Nesting t n := by
  induction hn with
  | one ht => exact .one (h.lookup_eq_none ht)
  | more ht hu _ ih => exact .more (h.lookup_eq_none ht) (h.types ▸ hu) ih

theorem needs (h : r.Within r') (hu : r'.Needs t u) : r.Needs t u := by
  induction hu with
  | self ht => exact .self (h.lookup_eq_none ht)
  | part ht hu _ ih => exact .part (h.lookup_eq_none ht) (h.types ▸ hu) ih

theorem hasLeaves (h : r.Within r') (ht : r.HasLeaves t) : r'.HasLeaves t := by
  intro u hu
  rw [h.types]
  exact ht u (h.needs hu)

end Within

theorem HasLeaves.part (h : r.HasLeaves t) (ht : r.lookup t = none) (hu : u ∈ t.parts r.types) :
    r.HasLeaves u := fun v hv => h v (.part ht hu hv)

theorem within_of_creates (h : Creates n ts r ps r') : r.Within r' := by
  induction h with
  | nil => exact .refl _
  | stored _ _ ih => exact ih
  | made _ _ _ _ ihparts ih =>
      exact (((Within.addSpecial _ _).trans ihparts).trans (.register _ _ _)).trans ih

theorem length_of_creates (h : Creates n ts r ps r') : ts.length = ps.length := by
  induction h with
  | nil => rfl
  | stored _ _ ih | made _ _ _ _ _ ih => rw [List.length_cons, List.length_cons, ih]

/-- **Types whose chains are short are made**, if the types at their ends have parsers. -/
theorem creates_of_nesting
    (h : ∀ t ∈ ts, r.HasLeaves t ∧ ∀ n, r.Nesting t n → n ≤ depth) :
    ∃ n ≤ depth, ∃ ps r', Creates n ts r ps r' := by
  induction depth using Nat.strong_induction_on generalizing r ts with
  | h depth ihdepth =>
      induction ts generalizing r with
      | nil => exact ⟨0, Nat.zero_le _, [], r, .nil⟩
      | cons t ts ih =>
          obtain ⟨hleaves, hnesting⟩ := h t List.mem_cons_self
          cases ht : r.lookup t with
          | some p =>
              obtain ⟨n, hn, ps, r', hrest⟩ := ih fun u hu => h u (List.mem_cons_of_mem t hu)
              exact ⟨n, hn, p :: ps, r', .stored ht hrest⟩
          | none =>
              obtain ⟨depth, rfl⟩ := Nat.exists_eq_add_of_le' (hnesting 1 (.one ht))
              have hspecial := Within.addSpecial r (t.delimiters r.types)
              obtain ⟨m, hm, qs, r₁, hparts⟩ := ihdepth depth (Nat.lt_succ_self depth)
                fun u (hu : u ∈ t.parts r.types) =>
                  ⟨hspecial.hasLeaves (hleaves.part ht hu), fun n hn => Nat.le_of_succ_le_succ
                    (hnesting (n + 1) (.more ht hu (hspecial.nesting hn)))⟩
              obtain ⟨p, hp⟩ := Ty.exists_compose (length_of_creates hparts) (hleaves t (.self ht))
              have hwithin : r.Within (r₁.register t p) :=
                (hspecial.trans (within_of_creates hparts)).trans (.register r₁ t p)
              obtain ⟨n, hn, ps, r', hrest⟩ := ih fun u hu =>
                have hu := h u (List.mem_cons_of_mem t hu)
                ⟨hwithin.hasLeaves hu.1, fun n hn => hu.2 n (hwithin.nesting hn)⟩
              exact ⟨max (m + 1) n, by omega, p :: ps, r', .made ht hparts hp hrest⟩

/-! ## towers of options -/

/-- How many creations a tower of options nests: one for each level above the outermost one that is
stored, or one for each level and `m` for the base, if none is. -/
def levels (r : Registry) (base : Ty) (m : Nat) : Nat → Nat
  | 0 => m
  | n + 1 => if r.lookup (.options (n + 1) base) = none then r.levels base m n + 1 else 0

variable {base : Ty} {m : Nat}

theorem levels_of_stored (h : r.lookup (.options (n + 1) base) ≠ none) :
    r.levels base m (n + 1) = 0 := if_neg h

theorem levels_succ (h : r.lookup (.options (n + 1) base) = none) :
    r.levels base m (n + 1) = r.levels base m n + 1 := if_pos h

/-- **A tower of options** is made if its base is, and its levels are what nests. -/
theorem creates_options (h : Creates m [base] r [p] r') (n : Nat) :
    ∃ q r'', Creates (r.levels base m n) [.options n base] r [q] r'' := by
  induction n with
  | zero => exact ⟨p, r', h⟩
  | succ n ih =>
      cases ht : r.lookup (.options (n + 1) base) with
      | some q =>
          rw [levels_of_stored (by simp [ht])]
          exact ⟨q, r, .stored ht .nil⟩
      | none =>
          -- an option has one part and no delimiters
          obtain ⟨q, r₁, hinner⟩ := ih
          rw [levels_succ ht, ← Nat.max_zero (r.levels base m n + 1)]
          exact ⟨.optional q, _, .made ht hinner rfl .nil⟩

/-- **A tower of options fails** where the depth runs out, and then the registry is as it was, or
where its base fails.  None of its levels is stored. -/
theorem options_failed {e : ResolveError} (h : Runs depth (.options n base) r (.error e) r') :
    (∀ k ≤ n, r'.lookup (.options k base) = r.lookup (.options k base)) ∧
      (r' = r ∨ ∃ d e', Runs (d + 1) base r (.error e') r') := by
  induction n generalizing depth e with
  | zero =>
      refine ⟨fun k hk => ?_, ?_⟩
      · rw [Nat.le_zero.1 hk, h.lookup_of_error, h.unstored_of_error]
      · cases depth with
        | zero => exact .inl (h.of_zero h.unstored_of_error).2
        | succ d => exact .inr ⟨d, e, h⟩
  | succ n ih =>
      cases depth with
      | zero =>
          obtain ⟨-, rfl⟩ := h.of_zero h.unstored_of_error
          exact ⟨fun _ _ => rfl, .inl rfl⟩
      | succ depth =>
          obtain ⟨outcome, r₁, hinner, hok, herror⟩ := h.single h.unstored_of_error rfl
          cases outcome with
          | ok q =>
              obtain ⟨q, hq⟩ := hok ⟨q, rfl⟩
              cases hq
          | error e₁ =>
              obtain ⟨-, rfl⟩ := herror e₁ rfl
              obtain ⟨hlevels, hbase⟩ := ih hinner
              refine ⟨fun k hk => ?_, hbase⟩
              rcases Nat.le_succ_iff.1 hk with hk | rfl
              · exact hlevels k hk
              · rw [h.lookup_of_error, h.unstored_of_error]

/-- With more stored, a tower has less levels to be made. -/
theorem Within.levels_le {m' : Nat} (h : r.Within r') (hm : m' ≤ m) (n : Nat) :
    r'.levels base m' n ≤ r.levels base m n := by
  induction n with
  | zero => exact hm
  | succ n ih =>
      by_cases hstored : r'.lookup (.options (n + 1) base) = none
      · rw [levels_succ hstored, levels_succ (h.lookup_eq_none hstored)]
        exact Nat.succ_le_succ ih
      · rw [levels_of_stored hstored]
        exact Nat.zero_le _

end Registry

end TypedConsole
