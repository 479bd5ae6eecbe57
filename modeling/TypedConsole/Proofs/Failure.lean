import TypedConsole.Catalogue.Records
import TypedConsole.Proofs.Agreement
import TypedConsole.Proofs.History

/-!
# TypedConsole.Proofs.Failure

What a resolution or a build leaves behind that fails.

* The type that could not be resolved is not stored.  It might only be stored while its own parts
  are made, and a type whose parts were all made is no part of itself (`Runs.grounded`).
* Parsers that were stored stay, and so do their readings of every text without a character that
  has become special.  Such characters there may be: they delimit the types that were asked for or
  their parts (`failure_spares`).
-/

namespace TypedConsole

namespace Registry

variable {r r' : Registry} {t u : Ty} {needed : Ty → Prop}

/-! ## no type is part of itself -/

/-- `r.PartOf u t`: a type `u` that is resolved for the sake of a type `t` that is not stored. -/
def PartOf (r : Registry) (u t : Ty) : Prop := r.lookup t = none ∧ u ∈ t.parts r.types

/-- A stored type is resolved for its own sake alone. -/
theorem acc_of_stored (h : r.lookup t ≠ none) : Acc r.PartOf t :=
  .intro t fun _ hu => absurd hu.1 h

/-- What is needed for needed types is needed. -/
theorem Needs.trans {v : Ty} (h : r.Needs t u) (h' : r.Needs u v) : r.Needs t v := by
  induction h with
  | self _ => exact h'
  | part h hu _ ih => exact .part h hu (ih h')

/-- A type that its parts lead back to is in a cycle of parts. -/
theorem not_needs_of_acc (h : Acc r.PartOf t) (hu : r.PartOf u t) : ¬ r.Needs u t := by
  induction h generalizing u with
  | intro t _ ih =>
      intro hneeds
      cases hneeds with
      | self h => exact ih t hu hu (.self h)
      | part h hv hneeds =>
          have hback : r.Needs t u := .part hu.1 hu.2 (.self h)
          exact ih u hu ⟨h, hv⟩ (hneeds.trans hback)

/-- Types without cycles of parts are still such when parsers of such types are taken away. -/
theorem Gains.acc (h : r.Gains needed r') (hstored : ∀ u, r'.lookup u ≠ none → Acc r.PartOf u)
    (t : Ty) (ht : Acc r'.PartOf t) : Acc r.PartOf t := by
  induction ht with
  | intro t _ ih =>
      by_cases hlookup : r'.lookup t = none
      · refine .intro t fun u hu => ih u ⟨hlookup, ?_⟩
        rw [h.types]
        exact hu.2
      · exact hstored t hlookup

end Registry

namespace Resolution

open Registry (PartOf NeedsOneOf acc_of_stored gains_of_runs gains_of_stopped gains_of_allMade)

variable {depth : Nat} {t : Ty} {ts : List Ty} {r r' : Registry} {ps : List Parser}
  {outcome : Except ResolveError Parser} {e : ResolveError}

/-- After a resolution the stored types, and the resolved one, are in no cycle of parts. -/
structure Grounded (t : Ty) (r : Registry) (outcome : Except ResolveError Parser)
    (r' : Registry) : Prop where
  stored : ∀ u, r'.lookup u ≠ none → Acc r.PartOf u
  resolved : ∀ p, outcome = .ok p → Acc r.PartOf t

theorem grounded_of_allMade
    (h : AllMade (fun t r outcome r' => Runs depth t r outcome r' ∧ Grounded t r outcome r')
      ts r ps r') :
    (∀ u, r'.lookup u ≠ none → Acc r.PartOf u) ∧ ∀ t ∈ ts, Acc r.PartOf t := by
  induction h with
  | nil => exact ⟨fun _ => acc_of_stored, fun _ h => absurd h List.not_mem_nil⟩
  | cons h _ ih =>
      have hback := (gains_of_runs h.1).acc h.2.stored
      refine ⟨fun u hu => hback u (ih.1 u hu), fun t ht => ?_⟩
      rcases List.mem_cons.1 ht with rfl | ht
      · exact h.2.resolved _ rfl
      · exact hback t (ih.2 t ht)

theorem grounded_of_stopped
    (h : Stopped (fun t r outcome r' => Runs depth t r outcome r' ∧ Grounded t r outcome r')
      ts r e r') : ∀ u, r'.lookup u ≠ none → Acc r.PartOf u := by
  induction h with
  | here h => exact h.2.stored
  | later h _ ih => exact fun u hu => (gains_of_runs h.1).acc h.2.stored u (ih u hu)

/-- A creation is grounded if the resolutions of the parts are. -/
theorem grounded_of_creation
    (h : Creation (fun t r outcome r' => Runs depth t r outcome r' ∧ Grounded t r outcome r')
      t r outcome r') : Grounded t r outcome r' := by
  cases h with
  | stopped h =>
      have hstored := grounded_of_stopped h
      exact ⟨hstored, by simp⟩
  | unmade h _ =>
      obtain ⟨hstored, -⟩ := grounded_of_allMade h
      exact ⟨hstored, by simp⟩
  | made h _ _ =>
      obtain ⟨hstored, hparts⟩ := grounded_of_allMade h
      have hacc : Acc r.PartOf t := .intro t fun u hu => hparts u hu.2
      refine ⟨fun u hu => ?_, fun _ _ => hacc⟩
      by_cases he : u = t
      · exact he ▸ hacc
      · rw [Registry.lookup_register_of_ne _ _ he] at hu
        exact hstored u hu
  | found h _ =>
      obtain ⟨hstored, hparts⟩ := grounded_of_allMade h
      exact ⟨hstored, fun _ _ => .intro t fun u hu => hparts u hu.2⟩

theorem Runs.grounded (h : Runs depth t r outcome r') : Grounded t r outcome r' :=
  runs_induction (motive := fun _ => Grounded)
    (fun ht => ⟨fun _ => acc_of_stored, fun _ _ => acc_of_stored (by simp [ht])⟩)
    (fun _ => ⟨fun _ => acc_of_stored, by simp⟩) (fun _ => grounded_of_creation) h

/-- A type that is stored is resolved. -/
theorem Runs.unstored_of_error (h : Runs depth t r (.error e) r') : r.lookup t = none := by
  cases hp : r.lookup t with
  | none => rfl
  | some p => cases (h.of_stored hp).1

/-- **A type that could not be resolved is not stored**, though parts of it may be. -/
theorem Runs.lookup_of_error (h : Runs depth t r (.error e) r') : r'.lookup t = none := by
  have ht := h.unstored_of_error
  cases depth with
  | zero => exact (h.of_zero ht).2 ▸ ht
  | succ depth =>
      by_contra hstored
      have hacc := h.grounded.stored t hstored
      -- what is new is needed for a part of the type, and that leads back to the type
      have hback : ∃ u ∈ t.parts r.types, r.Needs u t := by
        cases h.creation ht with
        | stopped h =>
            have hgains := gains_of_stopped (h.imp fun _ _ _ _ => gains_of_runs)
            obtain ⟨u, hu, hneeds⟩ := hgains.stored t ht hstored
            exact ⟨u, hu, hneeds.anti rfl fun _ _ h => h⟩
        | unmade h _ =>
            have hgains := gains_of_allMade (h.imp fun _ _ _ _ => gains_of_runs)
            obtain ⟨u, hu, hneeds⟩ := hgains.stored t ht hstored
            exact ⟨u, hu, hneeds.anti rfl fun _ _ h => h⟩
      obtain ⟨u, hu, hneeds⟩ := hback
      exact Registry.not_needs_of_acc hacc ⟨ht, hu⟩ hneeds

end Resolution

/-! ## what is spared -/

namespace Registry

variable {r r' : Registry} {needed : Ty → Prop} {text : List Char} {ts : List Ty}

/-- No character of the text is special in `r'` but not in `r`. -/
def Untouched (r r' : Registry) (text : List Char) : Prop :=
  ∀ c ∈ text, r'.isSpecial c = true → r.isSpecial c = true

/-- `r.Spares needed r'`: what of a registry is as it was, although types that are `needed` may have
been made. -/
structure Spares (r : Registry) (needed : Ty → Prop) (r' : Registry) : Prop where
  /-- Stored parsers stay. -/
  kept : ∀ t p, r.lookup t = some p → r'.lookup t = some p
  /-- Special characters stay. -/
  special : ∀ c, r.isSpecial c = true → r'.isSpecial c = true
  /-- Nothing becomes special but what delimits the needed types. -/
  fresh : ∀ c, r'.isSpecial c = true →
    r.isSpecial c = true ∨ ∃ t, needed t ∧ c ∈ t.delimiters r.types
  /-- Parsers read the other texts as before. -/
  reads : ∀ p text, r.Untouched r' text → r'.read p text = r.read p text
  /-- So do grammars. -/
  parses : ∀ (g : Grammar) text, r.Untouched r' text →
    (∀ d ∈ g.parameters, ∀ literal, d.fallback = some (.text literal) →
      r.Untouched r' literal.toList) →
    g.parse r'.special text = g.parse r.special text

theorem isSpecial_iff {c : Char} : r.isSpecial c = true ↔ c ∈ r.special.toList :=
  List.contains_iff_mem

/-- Of an untouched text the same characters are special. -/
theorem Gains.agreeOn (h : r.Gains needed r') (htext : r.Untouched r' text) :
    r'.special.AgreeOn r.special text := by
  intro c hc
  rw [Bool.eq_iff_iff]
  exact ⟨htext c hc, fun hspecial => isSpecial_iff.2 (h.special_subset (isSpecial_iff.1 hspecial))⟩

theorem Gains.spares (h : r.Gains needed r') : r.Spares needed r' where
  kept := h.kept
  special _ hc := isSpecial_iff.2 (h.special_subset (isSpecial_iff.1 hc))
  fresh _ hc := (h.mem_special (isSpecial_iff.1 hc)).imp_left isSpecial_iff.2
  reads p _ htext := p.read_of_agreeOn (h.agreeOn htext)
  parses g _ htext hdefaults := g.parse_of_agreeOn (h.agreeOn htext)
    fun d hd literal hliteral => h.agreeOn (hdefaults d hd literal hliteral)

/-- What several resolutions leave behind. -/
theorem gains_resolveAll (r : Registry) (ts : List Ty) :
    r.Gains (r.NeedsOneOf ts) (r.resolveAll ts) := by
  induction ts generalizing r with
  | nil => exact .refl r _
  | cons t ts ih => exact gains_cons (gains_resolve r t) (ih (r.resolve t).2)

end Registry

namespace Grammar

/-- The outcome is not that a type is unresolved. -/
def FaultsElsewhere {α : Type} (x : Except ConfigError α) : Prop := ∀ e, x ≠ .error (.unresolved e)

theorem FaultsElsewhere.bind {α β : Type} {x : Except ConfigError α}
    {f : α → Except ConfigError β} (hx : FaultsElsewhere x) (hf : ∀ a, FaultsElsewhere (f a)) :
    FaultsElsewhere (x >>= f) := by
  cases x with
  | error e => exact fun e' h => hx e' (congrArg Except.error (Except.error.inj h))
  | ok a => exact hf a

/-- Checking a declaration resolves no type. -/
theorem check_faultsElsewhere (used : Used) (p : Parameter) : FaultsElsewhere (check used p) := by
  have hmetavar (used name) : FaultsElsewhere (checkMetavar used name) := by
    simp only [checkMetavar, FaultsElsewhere]
    grind
  have hshort (used short) : FaultsElsewhere (checkShort used short) := by
    cases short <;> simp only [checkShort, FaultsElsewhere] <;> grind
  have hlong (used long) : FaultsElsewhere (checkLong used long) := by
    cases long <;> simp only [checkLong, FaultsElsewhere] <;> grind
  have horder (used) : FaultsElsewhere (checkOrder used p) := by
    simp only [checkOrder, FaultsElsewhere]
    grind
  have harity (used) : FaultsElsewhere (checkArity used p) := by
    simp only [checkArity, FaultsElsewhere]
    grind
  exact (hmetavar _ _).bind fun used => (hshort used _).bind fun used => (hlong used _).bind
    fun used => (horder used).bind harity

/-- A build that ends with an unresolved type ends with the resolution of that type. -/
theorem buildFrom_unresolved {i : Nat} {used : Used} {ps : List Parameter} {r : Registry}
    {e : ResolveError} (h : (buildFrom i used ps r).1 = .error (.unresolved e)) :
    ∃ p ∈ ps, p.parser = none ∧
      ∃ r₁ : Registry, r₁.resolve p.type = (.error e, (buildFrom i used ps r).2) := by
  induction ps generalizing i used r with
  | nil => simp [buildFrom] at h
  | cons p ps ih =>
      rw [buildFrom] at h ⊢
      cases hcheck : check used p with
      | error e' =>
          simp only [hcheck] at h
          obtain rfl := Except.error.inj h
          exact absurd hcheck (check_faultsElsewhere used p e)
      | ok used' =>
          simp only [hcheck] at h ⊢
          rcases hp : parserFor p r with ⟨e' | parser, r'⟩
          · simp only [hp, Except.error.injEq, ConfigError.unresolved.injEq] at h
            subst h
            rw [parserFor] at hp
            split at hp
            · cases hp
            · next hown => exact ⟨p, List.mem_cons_self, hown, r, hp⟩
          · simp only [hp] at h ⊢
            have hrest : (buildFrom (i + 1) used' ps r').1 = .error (.unresolved e) := by
              cases hrest : (buildFrom (i + 1) used' ps r').1 with
              | error e' => simpa [hrest, Except.map] using h
              | ok ds => simp [hrest, Except.map] at h
            obtain ⟨q, hq, hown, hresolve⟩ := ih hrest
            exact ⟨q, List.mem_cons_of_mem p hq, hown, hresolve⟩

end Grammar

/-! ## failures -/

namespace Registry

/-- A type whose resolution failed is not stored. -/
theorem lookup_of_failed {r r' : Registry} {t : Ty} {e : ResolveError}
    (h : r.resolve t = (.error e, r')) : r'.lookup t = none := by
  have hruns := Resolution.runs_resolve r t
  rw [h] at hruns
  exact hruns.lookup_of_error

/-- **What a failure leaves behind.**  The type without a parser is not stored.  Stored parsers
stay, nothing becomes special but what delimits the types that were asked for or their parts, and
the other texts are read as before, by every parser and every grammar.  The same holds of a build,
which may fail for other reasons too. -/
theorem failure_spares (r : Registry) :
    (∀ t e, (r.resolve t).1 = .error e →
      (r.resolve t).2.lookup t = none ∧ r.Spares (r.Needs t) (r.resolve t).2) ∧
    ∀ ps e, (Grammar.build ps r).1 = .error e →
      (∀ e', e = .unresolved e' → ∃ p ∈ ps, p.parser = none ∧
        (∃ r₁ : Registry, r₁.resolve p.type = (.error e', (Grammar.build ps r).2)) ∧
        (Grammar.build ps r).2.lookup p.type = none) ∧
      r.Spares (fun u => ∃ p ∈ ps, p.parser = none ∧ r.Needs p.type u) (Grammar.build ps r).2 := by
  refine ⟨fun t e h => ⟨lookup_of_failed (Prod.ext h rfl), (r.gains_resolve t).spares⟩,
    fun ps e h => ⟨?_, ?_⟩⟩
  · rintro e' rfl
    have hfrom : (Grammar.buildFrom 0 {} ps r).1 = .error (.unresolved e') := by
      simp only [Grammar.build] at h
      cases hds : (Grammar.buildFrom 0 {} ps r).1 with
      | error e => simpa [hds, Except.map] using h
      | ok ds => simp [hds, Except.map] at h
    obtain ⟨p, hp, hown, r₁, hresolve⟩ := Grammar.buildFrom_unresolved hfrom
    exact ⟨p, hp, hown, ⟨r₁, hresolve⟩, lookup_of_failed hresolve⟩
  · refine Gains.spares ?_
    obtain ⟨ts, hts, hr⟩ := Grammar.build_resolves ps r
    rw [hr]
    refine (r.gains_resolveAll ts).imp fun u hu => ?_
    obtain ⟨t, ht, htu⟩ := hu
    obtain ⟨p, hp, hown, rfl⟩ := hts t ht
    exact ⟨p, hp, hown, htu⟩

/-- A record between angle brackets, of a type without a literal. -/
def angledOpaque : Catalogue.FreeRecord where
  slots := [{ type := Catalogue.type "Opaque" }]
  groupings := ⟨⟨'<', '>'⟩, []⟩
  separator := ';'

/-- Strings can be read, and then a record fails whose slot has no parser: it is not stored, and a
text without its delimiters is read as before. -/
theorem failure_spares_words :
    (((empty (Catalogue.types angledOpaque)).resolve .string).2.resolve
        (Catalogue.type "Dyn")).2.lookup (Catalogue.type "Dyn") = none ∧
      (((empty (Catalogue.types angledOpaque)).resolve .string).2.resolve
        (Catalogue.type "Dyn")).2.read .string ['a', ',', 'b'] =
          (some (.string "a"), [',', 'b']) := by
  obtain ⟨hresolve, -⟩ := failure_spares ((empty (Catalogue.types angledOpaque)).resolve .string).2
  obtain ⟨hlookup, hspares⟩ := hresolve (Catalogue.type "Dyn")
    (.notFound (Catalogue.type "Opaque")) rfl
  refine ⟨hlookup, hspares.reads .string ['a', ',', 'b'] ?_⟩
  simp only [Untouched, List.forall_mem_cons]
  exact ⟨by decide, by decide, by decide, by simp⟩

/-- The delimiters of the failed record stay special, and other parsers stop at them: a string that
was read in full is cut. -/
theorem failure_cuts_strings :
    (((empty (Catalogue.types angledOpaque)).resolve .string).2.resolve
        (Catalogue.type "Dyn")).1 = .error (.notFound (Catalogue.type "Opaque")) ∧
      ((empty (Catalogue.types angledOpaque)).resolve .string).2.read .string ['a', '<', 'b'] =
        (some (.string "a<b"), []) ∧
      (((empty (Catalogue.types angledOpaque)).resolve .string).2.resolve
        (Catalogue.type "Dyn")).2.read .string ['a', '<', 'b'] =
        (some (.string "a"), ['<', 'b']) := ⟨rfl, rfl, rfl⟩

end Registry

end TypedConsole
