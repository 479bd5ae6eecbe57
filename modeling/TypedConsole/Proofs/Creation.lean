import TypedConsole.Proofs.Resolution
import Mathlib.Data.List.Forall2

/-!
# TypedConsole.Proofs.Creation

The making of a parser, said once for all types: which characters become special, which types are
resolved and in what order (`Ty.delimiters`, `Ty.parts`), and how the parser is composed of what
they give (`Ty.compose`).  `on_create` is the equation.

From it comes one description of resolution within a depth, `Creation`, with a case for each way it
can end, and one induction over it, `runs_induction`.  What a resolution may leave behind in a
registry (`Gains`) is the first thing proved by it.  The second is what the parser of a type that
was not stored is composed of: the parsers that are then stored for its parts
(`composed_of_resolve`).
-/

namespace TypedConsole

/-! ## what a type is composed of -/

/-- The slot with a parser. -/
def SlotSpec.withParser (s : SlotSpec) (p : Parser) : Slot Parser := ⟨s.type, p, s.default⟩

namespace Ty

/-- The types whose parsers the parser of a type is composed of, in the order in which they are
resolved. -/
def parts (types : Declarations) (t : Ty) : List Ty :=
  match recordSpec? types t with
  | some spec => spec.slots.map (·.type)
  | none =>
    match t with
    | .optional t | .sequence _ t | .set _ t => [t]
    | .map _ k v => [k, v, .pair k v]
    | .pair k v => [k, v]
    | .declared path args =>
      match types path args with
      | some ⟨.alias _ t, _⟩ => [t]
      | _ => []
    | _ => []

/-- The characters that delimit the literals of a type. -/
def delimiters (types : Declarations) (t : Ty) : List Char :=
  match recordSpec? types t with
  | some spec => spec.groupings.characters ++ [spec.separator]
  | none =>
    match t with
    | .sequence _ _ => Groupings.brackets.characters ++ [memberSeparator]
    | .set _ _ | .map _ _ _ => Groupings.braces.characters ++ [memberSeparator]
    | .pair _ _ => [keySeparator]
    | _ => []

/-- The parser of a type, composed of those of its parts. A type without a literal has none. -/
def compose (types : Declarations) (t : Ty) (ps : List Parser) : Except ResolveError Parser :=
  match recordSpec? types t with
  | some spec => .ok (spec.parser (List.zipWith SlotSpec.withParser spec.slots ps))
  | none =>
    match t, ps with
    | .string, _ => .ok .string
    | .char, _ => .ok .char
    | .bool, _ => .ok .bool
    | .integer i, _ => .ok (.integer i)
    | .float f, _ => .ok (.float f)
    | .optional _, [p] => .ok (.optional p)
    | .sequence kind _, [p] => .ok (.sequence p .brackets (kind.label p.name) kind.collect)
    | .set i _, [p] => .ok (.sequence p .braces s!"{i.setLabel}<{p.name}>" collectSet)
    | .map i _ _, [k, v, p] => .ok (.map p s!"{i.mapLabel}<{k.name}, {v.name}>" bindSorted)
    | .pair _ _, [k, v] => .ok (.pair k v)
    | .declared path args, [p] =>
      match types path args with
      | some ⟨.alias name _, _⟩ => .ok (.renamed p name)
      | _ => .error (.notFound t)
    | _, _ => .error (.notFound t)

end Ty

namespace Resolution

variable {α β : Type}

theorem on_pure (a : α) (r : Registry) : (pure a : Resolution α).on r = (.ok a, r) := rfl

theorem on_get (r : Registry) : (get : Resolution Registry).on r = (.ok r, r) := rfl

theorem on_markSpecial (cs : List Char) (r : Registry) :
    (markSpecial cs : Resolution Unit).on r = (.ok (), r.addSpecial cs) := rfl

/-- Nothing becomes special. -/
theorem addSpecial_nil (r : Registry) : r.addSpecial [] = r := rfl

/-- The resolutions of several types, one after the other. -/
theorem on_mapM_cons (resolve : Ty → Resolution Parser) (t : Ty) (ts : List Ty) (r : Registry) :
    ((t :: ts).mapM resolve).on r =
      match (resolve t).on r with
      | (.error e, r') => (.error e, r')
      | (.ok p, r') =>
        match (ts.mapM resolve).on r' with
        | (.error e, r'') => (.error e, r'')
        | (.ok ps, r'') => (.ok (p :: ps), r'') := by
  rw [List.mapM_cons, on_bind]
  rcases (resolve t).on r with ⟨_ | p, r'⟩
  · rfl
  · simp only [on_bind]
    rcases (ts.mapM resolve).on r' with ⟨_ | ps, r''⟩ <;> rfl

/-- The slots of a record are resolved like the types of its slots. -/
theorem on_slots (resolve : Ty → Resolution Parser) (specs : List SlotSpec) (r : Registry) :
    (specs.mapM fun s => do
        let p ← resolve s.type
        pure (⟨s.type, p, s.default⟩ : Slot Parser) : Resolution (List (Slot Parser))).on r =
      match ((specs.map (·.type)).mapM resolve).on r with
      | (.error e, r') => (.error e, r')
      | (.ok ps, r') =>
        (.ok (List.zipWith SlotSpec.withParser specs ps), r') := by
  induction specs generalizing r with
  | nil => rfl
  | cons s specs ih =>
      simp only [List.mapM_cons, List.map_cons, on_bind, bind_assoc, pure_bind]
      rcases (resolve s.type).on r with ⟨_ | p, r'⟩
      · rfl
      · simp only [ih]
        generalize ((specs.map (·.type)).mapM resolve).on r' = rest
        rcases rest with ⟨_ | ps, r''⟩ <;> rfl

theorem on_recordOf (resolve : Ty → Resolution Parser) (spec : RecordSpec) (r : Registry) :
    (recordOf resolve spec).on r =
      match ((spec.slots.map (·.type)).mapM resolve).on
          (r.addSpecial (spec.groupings.characters ++ [spec.separator])) with
      | (.error e, r') => (.error e, r')
      | (.ok ps, r') =>
        (.ok (spec.parser (List.zipWith SlotSpec.withParser spec.slots ps)), r') := by
  have hslots := on_slots resolve spec.slots
    (r.addSpecial (spec.groupings.characters ++ [spec.separator]))
  simp only [recordOf, markGroup, on_bind, on_markSpecial, hslots]
  generalize ((spec.slots.map (·.type)).mapM resolve).on _ = rest
  rcases rest with ⟨_ | ps, r'⟩ <;> rfl

/-- **One creation**: what delimits the literals becomes special, the parts are resolved in order,
and the parser is composed of what they give. -/
theorem on_create (resolve : Ty → Resolution Parser) (t : Ty) (r : Registry) :
    (create resolve t).on r =
      match ((t.parts r.types).mapM resolve).on (r.addSpecial (t.delimiters r.types)) with
      | (.error e, r') => (.error e, r')
      | (.ok ps, r') => (t.compose r.types ps, r') := by
  cases t with
  | string | char | bool | integer | float => rfl
  | optional t =>
      simp only [create, Ty.parts, Ty.delimiters, recordSpec?, addSpecial_nil, on_mapM_cons,
        on_bind]
      rcases (resolve t).on r with ⟨_ | p, r'⟩ <;> rfl
  | sequence kind t =>
      simp only [create, sequenceOf, markGroup, Ty.parts, Ty.delimiters, recordSpec?, on_mapM_cons,
        on_bind, on_markSpecial]
      rcases (resolve t).on _ with ⟨_ | p, r'⟩ <;> rfl
  | set i t =>
      simp only [create, sequenceOf, markGroup, Ty.parts, Ty.delimiters, recordSpec?, on_mapM_cons,
        on_bind, on_markSpecial]
      rcases (resolve t).on _ with ⟨_ | p, r'⟩ <;> rfl
  | map i k v =>
      simp only [create, mapOf, markGroup, Ty.parts, Ty.delimiters, recordSpec?, on_mapM_cons,
        on_bind, on_markSpecial]
      rcases (resolve k).on _ with ⟨_ | p, r₁⟩
      · rfl
      · simp only
        rcases (resolve v).on r₁ with ⟨_ | q, r₂⟩
        · rfl
        · simp only
          rcases (resolve (.pair k v)).on r₂ with ⟨_ | q, r₃⟩ <;> rfl
  | pair k v =>
      simp only [create, Ty.parts, Ty.delimiters, recordSpec?, on_mapM_cons, on_bind,
        on_markSpecial]
      rcases (resolve k).on _ with ⟨_ | p, r₁⟩
      · rfl
      · simp only
        rcases (resolve v).on r₁ with ⟨_ | q, r₂⟩ <;> rfl
  | tuple ts =>
      rw [create, on_recordOf]
      rfl
  | declared path args =>
      simp only [create, on_bind, on_get]
      split
      · next spec _ ht =>
          simp only [on_recordOf, Ty.parts, Ty.delimiters, Ty.compose, recordSpec?, ht]
      · next name t _ ht =>
          simp only [Ty.parts, Ty.delimiters, Ty.compose, recordSpec?, ht, on_bind, on_mapM_cons,
            addSpecial_nil]
          rcases (resolve t).on r with ⟨_ | p, r'⟩
          · rfl
          · simp only [List.mapM_nil, on_pure, ht]
      · next ht => simp only [Ty.parts, Ty.delimiters, Ty.compose, recordSpec?, ht]; rfl
      · next ht => simp only [Ty.parts, Ty.delimiters, Ty.compose, recordSpec?, ht]; rfl

/-! ## resolution within a depth -/

/-- A relation between a type, the registry that it is resolved in, the outcome, and the registry
afterwards. -/
abbrev Outcome := Ty → Registry → Except ResolveError Parser → Registry → Prop

/-- The outcome of resolution within a depth. -/
def Runs (depth : Nat) : Outcome := fun t r outcome r' =>
  (resolveWithin depth t).on r = (outcome, r')

/-- All of the types are resolved, one after the other. -/
inductive AllMade (R : Outcome) : List Ty → Registry → List Parser → Registry → Prop
  | nil : AllMade R [] r [] r
  | cons (h : R t r (.ok p) r₁) (rest : AllMade R ts r₁ ps r') :
      AllMade R (t :: ts) r (p :: ps) r'

/-- The types are resolved one after the other up to one that has no parser. -/
inductive Stopped (R : Outcome) : List Ty → Registry → ResolveError → Registry → Prop
  | here (h : R t r (.error e) r') : Stopped R (t :: ts) r e r'
  | later (h : R t r (.ok p) r₁) (rest : Stopped R ts r₁ e r') : Stopped R (t :: ts) r e r'

/-- `Creation R t r outcome r'`: how the resolution of a type that is not stored can end, once `R`
says so of its parts. -/
inductive Creation (R : Outcome) (t : Ty) (r : Registry) :
    Except ResolveError Parser → Registry → Prop
  | stopped (h : Stopped R (t.parts r.types) (r.addSpecial (t.delimiters r.types)) e r') :
      Creation R t r (.error e) r'
  | unmade (h : AllMade R (t.parts r.types) (r.addSpecial (t.delimiters r.types)) ps r')
      (he : t.compose r.types ps = .error e) : Creation R t r (.error e) r'
  | made (h : AllMade R (t.parts r.types) (r.addSpecial (t.delimiters r.types)) ps r')
      (hp : t.compose r.types ps = .ok p) (hnew : r'.lookup t = none) :
      Creation R t r (.ok p) (r'.register t p)
  /-- The type has been stored while its parts were resolved. -/
  | found (h : AllMade R (t.parts r.types) (r.addSpecial (t.delimiters r.types)) ps r')
      (hq : r'.lookup t = some q) : Creation R t r (.ok q) r'

section Runs

variable {R R' : Outcome} {t : Ty} {ts : List Ty} {r r' : Registry} {ps : List Parser}
  {outcome : Except ResolveError Parser} {depth : Nat}

theorem AllMade.imp (hR : ∀ t r outcome r', R t r outcome r' → R' t r outcome r')
    (h : AllMade R ts r ps r') : AllMade R' ts r ps r' := by
  induction h with
  | nil => exact .nil
  | cons h _ ih => exact .cons (hR _ _ _ _ h) ih

theorem Stopped.imp (hR : ∀ t r outcome r', R t r outcome r' → R' t r outcome r')
    {e : ResolveError} (h : Stopped R ts r e r') : Stopped R' ts r e r' := by
  induction h with
  | here h => exact .here (hR _ _ _ _ h)
  | later h _ ih => exact .later (hR _ _ _ _ h) ih

theorem Creation.imp (hR : ∀ t r outcome r', R t r outcome r' → R' t r outcome r')
    (h : Creation R t r outcome r') : Creation R' t r outcome r' := by
  cases h with
  | stopped h => exact .stopped (h.imp hR)
  | unmade h he => exact .unmade (h.imp hR) he
  | made h hp hnew => exact .made (h.imp hR) hp hnew
  | found h hq => exact .found (h.imp hR) hq

/-- Types that are resolved one after the other are all made, or one of them stops the others. -/
theorem on_mapM_cases (resolve : Ty → Resolution Parser) (ts : List Ty) (r : Registry) :
    (∃ ps r', (ts.mapM resolve).on r = (.ok ps, r') ∧
      AllMade (fun t r outcome r' => (resolve t).on r = (outcome, r')) ts r ps r') ∨
    ∃ e r', (ts.mapM resolve).on r = (.error e, r') ∧
      Stopped (fun t r outcome r' => (resolve t).on r = (outcome, r')) ts r e r' := by
  induction ts generalizing r with
  | nil => exact .inl ⟨[], r, rfl, .nil⟩
  | cons t ts ih =>
      rcases hrun : (resolve t).on r with ⟨e | p, r₁⟩
      · exact .inr ⟨e, r₁, by simp only [on_mapM_cons, hrun], .here hrun⟩
      · rcases ih r₁ with ⟨ps, r', hps, h⟩ | ⟨e, r', he, h⟩
        · exact .inl ⟨p :: ps, r', by simp only [on_mapM_cons, hrun, hps], .cons hrun h⟩
        · exact .inr ⟨e, r', by simp only [on_mapM_cons, hrun, he], .later hrun h⟩

theorem on_storeIfAbsent (t : Ty) (p : Parser) (r : Registry) :
    (storeIfAbsent t p : Resolution Parser).on r =
      match r.lookup t with
      | some q => (.ok q, r)
      | none => (.ok p, r.register t p) := by
  simp only [storeIfAbsent, on_bind, on_get]
  cases r.lookup t <;> rfl

/-- Resolution has the whole depth to itself. -/
theorem runs_resolve_iff :
    Runs resolveDepth t r outcome r' ↔ r.resolve t = (outcome, r') := by
  rw [Runs, Registry.resolve, resolve_eq_resolveWithin]

theorem runs_resolve (r : Registry) (t : Ty) :
    Runs resolveDepth t r (r.resolve t).1 (r.resolve t).2 := runs_resolve_iff.2 rfl

/-- A stored parser is taken as it is. -/
theorem Runs.of_stored (h : Runs depth t r outcome r') {p : Parser} (hp : r.lookup t = some p) :
    outcome = .ok p ∧ r' = r := by
  have hon : (resolveWithin depth t).on r = (.ok p, r) := by
    cases depth <;> simp only [resolveWithin, on_bind, on_get, hp] <;> rfl
  obtain ⟨rfl, rfl⟩ := Prod.mk.inj (h.symm.trans hon)
  exact ⟨rfl, rfl⟩

/-- Nothing is made within no depth at all. -/
theorem Runs.of_zero (h : Runs 0 t r outcome r') (ht : r.lookup t = none) :
    outcome = .error (.tooDeep t) ∧ r' = r := by
  have hon : (resolveWithin 0 t).on r = (.error (.tooDeep t), r) := by
    simp only [resolveWithin, on_bind, on_get, ht]
    rfl
  obtain ⟨rfl, rfl⟩ := Prod.mk.inj (h.symm.trans hon)
  exact ⟨rfl, rfl⟩

/-- What is not stored is created, out of parts that are resolved one level deeper. -/
theorem Runs.creation (h : Runs (depth + 1) t r outcome r') (ht : r.lookup t = none) :
    Creation (Runs depth) t r outcome r' := by
  simp only [Runs, resolveWithin, on_bind, on_get, ht, on_create] at h
  rcases on_mapM_cases (resolveWithin depth) (t.parts r.types)
      (r.addSpecial (t.delimiters r.types)) with ⟨ps, r₁, hps, hmade⟩ | ⟨e, r₁, he, hstopped⟩
  · simp only [hps] at h
    cases hp : t.compose r.types ps with
    | error e =>
        simp only [hp] at h
        obtain ⟨rfl, rfl⟩ := Prod.mk.inj h
        exact .unmade hmade hp
    | ok p =>
        simp only [hp, on_storeIfAbsent] at h
        cases hq : r₁.lookup t with
        | none =>
            simp only [hq] at h
            obtain ⟨rfl, rfl⟩ := Prod.mk.inj h
            exact .made hmade hp hq
        | some q =>
            simp only [hq] at h
            obtain ⟨rfl, rfl⟩ := Prod.mk.inj h
            exact .found hmade hq
  · simp only [he] at h
    obtain ⟨rfl, rfl⟩ := Prod.mk.inj h
    exact .stopped hstopped

/-- **Induction over resolution**: a stored type, a type that is too deep, and a creation out of
parts that were resolved and of which the statement holds. -/
theorem runs_induction {motive : Nat → Outcome}
    (stored : ∀ {depth t r p}, r.lookup t = some p → motive depth t r (.ok p) r)
    (tooDeep : ∀ {t r}, r.lookup t = none → motive 0 t r (.error (.tooDeep t)) r)
    (created : ∀ {depth t r outcome r'}, r.lookup t = none →
      Creation (fun t r outcome r' => Runs depth t r outcome r' ∧ motive depth t r outcome r')
        t r outcome r' → motive (depth + 1) t r outcome r')
    (h : Runs depth t r outcome r') : motive depth t r outcome r' := by
  induction depth generalizing t r outcome r' with
  | zero =>
      cases ht : r.lookup t with
      | some p =>
          obtain ⟨rfl, rfl⟩ := h.of_stored ht
          exact stored ht
      | none =>
          obtain ⟨rfl, rfl⟩ := h.of_zero ht
          exact tooDeep ht
  | succ depth ih =>
      cases ht : r.lookup t with
      | some p =>
          obtain ⟨rfl, rfl⟩ := h.of_stored ht
          exact stored ht
      | none => exact created ht ((h.creation ht).imp fun _ _ _ _ hpart => ⟨hpart, ih hpart⟩)

end Runs

end Resolution

/-! ## what a resolution leaves behind -/

theorem SpecialSet.add_append (s : SpecialSet) (cs ds : List Char) :
    s.add (cs ++ ds) = (s.add cs).add ds := by
  simp [SpecialSet.add, List.foldl_append]

namespace Registry

/-- `r.Needs t u`: the resolution of `t` can come to make a parser of `u`. It goes from types that
are not stored to their parts. -/
inductive Needs (r : Registry) : Ty → Ty → Prop
  | self (h : r.lookup t = none) : Needs r t t
  | part (h : r.lookup t = none) (hu : u ∈ t.parts r.types) (hv : Needs r u v) : Needs r t v

variable {r r' r'' : Registry} {needed : Ty → Prop} {t u v : Ty}

/-- With more parsers stored, less is needed. -/
theorem Needs.anti (h : r'.Needs t u) (htypes : r'.types = r.types)
    (hkept : ∀ t p, r.lookup t = some p → r'.lookup t = some p) : r.Needs t u := by
  have hnone : ∀ {t}, r'.lookup t = none → r.lookup t = none := fun {t} ht => by
    cases hp : r.lookup t with
    | none => rfl
    | some p => exact absurd (hkept t p hp) (by simp [ht])
  induction h with
  | self h => exact .self (hnone h)
  | part h hu _ ih => exact .part (hnone h) (htypes ▸ hu) ih

/-- `r.Gains needed r'`: what can become of a registry when the types that are `needed` are made.
Stored parsers stay, and only what delimits one of the types becomes special. -/
structure Gains (r : Registry) (needed : Ty → Prop) (r' : Registry) : Prop where
  types : r'.types = r.types
  kept : ∀ t p, r.lookup t = some p → r'.lookup t = some p
  special : ∃ cs, r'.special = r.special.add cs ∧
    ∀ c ∈ cs, ∃ t, needed t ∧ c ∈ t.delimiters r.types
  stored : ∀ t, r.lookup t = none → r'.lookup t ≠ none → needed t

namespace Gains

theorem refl (r : Registry) (needed : Ty → Prop) : r.Gains needed r :=
  ⟨rfl, fun _ _ h => h, ⟨[], rfl, fun _ h => absurd h List.not_mem_nil⟩, fun _ h h' => absurd h h'⟩

theorem trans (h : r.Gains needed r') (h' : r'.Gains needed r'') : r.Gains needed r'' where
  types := h'.types.trans h.types
  kept t p hp := h'.kept t p (h.kept t p hp)
  special := by
    obtain ⟨cs, hcs, hneeded⟩ := h.special
    obtain ⟨ds, hds, hneeded'⟩ := h'.special
    refine ⟨cs ++ ds, by rw [hds, hcs, SpecialSet.add_append], fun c hc => ?_⟩
    rcases List.mem_append.1 hc with hc | hc
    · exact hneeded c hc
    · rw [← h.types]
      exact hneeded' c hc
  stored t ht ht' := by
    cases hp : r'.lookup t with
    | none => exact h'.stored t hp ht'
    | some p => exact h.stored t ht (by simp [hp])

theorem imp {needed' : Ty → Prop} (h : r.Gains needed r') (himp : ∀ t, needed t → needed' t) :
    r.Gains needed' r' where
  types := h.types
  kept := h.kept
  special := by
    obtain ⟨cs, hcs, hneeded⟩ := h.special
    refine ⟨cs, hcs, fun c hc => ?_⟩
    obtain ⟨t, ht, hc⟩ := hneeded c hc
    exact ⟨t, himp t ht, hc⟩
  stored t ht ht' := himp t (h.stored t ht ht')

/-- What is needed later was needed before. -/
theorem needs (h : r.Gains needed r') (hu : r'.Needs t u) : r.Needs t u :=
  hu.anti h.types h.kept

/-- A special character is an old one, or delimits what was needed. -/
theorem mem_special (h : r.Gains needed r') {c : Char} :
    c ∈ r'.special.toList → c ∈ r.special.toList ∨ ∃ t, needed t ∧ c ∈ t.delimiters r.types := by
  obtain ⟨cs, hcs, hneeded⟩ := h.special
  rw [hcs, SpecialSet.mem_add]
  exact Or.imp_right (hneeded c)

/-- No special character is lost. -/
theorem special_subset (h : r.Gains needed r') : r.special.toList ⊆ r'.special.toList := by
  obtain ⟨cs, hcs, -⟩ := h.special
  intro c hc
  rw [hcs, SpecialSet.mem_add]
  exact .inl hc

theorem addSpecial (r : Registry) (ht : needed t) :
    r.Gains needed (r.addSpecial (t.delimiters r.types)) :=
  ⟨rfl, fun _ _ h => h, ⟨_, rfl, fun _ hc => ⟨t, ht, hc⟩⟩, fun _ h h' => absurd h h'⟩

/-- A new parser is stored. -/
theorem register (r : Registry) (p : Parser) (ht : needed t) (hnew : r.lookup t = none) :
    r.Gains needed (r.register t p) where
  types := rfl
  kept u q hq := by
    have hne : u ≠ t := fun he => by
      rw [he, hnew] at hq
      contradiction
    rw [lookup_register_of_ne r p hne, hq]
  special := ⟨[], rfl, fun _ h => absurd h List.not_mem_nil⟩
  stored u hu hu' := by
    by_cases he : u = t
    · exact he ▸ ht
    · rw [lookup_register_of_ne r p he] at hu'
      contradiction

end Gains

/-- What the resolution of one of several types needs. -/
def NeedsOneOf (r : Registry) (ts : List Ty) (u : Ty) : Prop := ∃ t ∈ ts, r.Needs t u

/-- What the resolution of a type leaves behind is what making it needs. -/
def GainsNeeded : Resolution.Outcome := fun t r _ r' => r.Gains (r.Needs t) r'

open Resolution (AllMade Stopped Creation Runs runs_induction runs_resolve)

/-- What is left behind by one type and then by others. -/
theorem gains_cons {ts : List Ty} (h : r.Gains (r.Needs t) r')
    (rest : r'.Gains (r'.NeedsOneOf ts) r'') : r.Gains (r.NeedsOneOf (t :: ts)) r'' := by
  refine (h.imp fun u hu => ⟨t, List.mem_cons_self, hu⟩).trans (rest.imp fun u hu => ?_)
  obtain ⟨s, hs, hsu⟩ := hu
  exact ⟨s, List.mem_cons_of_mem t hs, h.needs hsu⟩

theorem gains_of_allMade {ts : List Ty} {ps : List Parser} (h : AllMade GainsNeeded ts r ps r') :
    r.Gains (r.NeedsOneOf ts) r' := by
  induction h with
  | nil => exact .refl _ _
  | cons h _ ih => exact gains_cons h ih

theorem gains_of_stopped {ts : List Ty} {e : ResolveError} (h : Stopped GainsNeeded ts r e r') :
    r.Gains (r.NeedsOneOf ts) r' := by
  induction h with
  | here h => exact h.imp fun u hu => ⟨_, List.mem_cons_self, hu⟩
  | later h _ ih => exact gains_cons h ih

/-- The parts of a type leave behind what the type needs. -/
theorem gains_of_parts (ht : r.lookup t = none)
    (h : (r.addSpecial (t.delimiters r.types)).Gains
      ((r.addSpecial (t.delimiters r.types)).NeedsOneOf (t.parts r.types)) r') :
    r.Gains (r.Needs t) r' := by
  refine (Gains.addSpecial r (.self ht)).trans (h.imp fun u hu => ?_)
  obtain ⟨s, hs, hsu⟩ := hu
  exact .part ht hs (hsu.anti rfl fun _ _ h => h)

/-- **Resolution only adds to a registry**: it stores parsers of types that it needs and had none,
and makes special what delimits them. -/
theorem gains_of_runs {depth : Nat} {outcome : Except ResolveError Parser}
    (h : Runs depth t r outcome r') : r.Gains (r.Needs t) r' := by
  refine runs_induction (motive := fun _ => GainsNeeded) (fun _ => .refl _ _) (fun _ => .refl _ _)
    (fun ht hcreation => ?_) h
  cases hcreation.imp fun _ _ _ _ hpart => hpart.2 with
  | stopped h => exact gains_of_parts ht (gains_of_stopped h)
  | unmade h _ => exact gains_of_parts ht (gains_of_allMade h)
  | made h hp hnew =>
      have hgains := gains_of_parts ht (gains_of_allMade h)
      exact hgains.trans (.register _ _ (.self ht) hnew)
  | found h _ => exact gains_of_parts ht (gains_of_allMade h)

/-- What the resolution of a type leaves behind, whether it succeeds or not. -/
theorem gains_resolve (r : Registry) (t : Ty) : r.Gains (r.Needs t) (r.resolve t).2 :=
  gains_of_runs (runs_resolve r t)

/-! ## what a parser is composed of -/

/-- The parsers are stored for the types, one each. -/
def Stored (r : Registry) (ts : List Ty) (ps : List Parser) : Prop :=
  List.Forall₂ (fun t p => r.lookup t = some p) ts ps

/-- The parser stored for the type, if there is one, is composed of those stored for its parts. -/
def ComposedAt (r : Registry) (t : Ty) : Prop :=
  ∀ p, r.lookup t = some p →
    ∃ ps, r.Stored (t.parts r.types) ps ∧ t.compose r.types ps = .ok p

/-- Resolution keeps a type's parser composed of what is stored. -/
def KeepsComposed (u : Ty) : Resolution.Outcome := fun _ r _ r' => r.ComposedAt u → r'.ComposedAt u

theorem Gains.keeps_stored {ts : List Ty} {ps : List Parser} (h : r.Gains needed r')
    (hps : r.Stored ts ps) : r'.Stored ts ps :=
  hps.imp fun t p => h.kept t p

/-- What resolution gives is stored. -/
theorem lookup_of_runs {depth : Nat} {p : Parser} (h : Runs depth t r (.ok p) r') :
    r'.lookup t = some p := by
  refine runs_induction
    (motive := fun _ t _ outcome r' => ∀ p, outcome = .ok p → r'.lookup t = some p)
    (fun ht p hp => Except.ok.inj hp ▸ ht) (by simp) (fun _ hcreation p hp => ?_) h p rfl
  cases hcreation with
  | stopped | unmade => contradiction
  | made h hmade hnew =>
      obtain rfl := Except.ok.inj hp
      exact lookup_register_self ..
  | found h hq => exact Except.ok.inj hp ▸ hq

theorem stored_of_allMade {depth : Nat} {ts : List Ty} {ps : List Parser}
    (h : AllMade (Runs depth) ts r ps r') : r'.Stored ts ps := by
  induction h with
  | nil => exact .nil
  | cons h rest ih =>
      have hgains := gains_of_allMade (rest.imp fun _ _ _ _ => gains_of_runs)
      exact .cons (hgains.kept _ _ (lookup_of_runs h)) ih

theorem composedAt_of_allMade {u : Ty} {ts : List Ty} {ps : List Parser}
    (h : AllMade (KeepsComposed u) ts r ps r') (hu : r.ComposedAt u) : r'.ComposedAt u := by
  induction h with
  | nil => exact hu
  | cons h _ ih => exact ih (h hu)

theorem composedAt_of_stopped {u : Ty} {ts : List Ty} {e : ResolveError}
    (h : Stopped (KeepsComposed u) ts r e r') (hu : r.ComposedAt u) : r'.ComposedAt u := by
  induction h with
  | here h => exact h hu
  | later h _ ih => exact ih (h hu)

/-- A new parser that is composed of what is stored may be stored. -/
theorem ComposedAt.register {u : Ty} {p : Parser} {ps : List Parser} (hu : r.ComposedAt u)
    (hnew : r.lookup t = none) (hps : r.Stored (t.parts r.types) ps)
    (hp : t.compose r.types ps = .ok p) : (r.register t p).ComposedAt u := by
  have hgains : r.Gains (fun _ => True) (r.register t p) := .register r p trivial hnew
  intro q hq
  by_cases he : u = t
  · subst he
    rw [lookup_register_self] at hq
    obtain rfl := Option.some.inj hq
    exact ⟨ps, hgains.keeps_stored hps, hp⟩
  · rw [lookup_register_of_ne r p he] at hq
    obtain ⟨qs, hqs, hq⟩ := hu q hq
    exact ⟨qs, hgains.keeps_stored hqs, hq⟩

theorem keepsComposed_of_runs {depth : Nat} {outcome : Except ResolveError Parser}
    (h : Runs depth t r outcome r') (u : Ty) : KeepsComposed u t r outcome r' := by
  refine runs_induction (motive := fun _ => KeepsComposed u) (fun _ h => h) (fun _ h => h)
    (fun {_ t r _ _} _ hcreation hu => ?_) h
  have hstart : (r.addSpecial (t.delimiters r.types)).ComposedAt u := hu
  cases hcreation with
  | stopped h => exact composedAt_of_stopped (h.imp fun _ _ _ _ h => h.2) hstart
  | unmade h _ | found h _ => exact composedAt_of_allMade (h.imp fun _ _ _ _ h => h.2) hstart
  | made h hp hnew =>
      have hu' := composedAt_of_allMade (h.imp fun _ _ _ _ h => h.2) hstart
      have hruns := h.imp fun _ _ _ _ h => h.1
      have htypes := (gains_of_allMade (hruns.imp fun _ _ _ _ => gains_of_runs)).types
      exact hu'.register hnew (htypes ▸ stored_of_allMade hruns) (htypes ▸ hp)

/-- **The parser that is made for a type** is composed of the parsers that are then stored for its
parts. -/
theorem composed_of_resolve {p : Parser} (hnew : r.lookup t = none)
    (h : r.resolve t = (.ok p, r')) :
    ∃ ps, r'.Stored (t.parts r'.types) ps ∧ t.compose r'.types ps = .ok p := by
  have hruns : Runs resolveDepth t r (.ok p) r' := Resolution.runs_resolve_iff.2 h
  have hstart : r.ComposedAt t := fun q hq => by
    rw [hnew] at hq
    contradiction
  exact keepsComposed_of_runs hruns t hstart p (lookup_of_runs hruns)

end Registry

end TypedConsole
