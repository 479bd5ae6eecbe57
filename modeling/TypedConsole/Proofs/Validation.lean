import TypedConsole.Proofs.Names
import TypedConsole.Proofs.Resolution

/-!
# TypedConsole.Proofs.Validation

Which lists of parameters make a grammar, said of the list as a whole.

`Valid` asks something of every parameter and of every two of them, and `faults` lists what is
wrong with one parameter behind those before it.  A list is valid if none of its parameters has a
fault (`valid_iff`), and building stops at the first fault of the first parameter that has one
(`buildFrom_of_firstFault`).  `WellBuilt` is what holds of the grammar of a valid list.
-/

namespace TypedConsole.Grammar

/-! ## valid lists -/

/-- The character can be typed behind a dash. -/
def TypableShort (c : Char) : Prop := Text.isBlank c = false ∧ c ≠ dash ∧ c ≠ assignment

/-- The text can be typed behind two dashes. -/
def TypableLong (long : String) : Prop :=
  long ≠ "" ∧ long.toList.head? ≠ some dash ∧ assignment ∉ long.toList

instance (c : Char) : Decidable (TypableShort c) := inferInstanceAs (Decidable (_ ∧ _))

instance (long : String) : Decidable (TypableLong long) := inferInstanceAs (Decidable (_ ∧ _))

/-- The registry behind the parameters: their parsers have been looked for in order. -/
def registryBehind (r : Registry) (ps : List Parameter) : Registry :=
  ps.foldl (fun r p => (parserFor p r).2) r

/-- The parameter is an optional positional. -/
def IsOptionalPositional (p : Parameter) : Prop := p.kind = .positional ∧ p.required = false

/-- The parameter is a required positional. -/
def IsRequiredPositional (p : Parameter) : Prop := p.kind = .positional ∧ p.required = true

instance (p : Parameter) : Decidable (IsOptionalPositional p) := inferInstanceAs (Decidable (_ ∧ _))

instance (p : Parameter) : Decidable (IsRequiredPositional p) := inferInstanceAs (Decidable (_ ∧ _))

/-- What the parameters of a grammar must be like, one by one and together. -/
structure Valid (r : Registry) (ps : List Parameter) : Prop where
  metavar : ∀ p ∈ ps, p.shownName ≠ ""
  metavars : ps.Pairwise fun p q => p.shownName ≠ q.shownName
  short : ∀ p ∈ ps, ∀ c ∈ p.short, TypableShort c
  shorts : ps.Pairwise fun p q => ∀ c ∈ p.short, c ∉ q.short
  long : ∀ p ∈ ps, ∀ long ∈ p.long, TypableLong long
  longs : ps.Pairwise fun p q => ∀ long ∈ p.long, long ∉ q.long
  /-- No required positional stands behind an optional one. -/
  order : ps.Pairwise fun p q => IsOptionalPositional p → ¬IsRequiredPositional q
  arity : ∀ p ∈ ps, ∀ least ∈ p.arity.min, ∀ most ∈ p.arity.max, least ≤ most
  /-- The parsers are found one after the other. -/
  parsers : ∀ before p behind, ps = before ++ p :: behind →
    ∃ parser, (parserFor p (registryBehind r before)).1 = .ok parser

/-! ## faults of one parameter -/

/-- The error, if the condition holds. -/
def faultIf (c : Prop) [Decidable c] (e : ConfigError) : List ConfigError := if c then [e] else []

/-- The faults of the name shown for the value. -/
def metavarFaults (before : List Parameter) (name : String) : List ConfigError :=
  faultIf (name = "") .emptyMetavar ++
    faultIf (∃ q ∈ before, q.shownName = name) (.duplicateMetavar name)

/-- The faults of a short name. -/
def shortFaults (before : List Parameter) (c : Char) : List ConfigError :=
  faultIf (¬TypableShort c) (.invalidShort c) ++
    faultIf (∃ q ∈ before, q.short = some c) (.duplicateShort c)

/-- The faults of a long name. -/
def longFaults (before : List Parameter) (long : String) : List ConfigError :=
  faultIf (¬TypableLong long) (.invalidLong long) ++
    faultIf (∃ q ∈ before, q.long = some long) (.duplicateLong long)

/-- The fault of a required positional that stands behind an optional one. -/
def orderFaults (before : List Parameter) (p : Parameter) : List ConfigError :=
  faultIf (IsRequiredPositional p ∧ ∃ q ∈ before, IsOptionalPositional q)
    (.requiredAfterOptional p.shownName)

/-- The fault of bounds that leave no number between them. -/
def arityFaults (p : Parameter) : List ConfigError :=
  match p.arity.min, p.arity.max with
  | some least, some most => faultIf (most < least) (.invalidArity p.shownName least most)
  | _, _ => []

/-- The faults of a parameter as it is declared, in the order in which they are reported. -/
def declarationFaults (before : List Parameter) (p : Parameter) : List ConfigError :=
  metavarFaults before p.shownName ++ (p.short.toList.flatMap (shortFaults before) ++
    (p.long.toList.flatMap (longFaults before) ++ (orderFaults before p ++ arityFaults p)))

/-- The fault of a parameter whose parser is not found. -/
def parserFaults (r : Registry) (before : List Parameter) (p : Parameter) : List ConfigError :=
  match (parserFor p (registryBehind r before)).1 with
  | .ok _ => []
  | .error e => [.unresolved e]

/-- The faults of a parameter that is declared behind others. -/
def faults (r : Registry) (before : List Parameter) (p : Parameter) : List ConfigError :=
  declarationFaults before p ++ parserFaults r before p

/-- None of the parameters has a fault, declared behind `before` and behind each other. -/
def FaultFree (r : Registry) (before ps : List Parameter) : Prop :=
  ∀ between p behind, ps = between ++ p :: behind → faults r (before ++ between) p = []

/-- The error is the first fault of the first of the parameters that has one. -/
def FirstFault (r : Registry) (before ps : List Parameter) (e : ConfigError) : Prop :=
  ∃ between p behind, ps = between ++ p :: behind ∧ FaultFree r before between ∧
    (faults r (before ++ between) p).head? = some e

section Faults

variable {r : Registry} {before ps : List Parameter} {p : Parameter} {e : ConfigError}

@[simp] theorem faultIf_eq_nil_iff {c : Prop} [Decidable c] : faultIf c e = [] ↔ ¬c := by
  simp [faultIf]

theorem arityFaults_eq_nil_iff :
    arityFaults p = [] ↔ ∀ least ∈ p.arity.min, ∀ most ∈ p.arity.max, least ≤ most := by
  rw [arityFaults]
  split
  · next least most hmin hmax => simp [hmin, hmax]
  · next h => exact iff_of_true rfl fun least hl most hm => absurd hm (h least most hl)

theorem parserFaults_eq_nil_iff :
    parserFaults r before p = [] ↔
      ∃ parser, (parserFor p (registryBehind r before)).1 = .ok parser := by
  rw [parserFaults]
  cases (parserFor p (registryBehind r before)).1 <;> simp

theorem faultFree_nil : FaultFree r before [] := fun between p behind h => by
  simp at h

/-- The first parameter has no fault, and the others have none behind it. -/
theorem faultFree_cons :
    FaultFree r before (p :: ps) ↔ faults r before p = [] ∧ FaultFree r (before ++ [p]) ps := by
  constructor
  · intro h
    refine ⟨by simpa using h [] p ps rfl, fun between q behind hps => ?_⟩
    have hq := h (p :: between) q behind (by rw [hps, List.cons_append])
    rwa [List.append_cons] at hq
  · intro h between q behind hps
    cases between with
    | nil =>
        obtain ⟨rfl, -⟩ := List.cons.inj hps
        simpa using h.1
    | cons a between =>
        obtain ⟨rfl, hrest⟩ := List.cons.inj hps
        rw [List.append_cons]
        exact h.2 between q behind hrest

theorem not_firstFault_nil : ¬FirstFault r before [] e := fun h => by
  obtain ⟨between, p, behind, hps, -⟩ := h
  simp at hps

/-- The first fault is that of the first parameter, or it has none and it is that of another. -/
theorem firstFault_cons :
    FirstFault r before (p :: ps) e ↔ (faults r before p).head? = some e ∨
      faults r before p = [] ∧ FirstFault r (before ++ [p]) ps e := by
  constructor
  · intro h
    obtain ⟨between, q, behind, hps, hfree, hq⟩ := h
    cases between with
    | nil =>
        obtain ⟨rfl, -⟩ := List.cons.inj hps
        exact .inl (by simpa using hq)
    | cons a between =>
        obtain ⟨rfl, hrest⟩ := List.cons.inj hps
        rw [List.append_cons] at hq
        obtain ⟨hp, hfree⟩ := faultFree_cons.1 hfree
        exact .inr ⟨hp, between, q, behind, hrest, hfree, hq⟩
  · intro h
    rcases h with h | ⟨hp, between, q, behind, rfl, hfree, hq⟩
    · exact ⟨[], p, ps, rfl, faultFree_nil, by simpa using h⟩
    · rw [← List.append_cons] at hq
      exact ⟨p :: between, q, behind, rfl, faultFree_cons.2 ⟨hp, hfree⟩, hq⟩

/-- Every two members of a list stand in a relation if each one does to those before it. -/
theorem pairwise_iff_split {R : α → α → Prop} {l : List α} :
    l.Pairwise R ↔ ∀ before a behind, l = before ++ a :: behind → ∀ b ∈ before, R b a := by
  constructor
  · intro h before a behind hl b hb
    subst hl
    exact (List.pairwise_append.1 h).2.2 b hb a List.mem_cons_self
  · intro h
    induction l using List.reverseRecOn with
    | nil => exact .nil
    | append_singleton l a ih =>
        refine List.pairwise_append.2 ⟨ih fun before b behind hl => ?_, List.pairwise_singleton _ _,
          fun b hb c hc => ?_⟩
        · exact h before b (behind ++ [a]) (by rw [hl, List.append_assoc, List.cons_append])
        · rw [List.mem_singleton.1 hc]
          exact h l a [] rfl b hb

theorem forall_mem_iff_split {P : α → Prop} {l : List α} :
    (∀ a ∈ l, P a) ↔ ∀ before a behind, l = before ++ a :: behind → P a := by
  constructor
  · intro h before a behind hl
    exact h a (hl ▸ List.mem_append_right before List.mem_cons_self)
  · intro h a ha
    obtain ⟨before, behind, hl⟩ := List.append_of_mem ha
    exact h before a behind hl

/-- **A list of parameters is valid exactly if none of them has a fault.** -/
theorem valid_iff : Valid r ps ↔ FaultFree r [] ps := by
  have hfaults : ∀ before p, faults r before p = [] ↔
      (p.shownName ≠ "" ∧ ∀ q ∈ before, q.shownName ≠ p.shownName) ∧
      (∀ c ∈ p.short, TypableShort c ∧ ∀ q ∈ before, q.short ≠ some c) ∧
      (∀ long ∈ p.long, TypableLong long ∧ ∀ q ∈ before, q.long ≠ some long) ∧
      (IsRequiredPositional p → ∀ q ∈ before, ¬IsOptionalPositional q) ∧
      (∀ least ∈ p.arity.min, ∀ most ∈ p.arity.max, least ≤ most) ∧
      ∃ parser, (parserFor p (registryBehind r before)).1 = .ok parser := fun before p => by
    simp only [faults, declarationFaults, metavarFaults, shortFaults, longFaults, orderFaults,
      List.append_eq_nil_iff, List.flatMap_eq_nil_iff, faultIf_eq_nil_iff, arityFaults_eq_nil_iff,
      parserFaults_eq_nil_iff, Option.mem_toList, Option.mem_def, not_exists, not_and, not_not,
      and_assoc, ne_eq]
  constructor
  · intro h between p behind hps
    have hp : p ∈ ps := hps ▸ List.mem_append_right between List.mem_cons_self
    refine (hfaults between p).2 ⟨⟨h.metavar p hp, ?_⟩, fun c hc => ⟨h.short p hp c hc, ?_⟩,
      fun long hl => ⟨h.long p hp long hl, ?_⟩, fun hr => ?_, h.arity p hp,
      h.parsers between p behind hps⟩
    · exact pairwise_iff_split.1 h.metavars between p behind hps
    · exact fun q hq hqc => pairwise_iff_split.1 h.shorts between p behind hps q hq c hqc hc
    · exact fun q hq hql => pairwise_iff_split.1 h.longs between p behind hps q hq long hql hl
    · exact fun q hq hqo => pairwise_iff_split.1 h.order between p behind hps q hq hqo hr
  · intro h
    have h' := fun before p behind hps => (hfaults before p).1 (h before p behind hps)
    exact {
      metavar := forall_mem_iff_split.2 fun b p a hps => (h' b p a hps).1.1
      metavars := pairwise_iff_split.2 fun b p a hps => (h' b p a hps).1.2
      short := forall_mem_iff_split.2 fun b p a hps c hc => ((h' b p a hps).2.1 c hc).1
      shorts := pairwise_iff_split.2 fun b p a hps q hq c hqc hc =>
        ((h' b p a hps).2.1 c hc).2 q hq hqc
      long := forall_mem_iff_split.2 fun b p a hps l hl => ((h' b p a hps).2.2.1 l hl).1
      longs := pairwise_iff_split.2 fun b p a hps q hq l hql hl =>
        ((h' b p a hps).2.2.1 l hl).2 q hq hql
      order := pairwise_iff_split.2 fun b p a hps q hq hqo hr =>
        (h' b p a hps).2.2.2.1 hr q hq hqo
      arity := forall_mem_iff_split.2 fun b p a hps => (h' b p a hps).2.2.2.2.1
      parsers := fun b p a hps => (h' b p a hps).2.2.2.2.2 }

end Faults

/-! ## one check -/

/-- What has been used up is what the parameters before use. -/
structure Uses (used : Used) (before : List Parameter) : Prop where
  metavar : ∀ name, name ∈ used.metavars ↔ ∃ q ∈ before, q.shownName = name
  short : ∀ c, c ∈ used.shorts ↔ ∃ q ∈ before, q.short = some c
  long : ∀ long, long ∈ used.longs ↔ ∃ q ∈ before, q.long = some long
  order : used.optionalPositional = true ↔ ∃ q ∈ before, IsOptionalPositional q

theorem uses_nil : Uses {} [] := ⟨by simp, by simp, by simp, by simp⟩

/-- The outcome of a check that finds these faults. -/
def reported (es : List ε) (a : α) : Except ε α :=
  match es with
  | [] => .ok a
  | e :: _ => .error e

/-- Two checks find the faults of the first one, and then those of the second one. -/
theorem reported_bind {es es' : List ε} {a : α} {b : β} {x : Except ε α} {f : α → Except ε β}
    (hx : x = reported es a) (hf : f a = reported es' b) :
    (x >>= f) = reported (es ++ es') b := by
  subst hx
  cases es with
  | nil => exact hf
  | cons e es => rfl

section Checks

variable {used : Used} {before : List Parameter} {p : Parameter}

theorem Uses.concat (h : Uses used before) (p : Parameter) :
    Uses (used.with p) (before ++ [p]) where
  metavar name := by
    simp only [Used.with, List.mem_cons, h.metavar, List.mem_append]
    grind
  short c := by
    simp only [Used.with, List.mem_append, Option.mem_toList, h.short, List.mem_singleton]
    grind
  long long := by
    simp only [Used.with, List.mem_append, Option.mem_toList, h.long, List.mem_singleton]
    grind
  order := by
    simp only [Used.with, Bool.or_eq_true, h.order, Bool.and_eq_true, decide_eq_true_eq,
      Bool.not_eq_true', IsOptionalPositional, List.mem_append, List.mem_singleton]
    grind

theorem validShort_iff {c : Char} : validShort c = true ↔ TypableShort c := by
  simp [validShort, TypableShort, and_assoc]

theorem validLong_iff {long : String} : validLong long = true ↔ TypableLong long := by
  simp [validLong, TypableLong, and_assoc]

theorem checkMetavar_eq
    (h : ∀ name, name ∈ used.metavars ↔ ∃ q ∈ before, q.shownName = name) (name : String) :
    checkMetavar used name =
      reported (metavarFaults before name) { used with metavars := name :: used.metavars } := by
  simp only [checkMetavar, metavarFaults, faultIf, List.contains_iff_mem, h]
  split
  · rfl
  · split <;> rfl

theorem checkShort_eq (h : ∀ c, c ∈ used.shorts ↔ ∃ q ∈ before, q.short = some c)
    (short : Option Char) :
    checkShort used short = reported (short.toList.flatMap (shortFaults before))
      { used with shorts := short.toList ++ used.shorts } := by
  cases short with
  | none => rfl
  | some c =>
      simp only [checkShort, Option.toList_some, List.flatMap_singleton, shortFaults, faultIf,
        List.contains_iff_mem, h, ← validShort_iff, Bool.not_eq_true', Bool.not_eq_true]
      split
      · rfl
      · split <;> rfl

theorem checkLong_eq (h : ∀ long, long ∈ used.longs ↔ ∃ q ∈ before, q.long = some long)
    (long : Option String) :
    checkLong used long = reported (long.toList.flatMap (longFaults before))
      { used with longs := long.toList ++ used.longs } := by
  cases long with
  | none => rfl
  | some l =>
      simp only [checkLong, Option.toList_some, List.flatMap_singleton, longFaults, faultIf,
        List.contains_iff_mem, h, ← validLong_iff, Bool.not_eq_true', Bool.not_eq_true]
      split
      · rfl
      · split <;> rfl

theorem checkOrder_eq
    (h : used.optionalPositional = true ↔ ∃ q ∈ before, IsOptionalPositional q)
    (p : Parameter) :
    checkOrder used p = reported (orderFaults before p) { used with optionalPositional :=
      used.optionalPositional || (decide (p.kind = .positional) && !p.required) } := by
  simp only [checkOrder, orderFaults, faultIf, ← h, IsRequiredPositional]
  by_cases hk : p.kind = .positional
  · cases hr : p.required <;> cases ho : used.optionalPositional <;> simp [hk, reported]
  · simp [hk, reported]

theorem checkArity_eq (used : Used) (p : Parameter) :
    checkArity used p = reported (arityFaults p) used := by
  cases hmin : p.arity.min with
  | none => simp [checkArity, arityFaults, hmin, reported]
  | some least =>
      cases hmax : p.arity.max with
      | none => simp [checkArity, arityFaults, hmin, hmax, reported]
      | some most =>
          simp only [checkArity, arityFaults, hmin, hmax, faultIf]
          split <;> rfl

/-- **A check reports the first fault of the declaration.** -/
theorem check_eq (h : Uses used before) (p : Parameter) :
    check used p = reported (declarationFaults before p) (used.with p) := by
  refine reported_bind (checkMetavar_eq h.metavar p.shownName) ?_
  refine reported_bind (checkShort_eq (by exact h.short) p.short) ?_
  refine reported_bind (checkLong_eq (by exact h.long) p.long) ?_
  exact reported_bind (checkOrder_eq (by exact h.order) p) (checkArity_eq _ p)

end Checks

/-! ## building -/

/-- The descriptors are those of the parameters in order, numbered from `index` on, with the
parsers that are found for them behind `before` and behind each other. -/
structure DescribedFrom (r : Registry) (before : List Parameter) (index : Nat)
    (ps : List Parameter) (ds : List Descriptor) : Prop where
  length : ds.length = ps.length
  described : ∀ k p, ps[k]? = some p →
    ∃ parser, (parserFor p (registryBehind r (before ++ ps.take k))).1 = .ok parser ∧
      ds[k]? = some (describe (index + k) p parser (p.type.zero r.types))

section Building

variable {r : Registry} {before ps : List Parameter} {p : Parameter} {used : Used}
  {e : ConfigError}

theorem registryBehind_concat (r : Registry) (before : List Parameter) (p : Parameter) :
    registryBehind r (before ++ [p]) = (parserFor p (registryBehind r before)).2 := by
  simp [registryBehind]

theorem types_registryBehind (r : Registry) (ps : List Parameter) :
    (registryBehind r ps).types = r.types := by
  induction ps using List.reverseRecOn with
  | nil => rfl
  | append_singleton ps p ih =>
      rw [registryBehind_concat]
      exact parserFor_keeps (Q := (·.types = r.types))
        (fun r' t h => (r'.types_resolve t).trans h) p ih

/-- A list has no fault, or a first one. -/
theorem faultFree_or_firstFault (r : Registry) (before ps : List Parameter) :
    FaultFree r before ps ∨ ∃ e, FirstFault r before ps e := by
  induction ps generalizing before with
  | nil => exact .inl faultFree_nil
  | cons p ps ih =>
      cases hp : faults r before p with
      | cons e es => exact .inr ⟨e, firstFault_cons.2 (.inl (by rw [hp]; rfl))⟩
      | nil =>
          refine (ih (before ++ [p])).imp (fun h => faultFree_cons.2 ⟨hp, h⟩) fun h => ?_
          exact h.imp fun e h => firstFault_cons.2 (.inr ⟨hp, h⟩)

/-- A parameter with a fault ends the building with the first one. -/
theorem buildFrom_of_fault (h : Uses used before) (index : Nat) (ps : List Parameter)
    (he : (faults r before p).head? = some e) :
    (buildFrom index used (p :: ps) (registryBehind r before)).1 = .error e := by
  simp only [buildFrom, check_eq h]
  rw [faults] at he
  cases hd : declarationFaults before p with
  | cons e' es =>
      rw [hd] at he
      obtain rfl := Option.some.inj he
      rfl
  | nil =>
      rw [hd, List.nil_append, parserFaults] at he
      rcases hparser : parserFor p (registryBehind r before) with ⟨e' | parser, r'⟩
      · rw [hparser] at he
        obtain rfl := Option.some.inj he
        rfl
      · rw [hparser] at he
        contradiction

/-- A parameter without a fault is described, and the building goes on behind it. -/
theorem buildFrom_of_no_fault (h : Uses used before) (index : Nat) (ps : List Parameter)
    (hp : faults r before p = []) :
    ∃ parser, (parserFor p (registryBehind r before)).1 = .ok parser ∧
      (buildFrom index used (p :: ps) (registryBehind r before)).1 =
        (buildFrom (index + 1) (used.with p) ps (registryBehind r (before ++ [p]))).1.map
          (describe index p parser (p.type.zero r.types) :: ·) := by
  obtain ⟨hd, hparser⟩ := List.append_eq_nil_iff.1 hp
  obtain ⟨parser, hparser⟩ := parserFaults_eq_nil_iff.1 hparser
  have htypes := types_registryBehind r (before ++ [p])
  simp only [buildFrom, check_eq h, hd, reported, registryBehind_concat] at htypes ⊢
  rcases hr : parserFor p (registryBehind r before) with ⟨x, r'⟩
  rw [hr] at hparser htypes
  obtain rfl : x = .ok parser := hparser
  refine ⟨parser, rfl, ?_⟩
  simp only at htypes ⊢
  rw [htypes]

/-- **Building reports the first fault.** -/
theorem buildFrom_of_firstFault (h : Uses used before) (index : Nat)
    (he : FirstFault r before ps e) :
    (buildFrom index used ps (registryBehind r before)).1 = .error e := by
  induction ps generalizing used before index with
  | nil => exact absurd he not_firstFault_nil
  | cons p ps ih =>
      rcases firstFault_cons.1 he with hp | ⟨hp, hrest⟩
      · exact buildFrom_of_fault h index ps hp
      · obtain ⟨parser, -, hbuild⟩ := buildFrom_of_no_fault h index ps hp
        rw [hbuild, ih (h.concat p) (index + 1) hrest]
        rfl

/-- **Without faults building describes all parameters.** -/
theorem buildFrom_of_faultFree (h : Uses used before) (index : Nat)
    (hps : FaultFree r before ps) :
    ∃ ds, (buildFrom index used ps (registryBehind r before)).1 = .ok ds ∧
      DescribedFrom r before index ps ds := by
  induction ps generalizing used before index with
  | nil => exact ⟨[], rfl, rfl, fun k p h => by simp at h⟩
  | cons p ps ih =>
      obtain ⟨hp, hrest⟩ := faultFree_cons.1 hps
      obtain ⟨parser, hparser, hbuild⟩ := buildFrom_of_no_fault h index ps hp
      obtain ⟨ds, hds, hdescribed⟩ := ih (h.concat p) (index + 1) hrest
      refine ⟨_, hbuild.trans (by rw [hds]; rfl), ?_, fun k q hq => ?_⟩
      · rw [List.length_cons, List.length_cons, hdescribed.length]
      · cases k with
        | zero =>
            obtain rfl := Option.some.inj hq
            exact ⟨parser, by simpa using hparser, rfl⟩
        | succ k =>
            obtain ⟨parser', hparser', hk⟩ := hdescribed.described k q hq
            refine ⟨parser', ?_, ?_⟩
            · rwa [List.take_succ_cons, List.append_cons]
            · rw [List.getElem?_cons_succ, hk, Nat.add_right_comm, Nat.add_assoc]

end Building

/-! ## the grammar of a valid list -/

/-- What holds of the grammar that is built of parameters. -/
structure WellBuilt (r : Registry) (ps : List Parameter) (g : Grammar) : Prop where
  /-- There is one descriptor for each parameter, in the order in which they were added. -/
  described : DescribedFrom r [] 0 ps g.parameters
  /-- The required positionals come first. -/
  positionals : ∃ required optional, g.positionals = required ++ optional ∧
    (∀ d ∈ required, d.required = true) ∧ ∀ d ∈ optional, d.required = false
  /-- Exactly the parameters that are not required have something to fall back to. -/
  fallback : ∀ d ∈ g.parameters, d.fallback.isSome = !d.required
  /-- A short name leads to the switch or flag that carries it. -/
  findShort : ∀ c d, g.findShort c = some d ↔
    d ∈ g.parameters ∧ d.kind ≠ .positional ∧ d.short = some c
  /-- A long name leads to the switch or flag that carries it. -/
  findLong : ∀ long d, g.findLong long = some d ↔
    d ∈ g.parameters ∧ d.kind ≠ .positional ∧ d.long = some long

section WellBuilt

variable {r : Registry} {ps : List Parameter} {g : Grammar}

/-- A list in which nothing with a property stands behind something without it is divided by the
property. -/
theorem exists_append_of_pairwise {P : α → Bool} {l : List α}
    (h : l.Pairwise fun a b => P a = false → P b = false) :
    ∃ l₁ l₂, l = l₁ ++ l₂ ∧ (∀ a ∈ l₁, P a = true) ∧ ∀ a ∈ l₂, P a = false := by
  induction l with
  | nil => exact ⟨[], [], rfl, by simp, by simp⟩
  | cons a l ih =>
      obtain ⟨ha, hl⟩ := List.pairwise_cons.1 h
      cases hP : P a with
      | true =>
          obtain ⟨l₁, l₂, rfl, h₁, h₂⟩ := ih hl
          exact ⟨a :: l₁, l₂, rfl, List.forall_mem_cons.2 ⟨hP, h₁⟩, h₂⟩
      | false =>
          exact ⟨[], a :: l, rfl, by simp, List.forall_mem_cons.2 ⟨hP, fun b hb => ha b hb hP⟩⟩

/-- What the descriptors take over from their parameters they have in the same order. -/
theorem DescribedFrom.map_eq_map {before : List Parameter} {index : Nat} {ds : List Descriptor}
    {α : Type} {f : Descriptor → α} {f' : Parameter → α}
    (h : DescribedFrom r before index ps ds)
    (hf : ∀ i p parser zero, f (describe i p parser zero) = f' p) : ds.map f = ps.map f' := by
  refine List.ext_getElem? fun k => ?_
  rw [List.getElem?_map, List.getElem?_map]
  cases hp : ps[k]? with
  | none =>
      have hk : ds[k]? = none := by
        rw [List.getElem?_eq_none_iff] at hp ⊢
        rwa [h.length]
      rw [hk]
      rfl
  | some p =>
      obtain ⟨parser, -, hd⟩ := h.described k p hp
      rw [hd, Option.map_some, Option.map_some, hf]

/-- The descriptors are of the kinds of their parameters, and as necessary. -/
theorem DescribedFrom.map_eq {before : List Parameter} {index : Nat} {ds : List Descriptor}
    (h : DescribedFrom r before index ps ds) :
    ds.map (fun d => (d.kind, d.required)) = ps.map fun p => (p.kind, p.required) :=
  h.map_eq_map fun _ _ _ _ => rfl

theorem wellBuilt_of_described (hps : ∀ p ∈ ps, p.Declared) (hg : (build ps r).1 = .ok g)
    (hvalid : Valid r ps) (h : DescribedFrom r [] 0 ps g.parameters) : WellBuilt r ps g := by
  have hchecked := checked_of_build hps hg
  have horder : (g.parameters.map fun d => (d.kind, d.required)).Pairwise fun a b =>
      a.1 = .positional ∧ a.2 = false → ¬(b.1 = .positional ∧ b.2 = true) := by
    rw [h.map_eq]
    exact List.pairwise_map.2 hvalid.order
  refine ⟨h, ?_, hchecked.fallback, fun c d => ?_, fun long d => ?_⟩
  · refine exists_append_of_pairwise (P := fun d : Descriptor => d.required) ?_
    refine ((List.pairwise_map.1 horder).filter _).imp_of_mem fun {d e} hd he hde hr => ?_
    have hkind : ∀ d ∈ g.positionals, d.kind = .positional := fun d hd => by
      simpa using (List.mem_filter.1 hd).2
    simpa using hde ⟨hkind d hd, hr⟩ ∘ And.intro (hkind e he)
  · rw [hchecked.findShort_eq_some_iff, HasShort, mem_switches, and_assoc]
  · rw [hchecked.findLong_eq_some_iff, mem_switches, and_assoc]

theorem build_eq (ps : List Parameter) (r : Registry) :
    (build ps r).1 = (buildFrom 0 {} ps (registryBehind r [])).1.map Grammar.mk := rfl

/-- A list whose parameters have a fault makes no grammar. -/
theorem build_of_firstFault {e : ConfigError} (he : FirstFault r [] ps e) :
    (build ps r).1 = .error e := by
  rw [build_eq, buildFrom_of_firstFault uses_nil 0 he]
  rfl

/-- What makes a grammar has no fault. -/
theorem faultFree_of_build (hb : (build ps r).1 = .ok g) : FaultFree r [] ps := by
  refine (faultFree_or_firstFault r [] ps).resolve_right fun ⟨e, he⟩ => ?_
  rw [build_of_firstFault he] at hb
  contradiction

/-- The parameters of a grammar are described in order. -/
theorem described_of_build (hb : (build ps r).1 = .ok g) :
    DescribedFrom r [] 0 ps g.parameters := by
  obtain ⟨ds, hds, hdescribed⟩ := buildFrom_of_faultFree uses_nil 0 (faultFree_of_build hb)
  rw [build_eq, hds] at hb
  obtain rfl := Except.ok.inj hb
  exact hdescribed

/-- **Building validates exactly.**  Whatever the registry, a list of parameters makes a grammar if
and only if it is valid, and otherwise building reports the first fault of the first parameter that
has one.  The grammar has the parameters in order, required positionals in front of optional ones,
something to fall back to for exactly the parameters that are not required, and finds switches and
flags by their names.  Parsers from outside keep the contract of `CustomParser`. -/
theorem build_validates (r : Registry) (ps : List Parameter) (hps : ∀ p ∈ ps, p.Declared) :
    ((∃ g, (build ps r).1 = .ok g) ↔ Valid r ps) ∧
    (∀ e, (build ps r).1 = .error e ↔ FirstFault r [] ps e) ∧
    ∀ g, (build ps r).1 = .ok g → WellBuilt r ps g := by
  have hfree : FaultFree r [] ps →
      ∃ g, (build ps r).1 = .ok g ∧ DescribedFrom r [] 0 ps g.parameters := fun h => by
    obtain ⟨ds, hds, hdescribed⟩ := buildFrom_of_faultFree uses_nil 0 h
    exact ⟨⟨ds⟩, by rw [build_eq, hds]; rfl, hdescribed⟩
  refine ⟨⟨fun ⟨g, hg⟩ => valid_iff.2 (faultFree_of_build hg), fun h => ?_⟩,
    fun e => ⟨fun h => ?_, build_of_firstFault⟩, fun g hg => ?_⟩
  · obtain ⟨g, hg, -⟩ := hfree (valid_iff.1 h)
    exact ⟨g, hg⟩
  · rcases faultFree_or_firstFault r [] ps with hps | ⟨e', he'⟩
    · obtain ⟨g, hg, -⟩ := hfree hps
      rw [hg] at h
      contradiction
    · rw [build_of_firstFault he'] at h
      exact Except.error.inj h ▸ he'
  · have hfaultFree := faultFree_of_build hg
    obtain ⟨g', hg', hdescribed⟩ := hfree hfaultFree
    rw [hg] at hg'
    obtain rfl := Except.ok.inj hg'
    exact wellBuilt_of_described hps hg (valid_iff.2 hfaultFree) hdescribed

/-- Two switches with the same long name, once blanks have been replaced. -/
def collidingLongs : List Parameter :=
  [(Parameter.switch .string 'a').withLong "layer-name",
    ((Parameter.switch .string 'b').withLong " layer name ").withMetavar "LAYER"]

theorem declared_collidingLongs : ∀ p ∈ collidingLongs, p.Declared := by
  intro p hp
  rcases List.mem_cons.1 hp with rfl | hp
  · exact .withLong _ (.optional (.requiredSwitch _ _))
  · obtain rfl := List.mem_singleton.1 hp
    exact .withMetavar _ (.withLong _ (.optional (.requiredSwitch _ _)))

/-- A word and a flag make a grammar; two switches with the same long name do not, and the second
one is at fault. -/
theorem build_validates_wordAndFlag :
    (∀ p ∈ wordAndFlag, p.Declared) ∧
    Valid (.empty fun _ _ => none) wordAndFlag ∧
    WellBuilt (.empty fun _ _ => none) wordAndFlag ⟨[word, flag]⟩ ∧
    (∀ p ∈ collidingLongs, p.Declared) ∧
    FirstFault (.empty fun _ _ => none) [] collidingLongs (.duplicateLong "layer-name") ∧
    ¬Valid (.empty fun _ _ => none) collidingLongs := by
  obtain ⟨hvalid, -, hwell⟩ :=
    build_validates (.empty fun _ _ => none) wordAndFlag declared_wordAndFlag
  obtain ⟨hinvalid, hfault, -⟩ :=
    build_validates (.empty fun _ _ => none) collidingLongs declared_collidingLongs
  have hbuild : (build collidingLongs (.empty fun _ _ => none)).1 =
      .error (.duplicateLong "layer-name") := rfl
  refine ⟨declared_wordAndFlag, hvalid.1 ⟨_, build_wordAndFlag⟩, hwell _ build_wordAndFlag,
    declared_collidingLongs, (hfault _).1 hbuild, fun h => ?_⟩
  obtain ⟨g, hg⟩ := hinvalid.2 h
  rw [hbuild] at hg
  contradiction

end WellBuilt

end TypedConsole.Grammar
