import TypedConsole.Grammar
import Mathlib.Data.List.Forall2

/-!
# TypedConsole.Proofs.Building

What holds of the parameters of a grammar because they were checked when it was built.

`check_eq_ok_iff` says what one check asks and what it notes; `buildFrom_ok` carries that through
the list of parameters; `checked_of_build` states it of the grammar.  `describes_of_build` says
where the descriptors and their parsers come from.
-/

namespace TypedConsole

/-! ## declared parameters -/

/-- A parameter made by the constructors and modifiers.  An optional switch is a required one that
has been made optional. -/
inductive Parameter.Declared : Parameter → Prop
  | positional (type : Ty) (metavar : String) : Declared (.positional type metavar)
  | requiredSwitch (type : Ty) (short : Char) : Declared (.requiredSwitch type short)
  | optional (h : Declared p) : Declared p.optional
  | require (h : Declared p) : Declared p.require
  | withLong (long : String) (h : Declared p) : Declared (p.withLong long)
  | withMetavar (metavar : String) (h : Declared p) : Declared (p.withMetavar metavar)
  | withDescription (text : String) (h : Declared p) : Declared (p.withDescription text)
  | withDefault (v : Value) (h : Declared p) : Declared (p.withDefault v)
  | withDefaultText (text : String) (h : Declared p) : Declared (p.withDefaultText text)
  | withFlagMode (enabled : Bool) (h : Declared p) : Declared (p.withFlagMode enabled)
  | withMin (least : Nat) (h : Declared p) : Declared (p.withMin least)
  | withMax (most : Nat) (h : Declared p) : Declared (p.withMax most)
  | withParser (parser : Parser) (h : Declared p) : Declared (p.withParser parser)

namespace Parameter

/-- A flag is a parameter of truth values. -/
theorem type_of_kind_eq_flag {p : Parameter} (h : p.kind = .flag) :
    p.type = .bool := by
  simp only [kind] at h
  split at h
  · contradiction
  · split at h
    · next hb => simpa using (Bool.and_eq_true_iff.1 hb).2
    · contradiction

namespace Declared

variable {p : Parameter}

/-- There is something to fall back to exactly if the parameter is not required. -/
theorem isSome_fallback (h : p.Declared) : p.fallback.isSome = !p.required := by
  induction h <;> simp_all [Parameter.positional, Parameter.requiredSwitch, Parameter.optional,
    Parameter.require, Parameter.withLong, Parameter.withMetavar, Parameter.withDescription,
    Parameter.withDefault, Parameter.withDefaultText, Parameter.withFlagMode, Parameter.withMin,
    Parameter.withMax, Parameter.withParser]

/-- A long name has no blanks. -/
theorem isBlank_long (h : p.Declared) :
    ∀ long ∈ p.long, ∀ c ∈ long.toList, Text.isBlank c = false := by
  induction h with
  | positional | requiredSwitch => simp [Parameter.positional, Parameter.requiredSwitch]
  | withLong long h ih =>
      intro l hl c hc
      obtain rfl := Option.some.inj hl
      rw [String.toList_ofList, List.mem_map] at hc
      obtain ⟨a, -, rfl⟩ := hc
      split
      · decide
      · next ha => simpa using ha
  | optional _ ih | require _ ih | withMetavar _ _ ih | withDescription _ _ ih
  | withDefault _ _ ih | withDefaultText _ _ ih | withFlagMode _ _ ih | withMin _ _ ih
  | withMax _ _ ih | withParser _ _ ih => exact ih

end Declared

end Parameter

namespace Grammar

/-! ## one check -/

/-- What has been used up behind a parameter. -/
def Used.with (used : Used) (p : Parameter) : Used where
  metavars := p.shownName :: used.metavars
  shorts := p.short.toList ++ used.shorts
  longs := p.long.toList ++ used.longs
  optionalPositional :=
    used.optionalPositional || (decide (p.kind = .positional) && !p.required)

/-- What the check of a parameter asks of it. -/
structure Admitted (used : Used) (p : Parameter) : Prop where
  metavar : p.shownName ≠ "" ∧ p.shownName ∉ used.metavars
  short : ∀ c ∈ p.short, validShort c = true ∧ c ∉ used.shorts
  long : ∀ long ∈ p.long, validLong long = true ∧ long ∉ used.longs
  order : p.kind = .positional → p.required = true → used.optionalPositional = false
  arity : ∀ least ∈ p.arity.min, ∀ most ∈ p.arity.max, least ≤ most

variable {used used' : Used} {p : Parameter}

/-- Two steps succeed if the first one does and the second one goes on from its outcome. -/
theorem bind_eq_ok_iff {ε α β : Type} {x : Except ε α} {f : α → Except ε β} {b : β} :
    (x >>= f) = .ok b ↔ ∃ a, x = .ok a ∧ f a = .ok b := by
  cases x with
  | error e => simp [bind, Except.bind]
  | ok a => simp [bind, Except.bind]

theorem checkMetavar_eq_ok_iff {name : String} :
    checkMetavar used name = .ok used' ↔
      (name ≠ "" ∧ name ∉ used.metavars) ∧
        used' = { used with metavars := name :: used.metavars } := by
  simp only [checkMetavar]
  by_cases hempty : name = ""
  · simp [hempty]
  · by_cases hmem : name ∈ used.metavars
    · simp [hempty, hmem]
    · simp [hempty, hmem, @eq_comm _ used']

theorem checkShort_eq_ok_iff {short : Option Char} :
    checkShort used short = .ok used' ↔
      (∀ c ∈ short, validShort c = true ∧ c ∉ used.shorts) ∧
        used' = { used with shorts := short.toList ++ used.shorts } := by
  cases short with
  | none => simp [checkShort, @eq_comm _ used']
  | some c =>
      simp only [checkShort]
      by_cases hvalid : validShort c = true
      · by_cases hmem : c ∈ used.shorts
        · simp [hvalid, hmem]
        · simp [hvalid, hmem, @eq_comm _ used']
      · simp [hvalid]

theorem checkLong_eq_ok_iff {long : Option String} :
    checkLong used long = .ok used' ↔
      (∀ l ∈ long, validLong l = true ∧ l ∉ used.longs) ∧
        used' = { used with longs := long.toList ++ used.longs } := by
  cases long with
  | none => simp [checkLong, @eq_comm _ used']
  | some l =>
      simp only [checkLong]
      by_cases hvalid : validLong l = true
      · by_cases hmem : l ∈ used.longs
        · simp [hvalid, hmem]
        · simp [hvalid, hmem, @eq_comm _ used']
      · simp [hvalid]

theorem checkOrder_eq_ok_iff :
    checkOrder used p = .ok used' ↔
      (p.kind = .positional → p.required = true → used.optionalPositional = false) ∧
        used' = { used with optionalPositional :=
          used.optionalPositional || (decide (p.kind = .positional) && !p.required) } := by
  simp only [checkOrder]
  by_cases hkind : p.kind = .positional
  · cases hr : p.required <;> cases ho : used.optionalPositional <;> simp [hkind, @eq_comm _ used']
  · simp [hkind, @eq_comm _ used']

theorem checkArity_eq_ok_iff :
    checkArity used p = .ok used' ↔
      (∀ least ∈ p.arity.min, ∀ most ∈ p.arity.max, least ≤ most) ∧ used' = used := by
  simp only [checkArity]
  split
  · next least most hmin hmax =>
      by_cases hlt : most < least
      · simp [hmin, hmax, hlt, Nat.not_le.2 hlt]
      · simp [hmin, hmax, @eq_comm _ used', hlt, Nat.le_of_not_lt hlt]
  · next h =>
      have hnone : ∀ least ∈ p.arity.min, ∀ most ∈ p.arity.max, least ≤ most :=
        fun least hl most hm => absurd hm (h least most hl)
      simp only [Except.ok.injEq, @eq_comm _ used']
      exact ⟨fun he => ⟨hnone, he⟩, fun he => he.2⟩

/-- **A check succeeds exactly for a parameter that it admits**, and notes what that uses up. -/
theorem check_eq_ok_iff : check used p = .ok used' ↔ Admitted used p ∧ used' = used.with p := by
  simp only [check, bind_eq_ok_iff, checkMetavar_eq_ok_iff, checkShort_eq_ok_iff,
    checkLong_eq_ok_iff, checkOrder_eq_ok_iff, checkArity_eq_ok_iff]
  constructor
  · intro h
    obtain ⟨_, ⟨hm, rfl⟩, _, ⟨hs, rfl⟩, _, ⟨hl, rfl⟩, _, ⟨ho, rfl⟩, ha, rfl⟩ := h
    exact ⟨⟨hm, hs, hl, ho, ha⟩, rfl⟩
  · intro h
    obtain ⟨h, rfl⟩ := h
    exact ⟨_, ⟨h.metavar, rfl⟩, _, ⟨h.short, rfl⟩, _, ⟨h.long, rfl⟩, _, ⟨h.order, rfl⟩, h.arity,
      rfl⟩

/-! ## all parameters -/

/-- What holds of the parameters of a checked grammar. -/
structure Checked (g : Grammar) : Prop where
  /-- A parameter knows its place. -/
  index : g.parameters.map (·.index) = List.range g.parameters.length
  short : ∀ d ∈ g.parameters, ∀ c ∈ d.short, validShort c = true
  long : ∀ d ∈ g.parameters, ∀ long ∈ d.long,
    validLong long = true ∧ ∀ c ∈ long.toList, Text.isBlank c = false
  /-- No two parameters have a short name in common. -/
  shorts : g.parameters.Pairwise fun d e => ∀ c ∈ d.short, c ∉ e.short
  /-- No two parameters have a long name in common. -/
  longs : g.parameters.Pairwise fun d e => ∀ long ∈ d.long, long ∉ e.long
  flag : ∀ d ∈ g.parameters, d.kind = .flag → d.type = .bool
  fallback : ∀ d ∈ g.parameters, d.fallback.isSome = !d.required

/-- The same of the parameters from a place on, given what has been used up before it. -/
structure CheckedFrom (index : Nat) (used : Used) (ds : List Descriptor) : Prop where
  index : ds.map (·.index) = List.range' index ds.length
  short : ∀ d ∈ ds, ∀ c ∈ d.short, validShort c = true ∧ c ∉ used.shorts
  long : ∀ d ∈ ds, ∀ long ∈ d.long,
    (validLong long = true ∧ ∀ c ∈ long.toList, Text.isBlank c = false) ∧ long ∉ used.longs
  shorts : ds.Pairwise fun d e => ∀ c ∈ d.short, c ∉ e.short
  longs : ds.Pairwise fun d e => ∀ long ∈ d.long, long ∉ e.long
  flag : ∀ d ∈ ds, d.kind = .flag → d.type = .bool
  fallback : ∀ d ∈ ds, d.fallback.isSome = !d.required

/-- One more parameter in front of checked ones. -/
theorem CheckedFrom.cons {index : Nat} {ds : List Descriptor} {parser : Parser} {zero : Value}
    (hp : p.Declared) (ha : Admitted used p) (h : CheckedFrom (index + 1) (used.with p) ds) :
    CheckedFrom index used (describe index p parser zero :: ds) := by
  have hshort : ∀ d ∈ ds, ∀ c ∈ d.short, c ∉ p.short ∧ c ∉ used.shorts := fun d hd c hc => by
    have := (h.short d hd c hc).2
    simpa [Used.with, not_or] using this
  have hlong : ∀ d ∈ ds, ∀ l ∈ d.long, l ∉ p.long ∧ l ∉ used.longs := fun d hd l hl => by
    have := (h.long d hd l hl).2
    simpa [Used.with, not_or] using this
  refine ⟨?_, ?_, ?_, ?_, ?_, ?_, ?_⟩
  · rw [List.map_cons, h.index, List.length_cons, List.range'_succ]
    rfl
  · intro d hd c hc
    rcases List.mem_cons.1 hd with rfl | hd
    · exact ha.short c hc
    · exact ⟨(h.short d hd c hc).1, (hshort d hd c hc).2⟩
  · intro d hd l hl
    rcases List.mem_cons.1 hd with rfl | hd
    · exact ⟨⟨(ha.long l hl).1, hp.isBlank_long l hl⟩, (ha.long l hl).2⟩
    · exact ⟨(h.long d hd l hl).1, (hlong d hd l hl).2⟩
  · exact List.pairwise_cons.2 ⟨fun e he c hc hce => (hshort e he c hce).1 hc, h.shorts⟩
  · exact List.pairwise_cons.2 ⟨fun e he l hl hle => (hlong e he l hle).1 hl, h.longs⟩
  · intro d hd hk
    rcases List.mem_cons.1 hd with rfl | hd
    · exact Parameter.type_of_kind_eq_flag hk
    · exact h.flag d hd hk
  · intro d hd
    rcases List.mem_cons.1 hd with rfl | hd
    · exact hp.isSome_fallback
    · exact h.fallback d hd

/-- A parameter that is built has passed its checks and has a parser, and the others are built
behind it. -/
theorem buildFrom_cons_inv {index : Nat} {ps : List Parameter} {r : Registry} {ds : List Descriptor}
    (h : (buildFrom index used (p :: ps) r).1 = .ok ds) :
    ∃ used' parser r' ds', check used p = .ok used' ∧ parserFor p r = (.ok parser, r') ∧
      (buildFrom (index + 1) used' ps r').1 = .ok ds' ∧
      ds = describe index p parser (p.type.zero r'.types) :: ds' ∧
      (buildFrom index used (p :: ps) r).2 = (buildFrom (index + 1) used' ps r').2 := by
  simp only [buildFrom] at h ⊢
  cases hcheck : check used p with
  | error e => simp only [hcheck] at h; contradiction
  | ok used' =>
      rcases hparser : parserFor p r with ⟨e | parser, r'⟩
      · simp only [hcheck, hparser] at h
        contradiction
      · simp only [hcheck, hparser] at h
        cases hrest : (buildFrom (index + 1) used' ps r').1 with
        | error e => rw [hrest] at h; contradiction
        | ok ds' =>
            rw [hrest] at h
            exact ⟨used', parser, r', ds', rfl, rfl, hrest, (Except.ok.inj h).symm, rfl⟩

/-- Building goes through the parameters with what they use up. -/
theorem buildFrom_ok {index : Nat} {ps : List Parameter} {r : Registry} {ds : List Descriptor}
    (hps : ∀ p ∈ ps, p.Declared) (h : (buildFrom index used ps r).1 = .ok ds) :
    CheckedFrom index used ds := by
  induction ps generalizing index used r ds with
  | nil =>
      obtain rfl := Except.ok.inj h
      exact ⟨rfl, by simp, by simp, .nil, .nil, by simp, by simp⟩
  | cons p ps ih =>
      obtain ⟨used', parser, r', ds', hcheck, -, hrest, rfl, -⟩ := buildFrom_cons_inv h
      obtain ⟨ha, rfl⟩ := check_eq_ok_iff.1 hcheck
      exact .cons (hps p List.mem_cons_self) ha
        (ih (fun q hq => hps q (List.mem_cons_of_mem p hq)) hrest)

/-- A grammar consists of what was built for its parameters. -/
theorem buildFrom_of_build {ps : List Parameter} {r : Registry} {g : Grammar}
    (h : (build ps r).1 = .ok g) : (buildFrom 0 {} ps r).1 = .ok g.parameters := by
  simp only [build] at h
  cases hds : (buildFrom 0 {} ps r).1 with
  | error e => rw [hds] at h; contradiction
  | ok ds =>
      rw [hds] at h
      obtain rfl := Except.ok.inj h
      rfl

/-- **A grammar that was built is checked.** -/
theorem checked_of_build {ps : List Parameter} {r : Registry} {g : Grammar}
    (hps : ∀ p ∈ ps, p.Declared) (h : (build ps r).1 = .ok g) : g.Checked := by
  have hchecked := buildFrom_ok hps (buildFrom_of_build h)
  exact ⟨by rw [hchecked.index, List.range_eq_range'],
    fun d hd c hc => (hchecked.short d hd c hc).1,
    fun d hd l hl => (hchecked.long d hd l hl).1,
    hchecked.shorts, hchecked.longs, hchecked.flag, hchecked.fallback⟩

/-! ## where descriptors come from -/

/-- What holds of a registry and is kept by resolution is kept by finding a parser. -/
theorem parserFor_keeps {Q : Registry → Prop} (hQ : ∀ r t, Q r → Q (r.resolve t).2)
    (p : Parameter) {r : Registry} (hr : Q r) : Q (parserFor p r).2 := by
  rw [parserFor]
  split
  · exact hr
  · exact hQ r p.type hr

/-- The descriptor says of a parameter what was declared, with a parser that was found in a
registry of which `Q` holds. -/
def Describes (Q : Registry → Prop) (p : Parameter) (d : Descriptor) : Prop :=
  ∃ r index parser, Q r ∧ (parserFor p r).1 = .ok parser ∧
    d = describe index p parser (p.type.zero (parserFor p r).2.types)

/-- Every descriptor describes one of the parameters. -/
theorem exists_described {Q : Registry → Prop} {ps : List Parameter} {ds : List Descriptor}
    (h : List.Forall₂ (Describes Q) ps ds) {d : Descriptor} (hd : d ∈ ds) :
    ∃ p ∈ ps, Describes Q p d := by
  induction h with
  | nil => contradiction
  | cons hp _ ih =>
      rcases List.mem_cons.1 hd with rfl | hd
      · exact ⟨_, List.mem_cons_self, hp⟩
      · obtain ⟨p, hmem, hp⟩ := ih hd
        exact ⟨p, List.mem_cons_of_mem _ hmem, hp⟩

theorem buildFrom_describes {Q : Registry → Prop} (hQ : ∀ r t, Q r → Q (r.resolve t).2)
    {index : Nat} {used : Used} {ps : List Parameter} {r : Registry} {ds : List Descriptor}
    (hr : Q r) (h : (buildFrom index used ps r).1 = .ok ds) :
    List.Forall₂ (Describes Q) ps ds := by
  induction ps generalizing index used r ds with
  | nil =>
      obtain rfl := Except.ok.inj h
      exact .nil
  | cons p ps ih =>
      obtain ⟨used', parser, r', ds', -, hparser, hrest, rfl, -⟩ := buildFrom_cons_inv h
      have hkeeps := parserFor_keeps hQ p hr
      rw [hparser] at hkeeps
      exact .cons ⟨r, index, parser, hr, by rw [hparser], by rw [hparser]⟩ (ih hkeeps hrest)

/-- **A grammar describes its parameters in order**, with parsers found in registries that come
from the given one by resolution. -/
theorem describes_of_build {Q : Registry → Prop} (hQ : ∀ r t, Q r → Q (r.resolve t).2)
    {ps : List Parameter} {r : Registry} {g : Grammar} (hr : Q r) (h : (build ps r).1 = .ok g) :
    List.Forall₂ (Describes Q) ps g.parameters := buildFrom_describes hQ hr (buildFrom_of_build h)

/-! ## a small grammar -/

/-- A word, and a flag that may be left out. -/
def wordAndFlag : List Parameter := [.positional .string "word", .switch .bool 'v']

theorem declared_wordAndFlag : ∀ p ∈ wordAndFlag, p.Declared := by
  intro p hp
  rcases List.mem_cons.1 hp with rfl | hp
  · exact .positional _ _
  · obtain rfl := List.mem_singleton.1 hp
    exact .optional (.requiredSwitch _ _)

/-- The descriptor of the word. -/
def word : Descriptor := describe 0 (.positional .string "word") .string (.string "")

/-- The descriptor of the flag. -/
def flag : Descriptor := describe 1 (.switch .bool 'v') .bool (.bool false)

theorem build_wordAndFlag :
    (build wordAndFlag (.empty fun _ _ => none)).1 = .ok ⟨[word, flag]⟩ := rfl

end Grammar

end TypedConsole
