import Mathlib.Data.List.Perm.Basic
import TypedConsole.Proofs.Agreement
import TypedConsole.Proofs.Failure
import TypedConsole.Proofs.Rearrangement
import TypedConsole.Proofs.Validation

/-!
# TypedConsole.Proofs.DeclarationOrder

The order in which switches and flags are declared does not matter.

Building makes the same characters special in whatever order the parameters are declared: those
that delimit what the resolution of one of their types needs (`mem_special_build`).  And it gives
every parameter the same descriptor up to its place, since there is only one parser that can be made
for a type (`describedAs_rightUnique`).  So the grammars of two declarations that agree in the order
of the positionals are `Rearranged`, and read every line alike.
-/

namespace TypedConsole

/-! ## delimiters of what is made -/

section Makes

variable {types : Declarations} {special : SpecialSet} {t u : Ty} {p : Parser}

/-- Where the parser of a type has been made, what delimits its literals is special. -/
theorem Makes.delimiters (h : Makes types special t p) :
    ∀ c ∈ t.delimiters types, c ∈ special.toList := by
  cases h with
  | string | char | bool | integer | float | optional => exact fun c hc => nomatch hc
  | sequence _ _ _ hs => exact hs
  | set _ _ _ hs => exact hs
  | map _ _ _ hs => exact hs
  | pair _ _ hs => exact fun c hc => List.mem_singleton.1 hc ▸ hs
  | record spec _ hspec _ _ hs => simpa only [Ty.delimiters, hspec] using hs
  | renamed _ _ ht _ => simp [Ty.delimiters, recordSpec?, ht]

/-- Where the parser of a type has been made, so have those of its parts. -/
theorem Makes.parts (h : Makes types special t p) :
    ∀ u ∈ t.parts types, ∃ q, Makes types special u q := by
  cases h with
  | string | char | bool | integer | float => exact fun u hu => nomatch hu
  | optional h => exact fun u hu => List.mem_singleton.1 hu ▸ ⟨_, h⟩
  | sequence _ _ h _ => exact fun u hu => List.mem_singleton.1 hu ▸ ⟨_, h⟩
  | set _ _ h _ => exact fun u hu => List.mem_singleton.1 hu ▸ ⟨_, h⟩
  | map _ _ h _ =>
      obtain ⟨k, v, rfl, hk, hv, -⟩ := h.composes.eq_pair
      simpa [Ty.parts, recordSpec?] using ⟨⟨k, hk⟩, ⟨v, hv⟩, ⟨_, h⟩⟩
  | pair hk hv _ => simpa [Ty.parts, recordSpec?] using ⟨⟨_, hk⟩, ⟨_, hv⟩⟩
  | record spec slots hspec hslots h _ =>
      simp only [Ty.parts, hspec, ← hslots, List.map_map, List.mem_map]
      rintro u ⟨slot, hslot, rfl⟩
      exact ⟨slot.parser, h slot hslot⟩
  | renamed _ _ ht h =>
      simp only [Ty.parts, recordSpec?, ht, List.mem_singleton]
      exact fun u hu => hu ▸ ⟨_, h⟩

end Makes

namespace Registry

variable {r : Registry} {t u : Ty}

/-- Where the parser of a type has been made, what delimits anything that it needs is special. -/
theorem Needs.delimiters {special : SpecialSet} (h : r.Needs t u) {p : Parser}
    (hp : Makes r.types special t p) : ∀ c ∈ u.delimiters r.types, c ∈ special.toList := by
  induction h generalizing p with
  | self => exact hp.delimiters
  | part _ hu _ ih =>
      obtain ⟨q, hq⟩ := hp.parts _ hu
      exact ih hq

/-- Resolution keeps a registry settled. -/
theorem settled_resolve {types : Declarations} (r : Registry) (t : Ty) (hr : r.Settled types) :
    (r.resolve t).2.Settled types :=
  (Resolution.settles_of_runs (Resolution.runs_resolve r t) hr).settled

/-- A registry without registered parsers stores what is made of the parts of types. -/
theorem Uncustomized.settled (hr : r.Uncustomized) : r.Settled r.types := by
  induction hr with
  | empty types => exact ⟨rfl, fun _ _ h => nomatch h⟩
  | addSpecial characters _ ih => exact ⟨rfl, ih.makes⟩
  | @resolve r t _ ih =>
      rw [r.types_resolve t]
      exact r.settled_resolve t ih

end Registry

namespace Grammar

/-! ## what becomes special -/

section Special

variable {ps qs : List Parameter} {r r' : Registry}

/-- One of the parameters has its type resolved, and that can come to make a parser of `u`. -/
def NeededBy (r : Registry) (ps : List Parameter) (u : Ty) : Prop :=
  ∃ p ∈ ps, p.parser = none ∧ r.Needs p.type u

/-- A build leaves behind what its parameters need. -/
theorem gains_buildFrom (index : Nat) (used : Used) (ps : List Parameter) (r : Registry) :
    r.Gains (NeededBy r ps) (buildFrom index used ps r).2 := by
  obtain ⟨ts, hts, hr⟩ := buildFrom_resolves index used ps r
  rw [hr]
  refine (r.gains_resolveAll ts).imp fun u hu => ?_
  obtain ⟨t, ht, hu⟩ := hu
  obtain ⟨p, hp, hparser, rfl⟩ := hts t ht
  exact ⟨p, hp, hparser, hu⟩

/-- Behind a build the parsers of all resolved types have been made. -/
theorem makes_of_buildFrom {index : Nat} {used : Used} {ds : List Descriptor}
    (hr : r.Uncustomized) (h : (buildFrom index used ps r).1 = .ok ds) :
    ∀ p ∈ ps, p.parser = none → ∃ q, Makes (buildFrom index used ps r).2.types
      (buildFrom index used ps r).2.special p.type q := by
  induction ps generalizing index used r ds with
  | nil => exact fun p hp => nomatch hp
  | cons p ps ih =>
      obtain ⟨used', parser, r', ds', -, hparser, hrest, -, hbehind⟩ := buildFrom_cons_inv h
      have hr' : (parserFor p r).2.Uncustomized := parserFor_keeps (fun _ t h => .resolve t h) p hr
      rw [hparser] at hr'
      rw [hbehind]
      refine List.forall_mem_cons.2 ⟨fun hp => ?_, ih hr' hrest⟩
      -- what has been made for the first parameter stays when the others are built
      rw [parserFor, hp] at hparser
      have hgains := gains_buildFrom (index + 1) used' ps r'
      rw [hgains.types]
      exact ⟨parser, (hr.made_of_resolve hparser).mono hgains.special_subset⟩

/-- **What a build makes special**: what delimits the types that its parameters need. -/
theorem mem_special_build {g : Grammar} (hr : r.Uncustomized) (hb : build ps r = (.ok g, r'))
    (c : Char) :
    c ∈ r'.special.toList ↔
      c ∈ r.special.toList ∨ ∃ u, NeededBy r ps u ∧ c ∈ u.delimiters r.types := by
  have hgains := gains_buildFrom 0 {} ps r
  have hmakes := makes_of_buildFrom hr (buildFrom_of_build (congrArg Prod.fst hb))
  obtain rfl : (buildFrom 0 {} ps r).2 = r' := congrArg Prod.snd hb
  refine ⟨hgains.mem_special, ?_⟩
  rintro (hc | ⟨u, ⟨p, hp, hparser, hu⟩, hc⟩)
  · exact hgains.special_subset hc
  · obtain ⟨q, hq⟩ := hmakes p hp hparser
    rw [hgains.types] at hq
    exact hu.delimiters hq c hc

/-- The order of the parameters does not show in what becomes special. -/
theorem agreeOn_of_perm {g g' : Grammar} {r₁ r₂ : Registry} (hr : r.Uncustomized)
    (hperm : ps.Perm qs) (hb : build ps r = (.ok g, r₁)) (hb' : build qs r = (.ok g', r₂))
    (text : List Char) : r₁.special.AgreeOn r₂.special text := by
  intro c _
  have hneeded : ∀ u, NeededBy r ps u ↔ NeededBy r qs u := fun u =>
    exists_congr fun p => and_congr_left' hperm.mem_iff
  rw [Bool.eq_iff_iff]
  refine List.contains_iff_mem.trans (Iff.trans ?_ List.contains_iff_mem.symm)
  simp only [mem_special_build hr hb, mem_special_build hr hb', hneeded]

end Special

/-! ## descriptors without their places -/

/-- The descriptor is what becomes of the parameter at the first place, with the parser that is made
for its type. -/
def DescribedAs (types : Declarations) (p : Parameter) (d : Descriptor) : Prop :=
  ∃ e, Describes (Registry.Settled types) p e ∧ e.withIndex 0 = d

/-- **A parameter is described in one way only.** -/
theorem describedAs_rightUnique (types : Declarations) :
    Relator.RightUnique (DescribedAs types) := by
  rintro p _ _ ⟨_, ⟨r, i, parser, hr, hparser, rfl⟩, rfl⟩
    ⟨_, ⟨r', i', parser', hr', hparser', rfl⟩, rfl⟩
  have htypes := (parserFor_keeps Registry.settled_resolve p hr).types_eq
  have htypes' := (parserFor_keeps Registry.settled_resolve p hr').types_eq
  -- the parser is the parameter's own, or the one that can be made for its type
  obtain rfl : parser = parser' := by
    simp only [parserFor] at hparser hparser'
    cases hp : p.parser with
    | some own =>
        simp only [hp] at hparser hparser'
        exact (Except.ok.inj hparser).symm.trans (Except.ok.inj hparser')
    | none =>
        simp only [hp] at hparser hparser'
        exact Ty.makes_rightUnique types
          ((Resolution.settles_of_runs (Resolution.runs_resolve r p.type) hr).makes _ hparser)
          ((Resolution.settles_of_runs (Resolution.runs_resolve r' p.type) hr').makes _ hparser')
  rw [htypes, htypes']
  rfl

section Rearranged

variable {ps qs : List Parameter} {r : Registry} {g g' : Grammar}

/-- The parameters of a grammar are described in order. -/
theorem describedAs_of_build (hr : r.Uncustomized) (hb : (build ps r).1 = .ok g) :
    List.Forall₂ (DescribedAs r.types) ps (g.parameters.map (·.withIndex 0)) :=
  List.forall₂_map_right_iff.2
    ((describes_of_build Registry.settled_resolve hr.settled hb).imp fun _ d h => ⟨d, h, rfl⟩)

/-- The positionals are described in order. -/
theorem describedAs_positionals (hr : r.Uncustomized) (hb : (build ps r).1 = .ok g) :
    List.Forall₂ (DescribedAs r.types) (ps.filter (·.kind = .positional))
      (g.positionals.map (·.withIndex 0)) := by
  have hfilter : g.positionals.map (·.withIndex 0) =
      (g.parameters.map (·.withIndex 0)).filter (·.kind = .positional) := by
    rw [List.filter_map]
    rfl
  rw [hfilter]
  refine List.rel_filter (fun p d h => ?_) (describedAs_of_build hr hb)
  obtain ⟨_, ⟨_, _, _, _, _, rfl⟩, rfl⟩ := h
  rfl

/-- No parameter of a grammar occurs twice, for no name does. -/
theorem nodup_of_build (hr : r.Uncustomized) (hb : (build ps r).1 = .ok g) :
    (g.parameters.map (·.withIndex 0)).Nodup := by
  have hname : ∀ p d, DescribedAs r.types p d → p.shownName = d.metavar := fun p d h => by
    obtain ⟨_, ⟨_, _, _, _, _, rfl⟩, rfl⟩ := h
    rfl
  have hnames : List.Forall₂ Eq (ps.map (·.shownName))
      ((g.parameters.map (·.withIndex 0)).map (·.metavar)) :=
    List.rel_map hname (describedAs_of_build hr hb)
  rw [List.forall₂_eq_eq_eq] at hnames
  have hmetavars := List.pairwise_map.2 (valid_iff.2 (faultFree_of_build hb)).metavars
  rw [hnames] at hmetavars
  exact List.Nodup.of_map _ hmetavars

/-- **Declarations in another order build a rearranged grammar.** -/
theorem rearranged_of_build (hps : ∀ p ∈ ps, p.Declared) (hr : r.Uncustomized)
    (hperm : ps.Perm qs)
    (hpositionals : ps.filter (·.kind = .positional) = qs.filter (·.kind = .positional))
    (hb : (build ps r).1 = .ok g) (hb' : (build qs r).1 = .ok g') : Rearranged g g' where
  left := checked_of_build hps hb
  right := checked_of_build (fun q hq => hps q (hperm.mem_iff.2 hq)) hb'
  perm := List.rel_perm_imp (describedAs_rightUnique r.types) (describedAs_of_build hr hb)
    (describedAs_of_build hr hb') hperm
  positionals := (describedAs_rightUnique r.types).forall₂ (describedAs_positionals hr hb)
    (hpositionals ▸ describedAs_positionals hr hb')
  nodup := nodup_of_build hr hb

/-- The parameter declared at a place is described there. -/
theorem exists_describedAs (hr : r.Uncustomized) (hb : (build ps r).1 = .ok g) {i : Nat}
    {p : Parameter} (hi : ps[i]? = some p) :
    ∃ d, g.parameters[i]? = some d ∧ DescribedAs r.types p (d.withIndex 0) := by
  have hall := describedAs_of_build hr hb
  obtain ⟨hlt, rfl⟩ := List.getElem?_eq_some_iff.1 hi
  have hlt' : i < (g.parameters.map (·.withIndex 0)).length := hall.length_eq ▸ hlt
  have hdescribed := hall.get hlt hlt'
  rw [List.length_map] at hlt'
  refine ⟨g.parameters[i], List.getElem?_eq_getElem hlt', ?_⟩
  simpa using hdescribed

/-- A parameter declared at a place in each order has moved from the one to the other. -/
theorem moved_of_build (hr : r.Uncustomized) (hb : (build ps r).1 = .ok g)
    (hb' : (build qs r).1 = .ok g') {i j : Nat} {p : Parameter} (hi : ps[i]? = some p)
    (hj : qs[j]? = some p) :
    ∃ d e, g.parameters[i]? = some d ∧ g'.parameters[j]? = some e ∧ Moved g g' d e := by
  obtain ⟨d, hd, hp⟩ := exists_describedAs hr hb hi
  obtain ⟨e, he, hp'⟩ := exists_describedAs hr hb' hj
  exact ⟨d, e, hd, he, List.mem_of_getElem? hd, List.mem_of_getElem? he,
    describedAs_rightUnique r.types hp hp'⟩

/-! ## reading -/

/-- **The order in which switches and flags are declared does not matter.**  Let the same parameters
be declared in two orders that agree on the positionals, and let both build in one registry.  Then
each line is read by both grammars, with the same value for a parameter at its two places; or both
reject it for the same fault at the same offset; or both miss something at its end, and each of them
names the first parameter that it misses.  Parsers from outside keep the contract of `CustomParser`.
-/
theorem parse_of_declaration_order {r₁ r₂ : Registry} (hps : ∀ p ∈ ps, p.Declared)
    (hr : r.Uncustomized) (hperm : ps.Perm qs)
    (hpositionals : ps.filter (·.kind = .positional) = qs.filter (·.kind = .positional))
    (hb : build ps r = (.ok g, r₁)) (hb' : build qs r = (.ok g', r₂)) (text : List Char) :
    (∃ args args', g.parse r₁.special text = .ok args ∧ g'.parse r₂.special text = .ok args' ∧
      ∀ (i j : Nat) (p : Parameter), ps[i]? = some p → qs[j]? = some p →
        ∃ v, args.values[i]? = some (some v) ∧ args'.values[j]? = some (some v)) ∨
    (∃ e : ParseError, e.OfItem ∧ g.parse r₁.special text = .error e ∧
      g'.parse r₂.special text = .error e) ∨
    ∃ name name', FirstMissing g r₁.special text name ∧ FirstMissing g' r₂.special text name' ∧
      g.parse r₁.special text = .error (.missingRequired name text.length) ∧
      g'.parse r₂.special text = .error (.missingRequired name' text.length) := by
  have hg := congrArg Prod.fst hb
  have hg' := congrArg Prod.fst hb'
  have hrearranged := rearranged_of_build hps hr hperm hpositionals hg hg'
  have hagree := agreeOn_of_perm hr hperm hb hb'
  have hspecial : g'.parse r₁.special text = g'.parse r₂.special text :=
    g'.parse_of_agreeOn (hagree text) fun _ _ literal _ => hagree literal.toList
  rcases hrearranged.parse_cases r₁.special text with ⟨args, args', h, h', hvalues⟩ |
    ⟨e, he, h, h'⟩ | ⟨name, name', offset, h, h'⟩
  · refine .inl ⟨args, args', h, hspecial ▸ h', fun i j p hi hj => ?_⟩
    obtain ⟨d, e, hd, he, hm⟩ := moved_of_build hr hg hg' hi hj
    have hvalue := hvalues d e hm
    rwa [hrearranged.left.index_eq hd, hrearranged.right.index_eq he] at hvalue
  · exact .inr (.inl ⟨e, he, h, hspecial ▸ h'⟩)
  · rw [hspecial] at h'
    obtain ⟨rfl, hfirst⟩ := hrearranged.left.parse_placed r₁.special text _ h
    obtain ⟨-, hfirst'⟩ := hrearranged.right.parse_placed r₂.special text _ h'
    exact .inr (.inr ⟨name, name', hfirst, hfirst', h, h'⟩)

end Rearranged

/-- A word, and a switch that must be given a list of words. -/
def wordAndList : List Parameter :=
  [.positional .string "word", .requiredSwitch (.sequence .vector .string) 'l']

theorem declared_wordAndList : ∀ p ∈ wordAndList, p.Declared := by
  intro p hp
  rcases List.mem_cons.1 hp with rfl | hp
  · exact .positional _ _
  · obtain rfl := List.mem_singleton.1 hp
    exact .requiredSwitch _ _

/-- Declared in either order, the word and the list are both missing on an empty line. -/
theorem parse_wordAndList_reversed :
    (∀ p ∈ wordAndList, p.Declared) ∧
    (Registry.empty fun _ _ => none).Uncustomized ∧
    wordAndList.Perm wordAndList.reverse ∧
    wordAndList.filter (·.kind = .positional) =
      wordAndList.reverse.filter (·.kind = .positional) ∧
    ∃ g g' r₁ r₂, build wordAndList (.empty fun _ _ => none) = (.ok g, r₁) ∧
      build wordAndList.reverse (.empty fun _ _ => none) = (.ok g', r₂) ∧
      FirstMissing g r₁.special [] "word" ∧ FirstMissing g' r₂.special [] "-l" := by
  have hperm := (List.reverse_perm wordAndList).symm
  have hpositionals : wordAndList.filter (·.kind = .positional) =
      wordAndList.reverse.filter (·.kind = .positional) := rfl
  refine ⟨declared_wordAndList, .empty _, hperm, hpositionals, _, _, _, _, rfl, rfl, ?_⟩
  rcases parse_of_declaration_order declared_wordAndList (.empty fun _ _ => none) hperm hpositionals
    rfl rfl [] with ⟨args, _, h, _⟩ | ⟨e, he, h, _⟩ | ⟨name, name', hfirst, hfirst', h, h'⟩
  · rw [parse, items] at h
    contradiction
  · rw [parse, items] at h
    obtain rfl := Except.error.inj h
    exact he.elim
  · rw [parse, items] at h h'
    obtain ⟨rfl, -⟩ := ParseError.missingRequired.inj (Except.error.inj h)
    obtain ⟨rfl, -⟩ := ParseError.missingRequired.inj (Except.error.inj h')
    exact ⟨hfirst, hfirst'⟩

end Grammar

end TypedConsole
