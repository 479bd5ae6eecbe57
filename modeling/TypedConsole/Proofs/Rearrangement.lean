import TypedConsole.Proofs.Alike
import TypedConsole.Proofs.FaultPlaces
import TypedConsole.Proofs.LongNames

/-!
# TypedConsole.Proofs.Rearrangement

Two grammars with the same parameters in different places read every line alike.

`Rearranged g g'` says that the parameters of `g'` are those of `g` up to their indices, with the
positionals in the same order.  The readings by the two go in lockstep: at each point the cursors
and the counts of positionals are equal, and what is noted for a parameter is noted for the one it
has become (`Parallel`).  There is one lemma for each step of the reading, in the order in
which the steps are defined.  Only at the end does the order of the parameters show, in which of
several missing ones is reported.
-/

namespace TypedConsole

/-! ## parameters without their places -/

/-- The parameter at another place. -/
def Descriptor.withIndex (d : Descriptor) (i : Nat) : Descriptor := { d with index := i }

/-! ## outcomes -/

/-- The fault is that of an item of the line: it is not that an item is missing. -/
def ParseError.OfItem : ParseError → Prop
  | missingRequired _ _ => False
  | _ => True

/-- Two outcomes with related results, or with the same fault of an item at the same place. -/
inductive Lockstep (R : α → β → Prop) : Except ParseError α → Except ParseError β → Prop
  | ok (h : R a b) : Lockstep R (.ok a) (.ok b)
  | error (e : ParseError) (he : e.OfItem) : Lockstep R (.error e) (.error e)

/-- Outcomes in lockstep stay so when both go on in lockstep. -/
theorem Lockstep.bind {R : α → β → Prop} {S : γ → δ → Prop} {x : Except ParseError α}
    {y : Except ParseError β} {f : α → Except ParseError γ} {f' : β → Except ParseError δ}
    (h : Lockstep R x y) (hf : ∀ a b, R a b → Lockstep S (f a) (f' b)) :
    Lockstep S (x >>= f) (y >>= f') := by
  cases h with
  | ok h => exact hf _ _ h
  | error e he => exact .error e he

namespace Grammar

/-! ## rearranged parameters -/

/-- The grammars have the same parameters in perhaps different places, with the positionals in the
same order. -/
structure Rearranged (g g' : Grammar) : Prop where
  left : g.Checked
  right : g'.Checked
  perm : (g.parameters.map (·.withIndex 0)).Perm (g'.parameters.map (·.withIndex 0))
  positionals : g.positionals.map (·.withIndex 0) = g'.positionals.map (·.withIndex 0)
  /-- No parameter occurs twice. -/
  nodup : (g.parameters.map (·.withIndex 0)).Nodup

/-- The parameter `e` of `g'` is what the parameter `d` of `g` has become. -/
structure Moved (g g' : Grammar) (d e : Descriptor) : Prop where
  left : d ∈ g.parameters
  right : e ∈ g'.parameters
  eq : d.withIndex 0 = e.withIndex 0

variable {g g' : Grammar} {special : SpecialSet} {d e d' e' : Descriptor} {p q : Progress}

namespace Moved

theorem symm (h : Moved g g' d e) : Moved g' g e d := ⟨h.right, h.left, h.eq.symm⟩

/-- What does not depend on the place of a parameter stays as it is. -/
theorem congr (h : Moved g g' d e) (f : Descriptor → α) (hf : ∀ d i, f (d.withIndex i) = f d) :
    f e = f d := by
  rw [← hf e 0, ← h.eq, hf]

theorem kind_eq (h : Moved g g' d e) : e.kind = d.kind := h.congr (·.kind) fun _ _ => rfl

theorem label_eq (h : Moved g g' d e) : e.label = d.label := h.congr (·.label) fun _ _ => rfl

theorem type_eq (h : Moved g g' d e) : e.type = d.type := h.congr (·.type) fun _ _ => rfl

theorem parser_eq (h : Moved g g' d e) : e.parser = d.parser := h.congr (·.parser) fun _ _ => rfl

theorem arity_eq (h : Moved g g' d e) : e.arity = d.arity := h.congr (·.arity) fun _ _ => rfl

theorem required_eq (h : Moved g g' d e) : e.required = d.required :=
  h.congr (·.required) fun _ _ => rfl

theorem countOf_eq (h : Moved g g' d e) (v : Value) : countOf e v = countOf d v :=
  h.congr (countOf · v) fun _ _ => rfl

theorem settledOr_eq (h : Moved g g' d e) (v : Option TypedValue) :
    settledOr special e v = settledOr special d v := h.congr (settledOr special · v) fun _ _ => rfl

end Moved

namespace Rearranged

theorem symm (h : Rearranged g g') : Rearranged g' g :=
  ⟨h.right, h.left, h.perm.symm, h.positionals.symm, h.perm.nodup_iff.1 h.nodup⟩

/-- Every parameter has moved somewhere. -/
theorem exists_moved (h : Rearranged g g') (hd : d ∈ g.parameters) : ∃ e, Moved g g' d e := by
  obtain ⟨e, he, heq⟩ := List.mem_map.1 (h.perm.subset (List.mem_map_of_mem hd))
  exact ⟨e, hd, he, heq.symm⟩

/-- No parameter has moved to two places. -/
theorem moved_unique (h : Rearranged g g') (hm : Moved g g' d e) (hm' : Moved g g' d e') :
    e = e' :=
  List.inj_on_of_nodup_map h.symm.nodup hm.right hm'.right (hm.eq.symm.trans hm'.eq)

/-- Two parameters have one place after the move exactly if they had one before. -/
theorem index_eq_iff (h : Rearranged g g') (hm : Moved g g' d e) (hm' : Moved g g' d' e') :
    d.index = d'.index ↔ e.index = e'.index := by
  constructor
  · intro hi
    obtain rfl := h.left.eq_of_index_eq hm.left hm'.left hi
    rw [h.moved_unique hm hm']
  · intro hi
    obtain rfl := h.right.eq_of_index_eq hm.right hm'.right hi
    rw [h.symm.moved_unique hm.symm hm'.symm]

/-! ## looking up -/

/-- A name that is not shared leads to the same parameter. -/
theorem find?_moved [DecidableEq α] (h : Rearranged g g') (name : Descriptor → Option α)
    (hname : ∀ d i, name (d.withIndex i) = name d)
    (hg : g.switches.Pairwise fun d e => ∀ a ∈ name d, a ∉ name e)
    (hg' : g'.switches.Pairwise fun d e => ∀ a ∈ name d, a ∉ name e) (a : α) :
    Option.Rel (Moved g g') (g.switches.find? (name · = some a))
      (g'.switches.find? (name · = some a)) := by
  have hmoved : ∀ {d e}, Moved g g' d e →
      (d ∈ g.switches ∧ name d = some a ↔ e ∈ g'.switches ∧ name e = some a) := fun {d e} hm => by
    rw [mem_switches, mem_switches, hm.congr name hname, hm.kind_eq, iff_true_intro hm.left,
      iff_true_intro hm.right]
  cases hfind : g.switches.find? (name · = some a) with
  | some d =>
      have hd := (find?_name_eq_some_iff hg).1 hfind
      obtain ⟨e, hm⟩ := h.exists_moved (mem_switches.1 hd.1).1
      rw [(find?_name_eq_some_iff hg').2 ((hmoved hm).1 hd)]
      exact .some hm
  | none =>
      cases hfind' : g'.switches.find? (name · = some a) with
      | none => exact .none
      | some e =>
          have he := (find?_name_eq_some_iff hg').1 hfind'
          obtain ⟨d, hm⟩ := h.symm.exists_moved (mem_switches.1 he.1).1
          rw [(find?_name_eq_some_iff hg).2 ((hmoved hm.symm).2 he)] at hfind
          contradiction

theorem findShort_moved (h : Rearranged g g') (c : Char) :
    Option.Rel (Moved g g') (g.findShort c) (g'.findShort c) :=
  h.find?_moved (·.short) (fun _ _ => rfl) (h.left.shorts.filter _)
    (h.right.shorts.filter _) c

theorem findLong_moved (h : Rearranged g g') (long : String) :
    Option.Rel (Moved g g') (g.findLong long) (g'.findLong long) :=
  h.find?_moved (·.long) (fun _ _ => rfl) (h.left.longs.filter _)
    (h.right.longs.filter _) long

/-- The long name at the front of a text leads to the same parameter. -/
theorem matchLong_moved (h : Rearranged g g') (s : List Char) :
    Option.Rel (fun x y => Moved g g' x.1 y.1 ∧ x.2 = y.2) (g.matchLong s) (g'.matchLong s) := by
  obtain ⟨t, hs, ht⟩ := exists_eq_nameAt_append s
  have hname : ∀ c ∈ nameAt s, isNameChar c = true := fun _ hc => List.mem_takeWhile_imp hc
  rw [hs, h.left.matchLong_append_eq_findLong hname ht,
    h.right.matchLong_append_eq_findLong hname ht]
  have hrel := h.findLong_moved (String.ofList (nameAt s))
  generalize g.findLong _ = x at hrel ⊢
  generalize g'.findLong _ = y at hrel ⊢
  cases hrel with
  | none => exact .none
  | some hm => exact .some ⟨hm, rfl⟩

/-- The next positional is the same. -/
theorem positionals_moved (h : Rearranged g g') (k : Nat) :
    Option.Rel (Moved g g') g.positionals[k]? g'.positionals[k]? := by
  have hk := congrArg (·[k]?) h.positionals
  simp only [List.getElem?_map] at hk
  have hleft : ∀ d ∈ g.positionals[k]?, d ∈ g.parameters := fun d hd =>
    (mem_positionals.1 (List.mem_of_getElem? hd)).1
  have hright : ∀ e ∈ g'.positionals[k]?, e ∈ g'.parameters := fun e he =>
    (mem_positionals.1 (List.mem_of_getElem? he)).1
  generalize g.positionals[k]? = x at hk hleft ⊢
  generalize g'.positionals[k]? = y at hk hright ⊢
  cases x with
  | none =>
      cases y with
      | none => exact .none
      | some e => contradiction
  | some d =>
      cases y with
      | none => contradiction
      | some e => exact .some ⟨hleft d rfl, hright e rfl, Option.some.inj hk⟩

end Rearranged

/-! ## points of reading -/

/-- The readings of one line by two grammars have come to the same point. -/
structure Parallel (g g' : Grammar) (p q : Progress) : Prop where
  cursor : p.cursor = q.cursor
  filled : p.filled = q.filled
  optionsEnabled : p.optionsEnabled = q.optionsEnabled
  length : p.supplied.length = g.parameters.length
  length' : q.supplied.length = g'.parameters.length
  supplied : ∀ d e, Moved g g' d e → p.supplied[d.index]? = q.supplied[e.index]?

namespace Parallel

theorem symm (h : Parallel g g' p q) : Parallel g' g q p :=
  ⟨h.cursor.symm, h.filled.symm, h.optionsEnabled.symm, h.length', h.length,
    fun d e hm => (h.supplied e d hm.symm).symm⟩

/-- Both points are moved to the same place. -/
theorem move (h : Parallel g g' p q) (c : Cursor) :
    Parallel g g' { p with cursor := c } { q with cursor := c } :=
  ⟨rfl, h.filled, h.optionsEnabled, h.length, h.length', h.supplied⟩

/-- A value is noted for a parameter and for what it has become. -/
theorem supply (h : Parallel g g' p q) (hr : Rearranged g g') (hm : Moved g g' d e)
    (v : TypedValue) : Parallel g g' (Grammar.supply p d v) (Grammar.supply q e v) := by
  refine ⟨h.cursor, h.filled, h.optionsEnabled, List.length_set.trans h.length,
    List.length_set.trans h.length', fun d' e' hm' => ?_⟩
  have hlt := hr.left.index_lt hm.left
  have hlt' := hr.right.index_lt hm.right
  have hindex := hr.index_eq_iff hm hm'
  simp only [Grammar.supply, List.getElem?_set, h.length, h.length', h.supplied d' e' hm']
  by_cases hi : d.index = d'.index
  · rw [if_pos hi, if_pos (hindex.1 hi), if_pos hlt, if_pos hlt']
  · rw [if_neg hi, if_neg (mt hindex.2 hi)]

theorem setFlag (h : Parallel g g' p q) (hr : Rearranged g g') (hm : Moved g g' d e) :
    Parallel g g' (Grammar.setFlag p d) (Grammar.setFlag q e) := h.supply hr hm _

theorem begin (hr : Rearranged g g') (text : List Char) :
    Parallel g g' (g.begin text) (g'.begin text) := by
  refine ⟨rfl, rfl, rfl, List.length_map _, List.length_map _, fun d e hm => ?_⟩
  have hlt := hr.left.index_lt hm.left
  have hlt' := hr.right.index_lt hm.right
  simp only [Grammar.begin, List.getElem?_map, List.getElem?_eq_getElem hlt,
    List.getElem?_eq_getElem hlt', Option.map_some]

end Parallel

section Steps

variable (hr : Rearranged g g') (h : Parallel g g' p q)

include h

/-! ## values -/

theorem checkFresh_lockstep (hm : Moved g g' d e) (offset : Nat) :
    Lockstep Eq (checkFresh p d offset) (checkFresh q e offset) := by
  rw [checkFresh, checkFresh, ← h.supplied d e hm, hm.label_eq]
  split
  · exact .error _ trivial
  · exact .ok rfl

theorem expectValue_lockstep (option : String) :
    Lockstep (Parallel g g') (expectValue option p) (expectValue option q) := by
  simp only [expectValue, ← h.cursor]
  split
  · exact .error _ trivial
  · exact .ok (h.move _)

include hr

theorem readValue_lockstep (hm : Moved g g' d e) :
    Lockstep (Parallel g g') (readValue special d p) (readValue special e q) := by
  rw [readValue_eq, readValue_eq, ← h.cursor]
  simp only [hm.parser_eq, hm.countOf_eq, hm.label_eq, hm.type_eq, hm.arity_eq]
  generalize d.parser.read special p.cursor.rest = outcome
  obtain ⟨value, t⟩ := outcome
  have hsupply := fun v => (h.move (p.cursor.leaving t)).supply hr hm v
  cases value with
  | none => exact .error _ trivial
  | some v =>
      simp only
      split
      · split
        · exact .ok (hsupply _)
        · split
          · exact .ok (hsupply _)
          · exact .error _ trivial
      · exact .error _ trivial

theorem spacedValue_lockstep (hm : Moved g g' d e) (option : String) :
    Lockstep (Parallel g g') (expectValue option p >>= readValue special d)
      (expectValue option q >>= readValue special e) :=
  (expectValue_lockstep h option).bind fun _ _ h => readValue_lockstep hr h hm

/-! ## options -/

theorem longValue_lockstep (hm : Moved g g' d e) :
    Lockstep (Parallel g g') (longValue special d p) (longValue special e q) := by
  simp only [longValue, ← h.cursor, hm.kind_eq, hm.label_eq]
  split
  · split
    · exact .error _ trivial
    · exact .ok (h.setFlag hr hm)
  · split
    · split
      · exact .error _ trivial
      · exact readValue_lockstep hr (h.move _) hm
    · exact spacedValue_lockstep hr h hm _

theorem longOption_lockstep :
    Lockstep (Parallel g g') (g.longOption special p) (g'.longOption special q) := by
  have hfound := hr.matchLong_moved (p.cursor.advance doubleDash.length).rest
  simp only [longOption, ← h.cursor]
  generalize g.matchLong _ = x at hfound ⊢
  generalize g'.matchLong _ = y at hfound ⊢
  cases hfound with
  | none => exact .error _ trivial
  | @some x y hxy =>
      obtain ⟨d, long⟩ := x
      obtain ⟨e, long'⟩ := y
      obtain ⟨hm, rfl⟩ := hxy
      exact (checkFresh_lockstep h hm _).bind fun _ _ _ => longValue_lockstep hr (h.move _) hm

theorem shortOptions_lockstep (start : Nat) :
    Lockstep (Parallel g g') (g.shortOptions special start p)
      (g'.shortOptions special start q) := by
  generalize hs : p.cursor.rest = s
  induction s generalizing p q with
  | nil =>
      have hs' := h.cursor ▸ hs
      rw [shortOptions, shortOptions]
      split
      · split
        · exact .ok h
        · next hcons => rw [hs'] at hcons; contradiction
      · next hcons => rw [hs] at hcons; contradiction
  | cons c r ih =>
      have hfound := hr.findShort_moved c
      rw [shortOptions_cons hs, shortOptions_cons (h.cursor ▸ hs), ← h.cursor]
      generalize g.findShort c = x at hfound ⊢
      generalize g'.findShort c = y at hfound ⊢
      cases hfound with
      | none => exact .error _ trivial
      | @some d e hm =>
          have hnext := h.move (p.cursor.advance 1)
          have hfresh := checkFresh_lockstep h hm
            (if p.cursor.offset = start + 1 then start else p.cursor.offset)
          simp only [hm.kind_eq]
          generalize checkFresh p d _ = x at hfresh ⊢
          generalize checkFresh q e _ = y at hfresh ⊢
          cases hfresh with
          | error e he => exact .error e he
          | ok _ =>
              simp only
              split
              · split
                · exact .ok (hnext.setFlag hr hm)
                · exact ih (hnext.setFlag hr hm) (Cursor.rest_advance_one hs)
              · split
                · exact spacedValue_lockstep hr hnext hm _
                · exact readValue_lockstep hr hnext hm

/-! ## items -/

theorem positional_lockstep :
    Lockstep (Parallel g g') (g.positional special p) (g'.positional special q) := by
  have hfound := hr.positionals_moved p.filled
  simp only [positional, ← h.filled, ← h.cursor]
  generalize g.positionals[p.filled]? = x at hfound ⊢
  generalize g'.positionals[p.filled]? = y at hfound ⊢
  cases hfound with
  | none => exact .error _ trivial
  | some hm =>
      exact readValue_lockstep hr
        ⟨rfl, rfl, h.optionsEnabled, h.length, h.length', h.supplied⟩ hm

theorem item_lockstep :
    Lockstep (Parallel g g') (g.item special p) (g'.item special q) := by
  have hshort : ∀ r, g'.startsShortOption r = g.startsShortOption r := fun r => by
    cases r with
    | nil => rfl
    | cons c r =>
        have hfound := hr.findShort_moved c
        simp only [startsShortOption]
        generalize g.findShort c = x at hfound ⊢
        generalize g'.findShort c = y at hfound ⊢
        cases hfound <;> rfl
  have hpositional : Lockstep (Parallel g g') (g.positional special p)
      (g'.positional special q) := positional_lockstep hr h
  obtain ⟨c, noted, filled, enabled⟩ := p
  obtain ⟨_, noted', _, _⟩ := q
  obtain ⟨rfl, rfl, rfl, hlength, hlength', hnoted⟩ := h
  have h : Parallel g g' ⟨c, noted, filled, enabled⟩ ⟨c, noted', filled, enabled⟩ :=
    ⟨rfl, rfl, rfl, hlength, hlength', hnoted⟩
  simp only [item, hshort]
  split
  · split
    · split
      · exact .ok ⟨rfl, rfl, rfl, hlength, hlength', hnoted⟩
      · split
        · exact longOption_lockstep hr h
        · split
          · exact shortOptions_lockstep hr (h.move (c.advance 1)) _
          · exact hpositional
    · exact hpositional
  · exact hpositional

/-- **The two readings take every line to the same point, or to the same fault.** -/
theorem items_lockstep :
    Lockstep (Parallel g g') (g.items special p) (g'.items special q) := by
  induction hn : p.cursor.skipBlanks.remaining using Nat.strong_induction_on generalizing p q with
  | _ n ih =>
      rw [items, items]
      simp only [← h.cursor]
      split
      · exact .ok (h.move _)
      · have hnext : Lockstep (Parallel g g')
            (g.item special { p with cursor := p.cursor.skipBlanks })
            (g'.item special { q with cursor := p.cursor.skipBlanks }) :=
          item_lockstep hr (h.move p.cursor.skipBlanks)
        generalize g.item special _ = x at hnext ⊢
        generalize g'.item special _ = y at hnext ⊢
        cases hnext with
        | error e he => exact .error e he
        | @ok p' q' h' =>
            simp only [← h'.cursor]
            split
            · next hlt => exact ih _ (hn ▸ hlt) h' rfl
            · exact .ok h'

end Steps

/-! ## parameters that were not supplied -/

/-- The parameter must be supplied and has not been. -/
def lacks (p : Progress) (d : Descriptor) : Bool := d.required && p.supplied[d.index]?.join.isNone

/-- The noted values are those of the parameters. -/
theorem Checked.supplied_eq_map (hg : g.Checked)
    (hlength : p.supplied.length = g.parameters.length) :
    p.supplied = g.parameters.map fun d => p.supplied[d.index]?.join := by
  refine List.ext_getElem? fun k => ?_
  rw [List.getElem?_map]
  cases hd : g.parameters[k]? with
  | none =>
      rw [List.getElem?_eq_none_iff] at hd
      rw [List.getElem?_eq_none (hlength ▸ hd)]
      rfl
  | some d =>
      have hk := (List.getElem?_eq_some_iff.1 hd).1
      simp only [Option.map_some, hg.index_eq hd, List.getElem?_eq_getElem (hlength ▸ hk)]
      rfl

/-- The line is finished by the first parameter that lacks a value, or by the values of all. -/
theorem Checked.finish_eq (hg : g.Checked) (hlength : p.supplied.length = g.parameters.length) :
    g.finish special p =
      match g.parameters.find? (lacks p) with
      | some d => .error (.missingRequired d.label p.cursor.offset)
      | none => .ok ⟨g.parameters.map fun d => some (settledOr special d p.supplied[d.index]?.join)⟩
      := by
  have hsettle : settle special p.cursor.offset g.parameters p.supplied =
      match g.parameters.find? (lacks p) with
      | some d => .error (.missingRequired d.label p.cursor.offset)
      | none => .ok (g.parameters.map fun d => settledOr special d p.supplied[d.index]?.join) := by
    conv_lhs => rw [hg.supplied_eq_map hlength]
    exact settle_eq_find? hg.fallback
  rw [finish, hsettle]
  cases g.parameters.find? (lacks p) with
  | some d => rfl
  | none => exact congrArg (fun values => Except.ok (Arguments.mk values)) List.map_map

/-- The arguments have the same value for a parameter and for what it has become. -/
def SameValues (g g' : Grammar) (args args' : Arguments) : Prop :=
  ∀ d e, Moved g g' d e →
    ∃ v, args.values[d.index]? = some (some v) ∧ args'.values[e.index]? = some (some v)

namespace Parallel

theorem lacks_eq (h : Parallel g g' p q) (hm : Moved g g' d e) : lacks q e = lacks p d := by
  rw [lacks, lacks, h.supplied d e hm, hm.required_eq]

/-- If nothing is missing under the one grammar, then nothing is under the other. -/
theorem find?_lacks_eq_none (h : Parallel g g' p q) (hr : Rearranged g g')
    (hnone : g.parameters.find? (lacks p) = none) : g'.parameters.find? (lacks q) = none := by
  rw [List.find?_eq_none] at hnone ⊢
  intro e he
  obtain ⟨d, hm⟩ := hr.symm.exists_moved he
  rw [h.lacks_eq hm.symm]
  exact hnone d hm.right

/-- The two readings are finished with the same values, or something is missing under both
grammars.  Each of them names what it lacks first. -/
theorem finish_cases (h : Parallel g g' p q) (hr : Rearranged g g') :
    (∃ args args', g.finish special p = .ok args ∧ g'.finish special q = .ok args' ∧
      SameValues g g' args args') ∨
    ∃ name name' offset, g.finish special p = .error (.missingRequired name offset) ∧
      g'.finish special q = .error (.missingRequired name' offset) := by
  rw [hr.left.finish_eq h.length, hr.right.finish_eq h.length', ← h.cursor]
  cases hp : g.parameters.find? (lacks p) with
  | none =>
      rw [h.find?_lacks_eq_none hr hp]
      refine .inl ⟨_, _, rfl, rfl, fun d e hm => ⟨_, hr.left.getElem?_map_index hm.left _, ?_⟩⟩
      rw [hr.right.getElem?_map_index hm.right, h.supplied d e hm, hm.settledOr_eq]
  | some d =>
      cases hq : g'.parameters.find? (lacks q) with
      | none =>
          rw [h.symm.find?_lacks_eq_none hr.symm hq] at hp
          contradiction
      | some e => exact .inr ⟨d.label, e.label, _, rfl, rfl⟩

end Parallel

/-- **Rearranged grammars read every line alike**: with the same values, with the same fault of an
item, or both finding at the same place that something is missing. -/
theorem Rearranged.parse_cases (hr : Rearranged g g') (special : SpecialSet) (text : List Char) :
    (∃ args args', g.parse special text = .ok args ∧ g'.parse special text = .ok args' ∧
      SameValues g g' args args') ∨
    (∃ e : ParseError, e.OfItem ∧ g.parse special text = .error e ∧
      g'.parse special text = .error e) ∨
    ∃ name name' offset, g.parse special text = .error (.missingRequired name offset) ∧
      g'.parse special text = .error (.missingRequired name' offset) := by
  have hitems : Lockstep (Parallel g g') (g.items special (g.begin text))
      (g'.items special (g'.begin text)) := items_lockstep hr (.begin hr text)
  simp only [parse_eq_resume, resume]
  generalize g.items special (g.begin text) = x at hitems ⊢
  generalize g'.items special (g'.begin text) = y at hitems ⊢
  cases hitems with
  | ok h => exact (h.finish_cases hr).imp_right .inr
  | error e he => exact .inr (.inl ⟨e, he, rfl, rfl⟩)

end Grammar

end TypedConsole
