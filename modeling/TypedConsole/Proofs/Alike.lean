import TypedConsole.Proofs.Acceptance
import TypedConsole.Proofs.Termination

/-!
# TypedConsole.Proofs.Alike

What the reading of a line depends on: the text that is left, what has been supplied and filled,
and whether options are still recognised.  What has been read already shows in nothing but the
places of faults.

`Progress.Same` is the relation between two such points of reading, and `Alike` carries it to
outcomes.  There is one lemma for each step of the reading, in the order in which the steps are
defined; `resume_alike` is the sum of them.
-/

namespace TypedConsole

/-- The fault without its place. -/
def ParseError.unplaced : ParseError → ParseError
  | missingRequired name _ => missingRequired name 0
  | unexpectedArgument _ => unexpectedArgument 0
  | duplicateParameter name _ => duplicateParameter name 0
  | unknownOption option _ => unknownOption option 0
  | invalidValue name _ => invalidValue name 0
  | elementCount name count _ => elementCount name count 0
  | malformedOption option fault _ => malformedOption option fault 0

/-! ## outcomes -/

/-- Two outcomes with related results, or with the same fault at perhaps different places. -/
inductive Alike (R : α → β → Prop) : Except ParseError α → Except ParseError β → Prop
  | ok (h : R a b) : Alike R (.ok a) (.ok b)
  | error (h : e.unplaced = e'.unplaced) : Alike R (.error e) (.error e')

namespace Alike

variable {R : α → α → Prop} {x y z : Except ParseError α}

theorem trans [Trans R R R] (h : Alike R x y) (h' : Alike R y z) : Alike R x z := by
  cases h with
  | ok h =>
      cases h' with
      | ok h' => exact .ok (Trans.trans h h')
  | error h =>
      cases h' with
      | error h' => exact .error (h.trans h')

instance [Trans R R R] : Trans (Alike R) (Alike R) (Alike R) := ⟨trans⟩

/-- Like outcomes stay alike when both go on in like ways. -/
theorem bind {R : α → β → Prop} {S : γ → δ → Prop} {x : Except ParseError α}
    {y : Except ParseError β} {f : α → Except ParseError γ} {f' : β → Except ParseError δ}
    (h : Alike R x y) (hf : ∀ a b, R a b → Alike S (f a) (f' b)) :
    Alike S (x >>= f) (y >>= f') := by
  cases h with
  | ok h => exact hf _ _ h
  | error h => exact .error h

/-- One outcome goes on in like ways. -/
theorem bind_same {S : γ → δ → Prop} (x : Except ParseError α) {f : α → Except ParseError γ}
    {f' : α → Except ParseError δ} (hf : ∀ a, Alike S (f a) (f' a)) :
    Alike S (x >>= f) (x >>= f') := by
  cases x with
  | error e => exact .error rfl
  | ok a => exact hf a

/-- Outcomes that differ in the places of faults are equal without them. -/
theorem unplaced_eq (h : Alike Eq x y) :
    x.mapError ParseError.unplaced = y.mapError ParseError.unplaced := by
  cases h with
  | ok h => rw [h]
  | error h => exact congrArg Except.error h

end Alike

/-! ## points of reading -/

/-- The reading of two lines has come to points that differ only in what has been read. -/
structure Progress.Same (p q : Progress) : Prop where
  rest : p.cursor.rest = q.cursor.rest
  supplied : p.supplied = q.supplied
  filled : p.filled = q.filled
  optionsEnabled : p.optionsEnabled = q.optionsEnabled

namespace Progress.Same

variable {p q r : Progress}

theorem refl (p : Progress) : p.Same p := ⟨rfl, rfl, rfl, rfl⟩

theorem trans (h : p.Same q) (h' : q.Same r) : p.Same r :=
  ⟨h.rest.trans h'.rest, h.supplied.trans h'.supplied, h.filled.trans h'.filled,
    h.optionsEnabled.trans h'.optionsEnabled⟩

instance : Trans Same Same Same := ⟨trans⟩

/-- Both points are moved, to places with the same text left. -/
theorem move (h : p.Same q) {c c' : Cursor} (hrest : c.rest = c'.rest) :
    Same { p with cursor := c } { q with cursor := c' } :=
  ⟨hrest, h.supplied, h.filled, h.optionsEnabled⟩

/-- What is left of the text may be taken to be the whole text. -/
theorem start (p : Progress) {c : Cursor} {t : List Char} (hrest : c.rest = t) :
    Same { p with cursor := c } { p with cursor := .start t } :=
  (refl p).move (hrest.trans (Cursor.rest_start t).symm)

theorem remaining (h : p.Same q) : p.cursor.remaining = q.cursor.remaining := by
  rw [← Cursor.length_rest, ← Cursor.length_rest, h.rest]

theorem atEnd (h : p.Same q) : p.cursor.atEnd = q.cursor.atEnd :=
  congrArg (· == 0) h.remaining

theorem skipBlanks (h : p.Same q) :
    Same { p with cursor := p.cursor.skipBlanks } { q with cursor := q.cursor.skipBlanks } :=
  h.move (by rw [Cursor.rest_skipBlanks, Cursor.rest_skipBlanks, h.rest])

theorem advance (h : p.Same q) (k : Nat) :
    Same { p with cursor := p.cursor.advance k } { q with cursor := q.cursor.advance k } :=
  h.move (by rw [Cursor.rest_advance, Cursor.rest_advance, h.rest])

/-- Both points are behind the next character at a boundary, or neither is. -/
theorem atBoundary_advance (h : p.Same q) (k : Nat) :
    (p.cursor.advance k).atBoundary = (q.cursor.advance k).atBoundary :=
  congrArg Text.atBoundary (h.advance k).rest

theorem supply (h : p.Same q) (d : Descriptor) (v : TypedValue) :
    Same (Grammar.supply p d v) (Grammar.supply q d v) :=
  ⟨h.rest, congrArg (·.set d.index (some v)) h.supplied, h.filled, h.optionsEnabled⟩

theorem setFlag (h : p.Same q) (d : Descriptor) :
    Same (Grammar.setFlag p d) (Grammar.setFlag q d) := h.supply d _

end Progress.Same

namespace Grammar

variable {special : SpecialSet} {d : Descriptor} {p q : Progress}

/-! ## values -/

theorem checkFresh_alike (h : p.supplied = q.supplied) (d : Descriptor) (o o' : Nat) :
    Alike Eq (checkFresh p d o) (checkFresh q d o') := by
  rw [checkFresh, checkFresh, h]
  split
  · exact .error rfl
  · exact .ok rfl

/-- The steps of reading a value, in terms of the text that is left. -/
theorem readValue_eq (special : SpecialSet) (d : Descriptor) (p : Progress) :
    readValue special d p =
      let (value, t) := d.parser.read special p.cursor.rest
      let c := p.cursor.leaving t
      match value with
      | none => .error (.invalidValue d.label c.offset)
      | some v =>
        if Text.atBoundary t then
          match countOf d v with
          | none => .ok (supply { p with cursor := c } d ⟨d.type, v⟩)
          | some count =>
            if d.arity.permits count then .ok (supply { p with cursor := c } d ⟨d.type, v⟩)
            else .error (.elementCount d.label count p.cursor.offset)
        else .error (.invalidValue d.label c.offset) := by
  obtain ⟨value, t, hr⟩ : ∃ value t, d.parser.read special p.cursor.rest = (value, t) :=
    ⟨_, _, rfl⟩
  have hclaims := d.parser.claims_read special p.cursor.rest
  rw [hr] at hclaims
  simp only [readValue, Cursor.read, hr, Cursor.atBoundary, Cursor.rest_leaving hclaims]
  cases value with
  | none => rfl
  | some v => cases Text.atBoundary t <;> rfl

theorem readValue_alike (h : p.Same q) (special : SpecialSet) (d : Descriptor) :
    Alike Progress.Same (readValue special d p) (readValue special d q) := by
  rw [readValue_eq, readValue_eq, ← h.rest]
  have hclaims := d.parser.claims_read special p.cursor.rest
  generalize d.parser.read special p.cursor.rest = outcome at hclaims ⊢
  obtain ⟨value, t⟩ := outcome
  have hrest : (p.cursor.leaving t).rest = (q.cursor.leaving t).rest := by
    rw [Cursor.rest_leaving hclaims, Cursor.rest_leaving (h.rest ▸ hclaims)]
  have hsupply : ∀ v, (supply { p with cursor := p.cursor.leaving t } d v).Same
      (supply { q with cursor := q.cursor.leaving t } d v) := (h.move hrest).supply d
  cases value with
  | none => exact .error rfl
  | some v =>
      simp only
      split
      · split
        · exact .ok (hsupply _)
        · split
          · exact .ok (hsupply _)
          · exact .error rfl
      · exact .error rfl

theorem expectValue_alike (h : p.Same q) (option : String) :
    Alike Progress.Same (expectValue option p) (expectValue option q) := by
  simp only [expectValue, h.skipBlanks.atEnd]
  split
  · exact .error rfl
  · exact .ok h.skipBlanks

/-! ## options -/

theorem longValue_alike (h : p.Same q) (special : SpecialSet) (d : Descriptor) :
    Alike Progress.Same (longValue special d p) (longValue special d q) := by
  simp only [longValue, h.rest, h.atBoundary_advance 1]
  split
  · split
    · exact .error rfl
    · exact .ok (h.setFlag d)
  · split
    · split
      · exact .error rfl
      · exact readValue_alike (h.advance 1) special d
    · exact (expectValue_alike h d.label).bind fun _ _ h => readValue_alike h special d

theorem longOption_alike (h : p.Same q) (g : Grammar) (special : SpecialSet) :
    Alike Progress.Same (g.longOption special p) (g.longOption special q) := by
  have hnamed := h.advance doubleDash.length
  have hrest := hnamed.rest
  simp only at hrest
  simp only [longOption, hrest]
  split
  · exact .error rfl
  · next found =>
      exact (checkFresh_alike h.supplied _ _ _).bind fun _ _ _ =>
        longValue_alike (hnamed.advance _) special _

/-- The place of the dash shows in faults alone. -/
theorem shortOptions_alike (h : p.Same q) (g : Grammar) (special : SpecialSet)
    (start start' : Nat) :
    Alike Progress.Same (g.shortOptions special start p) (g.shortOptions special start' q) := by
  generalize hs : p.cursor.rest = s
  induction s generalizing p q with
  | nil =>
      have hs' := h.rest.symm.trans hs
      rw [shortOptions, shortOptions]
      split
      · split
        · exact .ok h
        · next hcons => rw [hs'] at hcons; contradiction
      · next hcons => rw [hs] at hcons; contradiction
  | cons c r ih =>
      have hadvance := h.advance 1
      rw [shortOptions_cons hs, shortOptions_cons (h.rest.symm.trans hs)]
      simp only [h.atBoundary_advance 1]
      split
      · exact .error rfl
      · next d _ =>
          have hfresh := checkFresh_alike h.supplied d
            (if p.cursor.offset = start + 1 then start else p.cursor.offset)
            (if q.cursor.offset = start' + 1 then start' else q.cursor.offset)
          generalize checkFresh p d _ = x at hfresh ⊢
          generalize checkFresh q d _ = y at hfresh ⊢
          cases hfresh with
          | error he => exact .error he
          | ok _ =>
              simp only
              split
              · split
                · exact .ok (hadvance.setFlag d)
                · exact ih (hadvance.setFlag d) (Cursor.rest_advance_one hs)
              · split
                · exact (expectValue_alike hadvance _).bind fun _ _ h =>
                    readValue_alike h special d
                · exact readValue_alike hadvance special d

/-! ## items -/

theorem positional_alike (h : p.Same q) (g : Grammar) (special : SpecialSet) :
    Alike Progress.Same (g.positional special p) (g.positional special q) := by
  simp only [positional, h.filled]
  split
  · exact .error rfl
  · have hnext : Progress.Same { p with filled := q.filled + 1 }
        { q with filled := q.filled + 1 } := ⟨h.rest, h.supplied, rfl, h.optionsEnabled⟩
    exact readValue_alike hnext special _

theorem item_alike (h : p.Same q) (g : Grammar) (special : SpecialSet) :
    Alike Progress.Same (g.item special p) (g.item special q) := by
  have hpositional := positional_alike h g special
  have hnext := h.advance
  obtain ⟨c, supplied, filled, enabled⟩ := p
  obtain ⟨c', _, _, _⟩ := q
  obtain ⟨hrest, rfl, rfl, rfl⟩ := h
  simp only [item, hrest]
  split
  · split
    · split
      · exact .ok ⟨(hnext doubleDash.length).rest, rfl, rfl, rfl⟩
      · split
        · exact longOption_alike ⟨hrest, rfl, rfl, rfl⟩ g special
        · split
          · exact shortOptions_alike (hnext 1) g special _ _
          · exact hpositional
    · exact hpositional
  · exact hpositional

theorem items_alike (h : p.Same q) (g : Grammar) (special : SpecialSet) :
    Alike Progress.Same (g.items special p) (g.items special q) := by
  induction hn : p.cursor.skipBlanks.remaining using Nat.strong_induction_on generalizing p q with
  | _ n ih =>
      have hskip := h.skipBlanks
      rw [items, items]
      simp only [hskip.atEnd]
      split
      · exact .ok hskip
      · have hnext := item_alike hskip g special
        generalize g.item special { p with cursor := p.cursor.skipBlanks } = x at hnext ⊢
        generalize g.item special { q with cursor := q.cursor.skipBlanks } = y at hnext ⊢
        cases hnext with
        | error he => exact .error he
        | @ok p' q' h' =>
            simp only [h'.skipBlanks.remaining, hskip.remaining]
            split
            · next hlt =>
                refine ih _ ?_ h' rfl
                rwa [← hn, hskip.remaining, h'.skipBlanks.remaining]
            · exact .ok h'

/-- Leading blanks make no difference to the items behind them. -/
theorem items_skipBlanks (g : Grammar) (special : SpecialSet) (p : Progress) :
    g.items special { p with cursor := p.cursor.skipBlanks } = g.items special p := by
  rw [items, items, Cursor.skipBlanks_skipBlanks]

/-! ## the rest of a line -/

/-- The outcome is a result whatever the offset, or one parameter is missing at every offset. -/
def Settles (ds : List Descriptor) (x : Nat → Except ParseError α) : Prop :=
  (∃ a, ∀ offset, x offset = .ok a) ∨
    ∃ d ∈ ds, ∀ offset, x offset = .error (.missingRequired d.label offset)

theorem Settles.map {ds : List Descriptor} {x : Nat → Except ParseError α} (h : Settles ds x)
    (f : α → β) : Settles ds fun offset => x offset >>= fun a => pure (f a) := by
  rcases h with ⟨a, h⟩ | ⟨d, hd, h⟩
  · exact .inl ⟨f a, fun offset => by simp only [h]; rfl⟩
  · exact .inr ⟨d, hd, fun offset => by simp only [h]; rfl⟩

theorem Settles.cons {ds : List Descriptor} {x : Nat → Except ParseError α} (h : Settles ds x)
    (d : Descriptor) : Settles (d :: ds) x :=
  h.imp_right fun ⟨e, he, h⟩ => ⟨e, List.mem_cons_of_mem d he, h⟩

theorem Settles.alike {ds : List Descriptor} {x : Nat → Except ParseError α}
    (h : Settles ds x) (o o' : Nat) : Alike Eq (x o) (x o') := by
  rcases h with ⟨a, h⟩ | ⟨d, -, h⟩
  · rw [h o, h o']
    exact .ok rfl
  · rw [h o, h o']
    exact .error rfl

/-- Whether values can be settled, and which parameter is missing, does not depend on the
offset. -/
theorem settles_settle (special : SpecialSet) (ds : List Descriptor)
    (vs : List (Option TypedValue)) : Settles ds fun offset => settle special offset ds vs := by
  induction ds generalizing vs with
  | nil => exact .inl ⟨[], fun _ => rfl⟩
  | cons d ds ih =>
      match vs with
      | [] => exact .inl ⟨[], fun _ => rfl⟩
      | some v :: vs => exact ((ih vs).map (v :: ·)).cons d
      | none :: vs =>
          simp only [settle]
          split
          · exact ((ih vs).map _).cons d
          · exact .inr ⟨d, List.mem_cons_self, fun _ => rfl⟩

theorem finish_alike (h : p.Same q) (g : Grammar) (special : SpecialSet) :
    Alike Eq (g.finish special p) (g.finish special q) := by
  rw [finish, finish, h.supplied]
  exact ((settles_settle special _ _).alike _ _).bind fun _ _ h => .ok (by rw [h])

/-- What becomes of a line from some point on. -/
def resume (g : Grammar) (special : SpecialSet) (p : Progress) : Except ParseError Arguments :=
  g.items special p >>= g.finish special

/-- A line is read from its start on. -/
theorem parse_eq_resume (g : Grammar) (special : SpecialSet) (text : List Char) :
    g.parse special text = g.resume special (g.begin text) := rfl

/-- **What has been read of a line decides nothing but the places of faults.** -/
theorem resume_alike (h : p.Same q) (g : Grammar) (special : SpecialSet) :
    Alike Eq (g.resume special p) (g.resume special q) :=
  (items_alike h g special).bind fun _ _ h => finish_alike h g special

end Grammar

end TypedConsole
