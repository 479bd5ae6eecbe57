import TypedConsole.Proofs.Alike

/-!
# TypedConsole.Proofs.FaultPlaces

Where the offset of a fault points.  `Placed` says for each kind of fault what stands at its offset:

1. a fault of something that was typed points at a character that is no blank;
2. a value that is awaited is awaited at the end of the line or at a blank;
3. a value that was rejected was rejected somewhere behind its first character;
4. a parameter that is missing is missing at the end of the line, and is the first such parameter.

The offsets are taken at different moments, some before and some behind what is claimed.  There is
one lemma for each step of the reading, under the condition that the step starts at a character
that is no blank, and `Checked.items_faults` carries them through the line.
-/

namespace TypedConsole

/-! ## places in a line -/

/-- A character that is no blank stands at the place. -/
def OnCharacter (text : List Char) (offset : Nat) : Prop :=
  ∃ c, text[offset]? = some c ∧ Text.isBlank c = false

/-- The place is the end of the text, or a blank stands there. -/
def AtGap (text : List Char) (offset : Nat) : Prop :=
  offset = text.length ∨ ∃ c, text[offset]? = some c ∧ Text.isBlank c = true

namespace Cursor

variable {c : Cursor}

theorem getElem?_offset {a : Char} {r : List Char} (h : c.rest = a :: r) :
    c.text[c.offset]? = some a := by
  have hhead := congrArg (·[0]?) h
  rwa [rest, List.getElem?_drop] at hhead

theorem onCharacter_of_cons {a : Char} {r : List Char} (h : c.rest = a :: r)
    (ha : Text.isBlank a = false) : OnCharacter c.text c.offset := ⟨a, getElem?_offset h, ha⟩

theorem onCharacter (h : c.atBoundary = false) : OnCharacter c.text c.offset := by
  obtain ⟨a, r, hrest, ha⟩ := Text.atBoundary_eq_false_iff.1 h
  exact onCharacter_of_cons hrest ha

theorem atGap (h : c.atBoundary = true) : AtGap c.text c.offset := by
  cases hrest : c.rest with
  | nil =>
      have hlength := c.offset_add_length_rest
      rw [hrest] at hlength
      exact .inl hlength
  | cons a r =>
      rw [atBoundary, hrest] at h
      exact .inr ⟨a, getElem?_offset hrest, h⟩

end Cursor

theorem OnCharacter.lt {text : List Char} {offset : Nat} (h : OnCharacter text offset) :
    offset < text.length := by
  obtain ⟨c, hc, -⟩ := h
  exact (List.getElem?_eq_some_iff.1 hc).1

theorem AtGap.le {text : List Char} {offset : Nat} (h : AtGap text offset) :
    offset ≤ text.length := by
  rcases h with rfl | ⟨c, hc, -⟩
  · exact Nat.le_refl _
  · exact (List.getElem?_eq_some_iff.1 hc).1.le

namespace Grammar

/-- The parser of the parameter was tried at `start` and stopped at `stop`, without a value or in
front of something that is no blank. -/
structure RejectedValue (special : SpecialSet) (d : Descriptor) (text : List Char)
    (start stop : Nat) : Prop where
  starts : OnCharacter text start
  start_le : start ≤ stop
  stop_le : stop ≤ text.length
  stops : (d.parser.read special (text.drop start)).2 = text.drop stop
  rejected : (d.parser.read special (text.drop start)).1 = none ∨
    Text.atBoundary (text.drop stop) = false

/-- The items supply the parameter. -/
def SuppliedBy (is : List Item) (d : Descriptor) : Prop :=
  ∃ o ∈ is.flatMap Item.supplies, o.parameter = d

/-- The line consists of items that supply all required parameters in front of one with the name,
and that one is required as well. -/
def FirstMissing (g : Grammar) (special : SpecialSet) (text : List Char) (name : String) : Prop :=
  ∃ is before d behind, Line g special true is text ∧ Orderly g is ∧
    g.parameters = before ++ d :: behind ∧ d.label = name ∧ d.required = true ∧
    ¬SuppliedBy is d ∧ ∀ e ∈ before, e.required = true → SuppliedBy is e

/-- What stands at the offset of a fault. -/
def Placed (g : Grammar) (special : SpecialSet) (text : List Char) : ParseError → Prop
  | .missingRequired name offset => offset = text.length ∧ FirstMissing g special text name
  | .unexpectedArgument offset | .duplicateParameter _ offset | .unknownOption _ offset
  | .elementCount _ _ offset | .malformedOption _ .takesNoValue offset => OnCharacter text offset
  | .malformedOption _ .needsValue offset => AtGap text offset
  | .malformedOption _ (.other _) _ => False
  | .invalidValue name offset =>
    ∃ d ∈ g.parameters, d.label = name ∧ ∃ start, RejectedValue special d text start offset

variable {g : Grammar} {special : SpecialSet} {d : Descriptor} {p : Progress}

/-- The offset of a fault lies in the line or at its end. -/
theorem Placed.offset_le {text : List Char} {e : ParseError} (h : Placed g special text e) :
    e.offset ≤ text.length := by
  cases e with
  | missingRequired => exact h.1.le
  | unexpectedArgument | duplicateParameter | unknownOption | elementCount =>
      exact (OnCharacter.lt h).le
  | invalidValue =>
      obtain ⟨d, -, -, start, h⟩ := h
      exact h.stop_le
  | malformedOption option fault offset =>
      cases fault with
      | takesNoValue => exact (OnCharacter.lt h).le
      | needsValue => exact AtGap.le h
      | other => exact h.elim

/-! ## faults of a step -/

/-- Every fault of the outcome is as `P` says. -/
def FaultsAre (P : ParseError → Prop) (x : Except ParseError α) : Prop :=
  ∀ e, x = .error e → P e

section FaultsAre

variable {P : ParseError → Prop}

theorem FaultsAre.ok (a : α) : FaultsAre P (.ok a) := fun _ h => nomatch h

theorem FaultsAre.error {e : ParseError} (h : P e) :
    FaultsAre P (.error e : Except ParseError α) := fun _ he => Except.error.inj he ▸ h

theorem FaultsAre.bind {x : Except ParseError α} {f : α → Except ParseError β}
    (hx : FaultsAre P x) (hf : ∀ a, x = .ok a → FaultsAre P (f a)) : FaultsAre P (x >>= f) := by
  cases x with
  | error e => exact .error (hx e rfl)
  | ok a => exact hf a rfl

end FaultsAre

/-! ## values -/

theorem checkFresh_faults {offset : Nat} (h : OnCharacter p.cursor.text offset) :
    FaultsAre (Placed g special p.cursor.text) (checkFresh p d offset) := by
  rw [checkFresh]
  split
  · exact .error h
  · exact .ok ()

/-- A value that starts where the reading stands is rejected where its parser stops. -/
theorem rejectedValue_of_read (hp : p.cursor.atBoundary = false) {value : Option Value}
    {t : List Char} (hr : d.parser.read special p.cursor.rest = (value, t))
    (h : value = none ∨ Text.atBoundary t = false) :
    RejectedValue special d p.cursor.text p.cursor.offset (p.cursor.leaving t).offset := by
  have hclaims : t <:+ p.cursor.rest := by
    have hclaims := d.parser.claims_read special p.cursor.rest
    rwa [hr] at hclaims
  have hrest : p.cursor.text.drop (p.cursor.leaving t).offset = t := Cursor.rest_leaving hclaims
  refine ⟨p.cursor.onCharacter hp, ?_, (p.cursor.leaving t).offset_le, ?_, ?_⟩
  · have hoffset := p.cursor.offset_add_length_rest
    have hlength := hclaims.length_le
    simp only [Cursor.leaving]
    omega
  · exact (congrArg Prod.snd hr).trans hrest.symm
  · rw [hrest]
    exact h.imp_left (congrArg Prod.fst hr).trans

theorem readValue_faults (hd : d ∈ g.parameters) (hp : p.cursor.atBoundary = false) :
    FaultsAre (Placed g special p.cursor.text) (readValue special d p) := by
  obtain ⟨value, t, hr⟩ : ∃ value t, d.parser.read special p.cursor.rest = (value, t) :=
    ⟨_, _, rfl⟩
  have hrejected : value = none ∨ Text.atBoundary t = false →
      Placed g special p.cursor.text (.invalidValue d.label (p.cursor.leaving t).offset) :=
    fun h => ⟨d, hd, rfl, _, rejectedValue_of_read hp hr h⟩
  rw [readValue_eq]
  simp only [hr]
  cases value with
  | none => exact .error (hrejected (.inl rfl))
  | some v =>
      simp only
      split
      · split
        · exact .ok _
        · split
          · exact .ok _
          · exact .error (p.cursor.onCharacter hp)
      · next h => exact .error (hrejected (.inr (by simpa using h)))

/-- A value behind blanks is awaited at the end of the line. -/
theorem spacedValue_faults (hd : d ∈ g.parameters) (option : String) (p : Progress) :
    FaultsAre (Placed g special p.cursor.text)
      (expectValue option p >>= readValue special d) := by
  refine FaultsAre.bind ?_ fun q hq => ?_
  · simp only [expectValue]
    split
    · next hend =>
        refine .error (p.cursor.skipBlanks.atGap ?_)
        rw [Cursor.atBoundary, Cursor.atEnd_iff.1 hend]
        rfl
    · exact .ok _
  · obtain ⟨hb, rfl⟩ := expectValue_eq_ok_iff.1 hq
    exact readValue_faults (p := { p with cursor := p.cursor.skipBlanks }) hd hb

/-! ## options -/

theorem longValue_faults (hd : d ∈ g.parameters) (p : Progress) :
    FaultsAre (Placed g special p.cursor.text) (longValue special d p) := by
  simp only [longValue]
  split
  · split
    · next ha =>
        obtain ⟨r, hr⟩ := List.head?_eq_some_iff.1 ha
        exact .error (p.cursor.onCharacter_of_cons hr (by decide))
    · exact .ok _
  · split
    · split
      · next hb => exact .error ((p.cursor.advance 1).atGap hb)
      · next hb =>
          exact readValue_faults (p := { p with cursor := p.cursor.advance 1 }) hd
            (Bool.eq_false_iff.2 hb)
    · exact spacedValue_faults hd d.label p

theorem Checked.longOption_faults (hg : g.Checked) (hp : p.cursor.atBoundary = false) :
    FaultsAre (Placed g special p.cursor.text) (g.longOption special p) := by
  have hstart := p.cursor.onCharacter hp
  simp only [longOption]
  cases hm : g.matchLong (p.cursor.advance doubleDash.length).rest with
  | none => exact .error hstart
  | some found =>
      obtain ⟨d, long⟩ := found
      have hd := (mem_switches.1 (hg.matchLong_eq_some_iff.1 hm).1).1
      exact (checkFresh_faults hstart).bind fun _ _ => longValue_faults hd
        { p with cursor := (p.cursor.advance doubleDash.length).advance long.length }

/-- Merged short options point at the one at fault, or at the dash in front of the first. -/
theorem Checked.shortOptions_faults (hg : g.Checked) {start : Nat}
    (hstart : OnCharacter p.cursor.text start) (hp : p.cursor.atBoundary = false) :
    FaultsAre (Placed g special p.cursor.text) (g.shortOptions special start p) := by
  generalize hs : p.cursor.rest = s
  induction s generalizing p with
  | nil =>
      rw [Cursor.atBoundary, hs] at hp
      contradiction
  | cons c r ih =>
      have hplace : OnCharacter p.cursor.text p.cursor.offset := p.cursor.onCharacter hp
      rw [shortOptions_cons hs]
      cases hc : g.findShort c with
      | none => exact .error hplace
      | some d =>
          have hd := (mem_switches.1 (hg.findShort_eq_some_iff.1 hc).1).1
          have hfresh : FaultsAre (Placed g special p.cursor.text) (checkFresh p d
              (if p.cursor.offset = start + 1 then start else p.cursor.offset)) := by
            refine checkFresh_faults ?_
            split
            · exact hstart
            · exact hplace
          let q : Progress := { p with cursor := p.cursor.advance 1 }
          simp only
          split
          · next e he => exact .error (hfresh e he)
          · split
            · split
              · exact .ok _
              · next hb =>
                  exact ih (p := setFlag q d) hstart (Bool.eq_false_iff.2 hb)
                    (Cursor.rest_advance_one hs)
            · split
              · exact spacedValue_faults hd _ q
              · next hb => exact readValue_faults (p := q) hd (Bool.eq_false_iff.2 hb)

/-! ## items -/

theorem positional_faults (hp : p.cursor.atBoundary = false) :
    FaultsAre (Placed g special p.cursor.text) (g.positional special p) := by
  simp only [positional]
  cases hd : g.positionals[p.filled]? with
  | none => exact .error (p.cursor.onCharacter hp)
  | some d =>
      exact readValue_faults (p := { p with filled := p.filled + 1 })
        (mem_positionals.1 (List.mem_of_getElem? hd)).1 hp

theorem Checked.item_faults (hg : g.Checked) (hp : p.cursor.atBoundary = false) :
    FaultsAre (Placed g special p.cursor.text) (g.item special p) := by
  have hpositional : FaultsAre (Placed g special p.cursor.text) (g.positional special p) :=
    positional_faults hp
  obtain ⟨c, r, hs, -⟩ := Text.atBoundary_eq_false_iff.1 hp
  simp only [item, hs]
  split
  · split
    · exact .ok _
    · split
      · exact hg.longOption_faults hp
      · split
        · next hshort =>
            refine hg.shortOptions_faults (p := { p with cursor := p.cursor.advance 1 })
              (p.cursor.onCharacter hp) ?_
            rw [Cursor.atBoundary, Cursor.rest_advance_one hs]
            cases r with
            | nil => contradiction
            | cons a r => simpa using (Bool.and_eq_true_iff.1 hshort).1
        · exact hpositional
  · exact hpositional

/-- **The fault of an item is where it belongs.** -/
theorem Checked.items_faults (hg : g.Checked) (p : Progress) :
    FaultsAre (Placed g special p.cursor.text) (g.items special p) := by
  induction p using hg.items_induction special with
  | blank p hs =>
      rw [items_of_blank hs]
      exact .ok _
  | item p c r hs ih =>
      have hstart : p.cursor.skipBlanks.atBoundary = false := by
        rw [Cursor.atBoundary, Cursor.rest_skipBlanks, hs]
        exact Text.isBlank_of_skipBlanks_eq_cons hs
      rw [hg.items_of_item hs]
      refine (hg.item_faults (p := { p with cursor := p.cursor.skipBlanks }) hstart).bind
        fun q hq => ?_
      have hnext := ih q hq
      rwa [(hg.item_advances hs hq).1] at hnext

/-! ## missing parameters -/

/-- What is made of a result has no fault of its own. -/
theorem eq_error_of_bind_pure {α β : Type} {x : Except ParseError α} {f : α → β} {e : ParseError}
    (h : (x >>= fun a => pure (f a)) = .error e) : x = .error e := by
  cases x with
  | error e' => exact congrArg _ (Except.error.inj h)
  | ok a => contradiction

/-- Settling fails for the first required parameter without a value. -/
theorem exists_of_settle_eq_error {offset : Nat} {ds : List Descriptor}
    {noted : Descriptor → Option TypedValue} {e : ParseError}
    (hds : ∀ d ∈ ds, d.fallback.isSome = !d.required)
    (h : settle special offset ds (ds.map noted) = .error e) :
    ∃ before d behind, ds = before ++ d :: behind ∧ d.required = true ∧ noted d = none ∧
      (∀ b ∈ before, b.required = true → (noted b).isSome = true) ∧
      e = .missingRequired d.label offset := by
  rw [settle_eq_find? hds] at h
  cases hfind : ds.find? fun d => d.required && (noted d).isNone with
  | none =>
      rw [hfind] at h
      contradiction
  | some d =>
      rw [hfind] at h
      obtain ⟨hd, before, behind, rfl, hbefore⟩ := List.find?_eq_some_iff_append.1 hfind
      rw [Bool.and_eq_true, Option.isNone_iff_eq_none] at hd
      refine ⟨before, d, behind, rfl, hd.1, hd.2, fun b hb hr => ?_, (Except.error.inj h).symm⟩
      simpa [hr] using hbefore b hb

/-- **The missing parameter is the first one.** -/
theorem Checked.finish_faults (hg : g.Checked) {text : List Char} {is : List Item}
    (hline : Line g special true is text) (h : Orderly g is) :
    FaultsAre (Placed g special text)
      (g.finish special (behindItems (g.begin text) is)) := by
  intro e he
  have hsettle : settle special (behindItems (g.begin text) is).cursor.offset g.parameters
      (g.parameters.map fun d => ((is.flatMap Item.supplies).find?
        (·.parameter.index = d.index)).map fun o => ⟨d.type, o.value⟩) = .error e := by
    rw [← h.note_eq hg]
    exact eq_error_of_bind_pure he
  obtain ⟨before, d, behind, hsplit, hr, hnone, hbefore, rfl⟩ :=
    exists_of_settle_eq_error hg.fallback hsettle
  have hsupplied : ∀ e ∈ g.parameters, (((is.flatMap Item.supplies).find?
      (·.parameter.index = e.index)).map fun o => (⟨e.type, o.value⟩ : TypedValue)).isSome = true ↔
      SuppliedBy is e := fun e he => by
    rw [Option.isSome_map, h.isSome_find?_iff hg he]
    rfl
  have hmem : ∀ e ∈ before ++ d :: behind, e ∈ g.parameters := fun e he => hsplit ▸ he
  refine ⟨rfl, is, before, d, behind, hline, h, hsplit, rfl, hr, fun hd => ?_, fun e he hreq => ?_⟩
  · have := (hsupplied d (hmem d (by simp))).2 hd
    rw [hnone] at this
    contradiction
  · exact (hsupplied e (hmem e (by simp [he]))).1 (hbefore e he hreq)

/-- The fault of a line is where it belongs. -/
theorem Checked.parse_placed (hg : g.Checked) (special : SpecialSet) (text : List Char) :
    FaultsAre (Placed g special text) (g.parse special text) := by
  refine FaultsAre.bind (x := g.items special (g.begin text)) (f := g.finish special)
    (hg.items_faults (g.begin text)) fun p hp => ?_
  obtain ⟨is, hline, horderly, rfl⟩ := hg.line_of_items (noted_begin g text) hp
  rw [begin, Cursor.rest_start] at hline
  exact hg.finish_faults hline horderly

/-- **The offset of a fault points at what is wrong.**  For every grammar and every line that it
rejects, the offset lies in the line or at its end, and what stands there is what `Placed` says for
the kind of the fault.  The caret below the line stands below the character at the offset.  Parsers
from outside keep the contract of `CustomParser`. -/
theorem parse_faults {ps : List Parameter} {r : Registry} (hps : ∀ p ∈ ps, p.Declared)
    (hb : (build ps r).1 = .ok g) (special : SpecialSet) {text : List Char} {e : ParseError}
    (h : g.parse special text = .error e) :
    e.offset ≤ text.length ∧ Placed g special text e ∧
      e.context text = String.ofList (text ++ '\n' :: List.replicate e.offset ' ' ++ ['^']) := by
  have hplaced := (checked_of_build hps hb).parse_placed special text e h
  have hle := hplaced.offset_le
  refine ⟨hle, hplaced, ?_⟩
  rw [ParseError.context, ParseError.caretUnder, Nat.min_eq_left hle]

/-- An unknown option behind a blank, and a blank in place of a word. -/
theorem parse_faults_wordAndFlag :
    (∀ p ∈ wordAndFlag, p.Declared) ∧
    (build wordAndFlag (.empty fun _ _ => none)).1 = .ok ⟨[word, flag]⟩ ∧
    parse ⟨[word, flag]⟩ .builtIn [' ', '-', '-', 'x'] = .error (.unknownOption "--x" 1) ∧
    OnCharacter [' ', '-', '-', 'x'] 1 ∧
    (ParseError.unknownOption "--x" 1).context [' ', '-', '-', 'x'] = " --x\n ^" ∧
    parse ⟨[word, flag]⟩ .builtIn [' '] = .error (.missingRequired "word" 1) ∧
    FirstMissing ⟨[word, flag]⟩ .builtIn [' '] "word" := by
  have hunknown : parse ⟨[word, flag]⟩ .builtIn [' ', '-', '-', 'x'] =
      .error (.unknownOption "--x" 1) := by
    rw [parse, items]
    rfl
  have hmissing : parse ⟨[word, flag]⟩ .builtIn [' '] = .error (.missingRequired "word" 1) := by
    rw [parse, items]
    rfl
  obtain ⟨-, hcharacter, hcontext⟩ :=
    parse_faults declared_wordAndFlag build_wordAndFlag .builtIn hunknown
  obtain ⟨-, ⟨-, hfirst⟩, -⟩ :=
    parse_faults declared_wordAndFlag build_wordAndFlag .builtIn hmissing
  exact ⟨declared_wordAndFlag, build_wordAndFlag, hunknown, hcharacter, hcontext.trans rfl,
    hmissing, hfirst⟩

end Grammar

end TypedConsole
