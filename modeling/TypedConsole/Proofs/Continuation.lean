import TypedConsole.Proofs.Alike
import TypedConsole.Proofs.Lookahead

/-!
# TypedConsole.Proofs.Continuation

What more text behind a line changes.  A fault is definite if it lies in what has been typed, and
not in what is still to come: behind a blank any text may follow, and the fault stays what it is.

`Stays` says of a step in a line, and of the same step in the longer line, that the second one
gives the same result, with more text left, or the same fault; only a fault that is not definite
leaves the second one open.  There is one lemma for each step of the reading, in the order in which
the steps are defined, and `Checked.items_extend` carries them through the line.
-/

namespace TypedConsole

/-- The fault lies in what has been typed. -/
def ParseError.Definite : ParseError → Prop
  | unexpectedArgument _ | duplicateParameter _ _ | unknownOption _ _ | elementCount _ _ _
  | malformedOption _ .takesNoValue _ => True
  | missingRequired _ _ | invalidValue _ _ | malformedOption _ .needsValue _
  | malformedOption _ (.other _) _ => False

/-! ## places in a longer text -/

namespace Text

variable {z : List Char}

theorem atBoundary_append (hz : atBoundary z = true) (s : List Char) :
    atBoundary (s ++ z) = atBoundary s := by
  cases s with
  | nil => exact hz
  | cons c s => rfl

/-- Where something else than blanks comes, the same comes in a longer text. -/
theorem skipBlanks_append_of_eq_cons {s r : List Char} {c : Char} (h : skipBlanks s = c :: r)
    (z : List Char) : skipBlanks (s ++ z) = c :: r ++ z := by
  obtain ⟨b, hb, rfl, hc⟩ := skipBlanks_eq_cons_iff.1 h
  rw [List.append_assoc, List.cons_append, skipBlanks_append_cons hb hc]

end Text

namespace Cursor

/-- The same place, with more text at the end. -/
def extend (z : List Char) (c : Cursor) : Cursor :=
  ⟨c.text ++ z, c.offset, c.offset_le.trans (by simp)⟩

variable (z : List Char) {c : Cursor} {a : Char} {r : List Char}

@[simp] theorem rest_extend : (c.extend z).rest = c.rest ++ z :=
  List.drop_append_of_le_length c.offset_le

theorem rest_extend_cons (h : c.rest = a :: r) : (c.extend z).rest = a :: (r ++ z) := by
  rw [rest_extend, h, List.cons_append]

theorem atBoundary_extend {z : List Char} (hz : Text.atBoundary z = true) :
    (c.extend z).atBoundary = c.atBoundary := by
  rw [atBoundary, rest_extend, Text.atBoundary_append hz, atBoundary]

theorem leaving_extend (t : List Char) :
    (c.extend z).leaving (t ++ z) = (c.leaving t).extend z := by
  simp only [leaving, extend, List.length_append, Nat.add_sub_add_right]

theorem advance_extend {k : Nat} (h : k ≤ c.rest.length) :
    (c.extend z).advance k = (c.advance k).extend z := by
  have hlength := c.offset_add_length_rest
  simp only [advance, extend, List.length_append, mk.injEq, true_and]
  omega

theorem advance_one_extend (h : c.rest = a :: r) :
    (c.extend z).advance 1 = (c.advance 1).extend z :=
  advance_extend z (by rw [h, List.length_cons]; omega)

theorem skipBlanks_extend (h : Text.skipBlanks c.rest = a :: r) :
    (c.extend z).skipBlanks = c.skipBlanks.extend z := by
  rw [skipBlanks, rest_extend, Text.skipBlanks_append_of_eq_cons h, leaving_extend, ← h, skipBlanks]

end Cursor

/-- The same progress in a longer line. -/
def Progress.extend (z : List Char) (p : Progress) : Progress :=
  { p with cursor := p.cursor.extend z }

@[simp] theorem Progress.cursor_extend (z : List Char) (p : Progress) :
    (p.extend z).cursor = p.cursor.extend z := rfl

/-! ## outcomes -/

/-- The outcome of a step, and that of the same step in a line with `z` at the end. -/
inductive Stays (z : List Char) : Except ParseError Progress → Except ParseError Progress → Prop
  | ok (p : Progress) : Stays z (.ok p) (.ok (p.extend z))
  | error (e : ParseError) : Stays z (.error e) (.error e)
  /-- More text may make good for a fault that is not definite. -/
  | indefinite (he : ¬e.Definite) (y : Except ParseError Progress) : Stays z (.error e) y

namespace Stays

variable {z : List Char} {x y : Except ParseError Progress} {e : ParseError}

/-- Steps that stay what they are do so one after the other. -/
theorem bind {f : Progress → Except ParseError Progress} (h : Stays z x y)
    (hf : ∀ p, Stays z (f p) (f (p.extend z))) : Stays z (x >>= f) (y >>= f) := by
  cases h with
  | ok p => exact hf p
  | error e => exact .error e
  | indefinite he y => exact .indefinite he _

/-- A step that looks at no text goes on in the same way. -/
theorem bind_same (x : Except ParseError Unit) {f f' : Unit → Except ParseError Progress}
    (hf : Stays z (f ()) (f' ())) : Stays z (x >>= f) (x >>= f') := by
  cases x with
  | error e => exact .error e
  | ok _ => exact hf

theorem eq_ok {p : Progress} (h : Stays z (.ok p) y) : y = .ok (p.extend z) := by
  cases h with
  | ok => rfl

/-- A definite fault stays. -/
theorem eq_error (h : Stays z (.error e) y) (he : e.Definite) : y = .error e := by
  cases h with
  | error => rfl
  | indefinite hne => exact absurd he hne

end Stays

namespace Grammar

variable {g : Grammar} {special : SpecialSet} {d : Descriptor} {p : Progress} {z : List Char}

/-! ## values -/

/-- What a parser reads at the front of a text it reads in front of a blank, too. -/
theorem read_append {q : Parser} (hq : q.Synthesized) (hz : Text.atBoundary z = true) {v : Value}
    {s t : List Char} (h : q.read special s = (some v, t)) :
    q.read special (s ++ z) = (some v, t ++ z) := by
  have hclaims := q.claims_read special s
  rw [h] at hclaims
  obtain ⟨x, rfl⟩ := hclaims
  rw [List.append_assoc]
  refine hq.carries ?_ x v h
  cases t with
  | nil => exact .inr fun c hc => .inl (Text.head?_of_atBoundary hz c hc)
  | cons c t => exact special.replaces_cons c t (t ++ z)

/-- A value that was read, or has too many or too few elements, is what it is. -/
theorem readValue_extend (hd : d.parser.Synthesized) (hz : Text.atBoundary z = true)
    (p : Progress) : Stays z (readValue special d p) (readValue special d (p.extend z)) := by
  obtain ⟨value, t, hr⟩ : ∃ value t, d.parser.read special p.cursor.rest = (value, t) :=
    ⟨_, _, rfl⟩
  rw [readValue_eq special d p]
  simp only [hr]
  cases value with
  | none => exact .indefinite id _
  | some v =>
      rw [readValue_eq special d (p.extend z)]
      simp only [Progress.cursor_extend, Cursor.rest_extend, read_append hd hz hr,
        Cursor.leaving_extend, Text.atBoundary_append hz]
      split
      · split
        · exact .ok _
        · split
          · exact .ok _
          · exact .error _
      · exact .indefinite id _

/-- A value that has been begun is there. -/
theorem expectValue_extend (option : String) (p : Progress) :
    Stays z (expectValue option p) (expectValue option (p.extend z)) := by
  cases hs : Text.skipBlanks p.cursor.rest with
  | nil =>
      have hend : p.cursor.skipBlanks.atEnd = true := by
        rw [Cursor.atEnd_iff, Cursor.rest_skipBlanks, hs]
      rw [expectValue, if_pos hend]
      exact .indefinite id _
  | cons c r =>
      have hskip := Cursor.skipBlanks_extend z hs
      have hend : p.cursor.skipBlanks.atEnd = false := by
        rw [Bool.eq_false_iff, ne_eq, Cursor.atEnd_iff, Cursor.rest_skipBlanks, hs]
        exact List.cons_ne_nil c r
      have hend' : (p.cursor.skipBlanks.extend z).atEnd = false := by
        rw [Bool.eq_false_iff, ne_eq, Cursor.atEnd_iff, Cursor.rest_extend, Cursor.rest_skipBlanks,
          hs]
        exact List.cons_ne_nil c (r ++ z)
      simp only [expectValue, Progress.extend, hskip, hend, hend', Bool.false_eq_true, if_false]
      exact .ok _

/-! ## options -/

theorem longValue_extend (hd : d.parser.Synthesized) (hz : Text.atBoundary z = true)
    (p : Progress) : Stays z (longValue special d p) (longValue special d (p.extend z)) := by
  cases hs : p.cursor.rest with
  | nil =>
      simp only [longValue, hs, Progress.cursor_extend, Cursor.rest_extend, List.nil_append,
        List.head?_nil, reduceCtorEq, if_false, head?_ne_assignment hz]
      split
      · exact .ok _
      · exact (expectValue_extend d.label p).bind (readValue_extend hd hz)
  | cons c r =>
      simp only [longValue, hs, Progress.cursor_extend, Cursor.rest_extend_cons z hs,
        List.head?_cons, Cursor.advance_one_extend z hs, Cursor.atBoundary_extend hz]
      split
      · split
        · exact .error _
        · exact .ok _
      · split
        · split
          · exact .indefinite id _
          · exact readValue_extend hd hz { p with cursor := p.cursor.advance 1 }
        · exact (expectValue_extend d.label p).bind (readValue_extend hd hz)

theorem atNameEnd_append (hz : Text.atBoundary z = true) (s : List Char) :
    atNameEnd (s ++ z) = atNameEnd s := by
  cases s with
  | nil => exact atNameEnd_of_atBoundary hz
  | cons c s => rfl

/-- A text is the name at its front and what follows it. -/
theorem exists_eq_nameAt_append (s : List Char) : ∃ t, s = nameAt s ++ t ∧ atNameEnd t = true := by
  refine ⟨s.dropWhile isNameChar, List.takeWhile_append_dropWhile.symm, atNameEnd_iff.2 ?_⟩
  intro c hc
  have hend := List.head?_dropWhile_not isNameChar s
  rwa [hc] at hend

/-- The name at the front of a text ends before a blank. -/
theorem nameAt_append_of_atBoundary (hz : Text.atBoundary z = true) (s : List Char) :
    nameAt (s ++ z) = nameAt s := by
  obtain ⟨t, hs, hend⟩ := exists_eq_nameAt_append s
  have hname : ∀ c ∈ nameAt s, isNameChar c = true := fun c hc => List.mem_takeWhile_imp hc
  have hsplit : s ++ z = nameAt s ++ (t ++ z) := by rw [← List.append_assoc, ← hs]
  rw [hsplit, nameAt_append hname ((atNameEnd_append hz t).trans hend)]

/-- The long option at the front of a text is found there whatever follows. -/
theorem Checked.matchLong_append (hg : g.Checked) (hz : Text.atBoundary z = true)
    (s : List Char) : g.matchLong (s ++ z) = g.matchLong s := by
  refine Option.ext fun found => ?_
  obtain ⟨d, long⟩ := found
  rw [hg.matchLong_eq_some_iff, hg.matchLong_eq_some_iff]
  refine and_congr_right fun hd => and_congr_right fun hl => ?_
  have hname := hg.isNameChar_long (mem_switches.1 hd).1 hl
  constructor
  · intro h
    obtain ⟨t, ht, hend⟩ := h
    -- the name contains no blank, so it ends with `s` at the latest
    have hnameAt : nameAt s = long.toList := by
      rw [← nameAt_append_of_atBoundary hz, ht, nameAt_append hname hend]
    rw [← hnameAt]
    exact exists_eq_nameAt_append s
  · intro h
    obtain ⟨t, rfl, hend⟩ := h
    exact ⟨t ++ z, List.append_assoc _ _ _, (atNameEnd_append hz t).trans hend⟩

theorem Checked.longOption_extend (hg : g.Checked)
    (hsynth : ∀ d ∈ g.parameters, d.parser.Synthesized) (hz : Text.atBoundary z = true)
    {s : List Char} (hs : p.cursor.rest = doubleDash ++ s) :
    Stays z (g.longOption special p) (g.longOption special (p.extend z)) := by
  have hnamed : (p.cursor.advance doubleDash.length).rest = s := by
    rw [Cursor.rest_advance, hs, List.drop_left]
  have hadvance : (p.cursor.extend z).advance doubleDash.length =
      (p.cursor.advance doubleDash.length).extend z :=
    Cursor.advance_extend z (by rw [hs, List.length_append]; omega)
  simp only [longOption, Progress.cursor_extend, hadvance, Cursor.rest_extend, hnamed,
    hg.matchLong_append hz, nameAt_append_of_atBoundary hz]
  cases hm : g.matchLong s with
  | none => exact .error _
  | some found =>
      obtain ⟨d, long⟩ := found
      obtain ⟨hd, -, t, hst, -⟩ := hg.matchLong_eq_some_iff.1 hm
      have hbehind : ((p.cursor.advance doubleDash.length).extend z).advance long.length =
          ((p.cursor.advance doubleDash.length).advance long.length).extend z :=
        Cursor.advance_extend z (by
          rw [hnamed, hst, List.length_append, String.length_toList]
          omega)
      simp only [hbehind]
      exact .bind_same _ (longValue_extend (hsynth d (mem_switches.1 hd).1) hz
        { p with cursor := (p.cursor.advance doubleDash.length).advance long.length })

theorem Checked.shortOptions_extend (hg : g.Checked)
    (hsynth : ∀ d ∈ g.parameters, d.parser.Synthesized) (hz : Text.atBoundary z = true)
    (start : Nat) (hne : p.cursor.rest ≠ []) :
    Stays z (g.shortOptions special start p) (g.shortOptions special start (p.extend z)) := by
  generalize hs : p.cursor.rest = s at hne
  induction s generalizing p with
  | nil => contradiction
  | cons c r ih =>
      rw [shortOptions_cons hs, shortOptions_cons (p := p.extend z) (Cursor.rest_extend_cons z hs)]
      cases hc : g.findShort c with
      | none => exact .error _
      | some d =>
          have hd := hsynth d (mem_switches.1 (hg.findShort_eq_some_iff.1 hc).1).1
          let q : Progress := { p with cursor := p.cursor.advance 1 }
          have hfresh : checkFresh (p.extend z) d
                (if (p.extend z).cursor.offset = start + 1 then start
                  else (p.extend z).cursor.offset) =
              checkFresh p d (if p.cursor.offset = start + 1 then start else p.cursor.offset) := rfl
          simp only
          rw [hfresh]
          simp only [Progress.cursor_extend, Cursor.advance_one_extend z hs,
            Cursor.atBoundary_extend hz]
          cases checkFresh p d (if p.cursor.offset = start + 1 then start else p.cursor.offset) with
          | error e => exact .error e
          | ok _ =>
              simp only
              split
              · split
                · exact .ok (setFlag q d)
                · next hb =>
                    have hq : (setFlag q d).cursor.rest = r := Cursor.rest_advance_one hs
                    refine ih hq fun hr => hb ?_
                    rw [Cursor.atBoundary, Cursor.rest_advance_one hs, hr]
                    rfl
              · split
                · exact (expectValue_extend _ q).bind (readValue_extend hd hz)
                · exact readValue_extend hd hz q

/-! ## items -/

theorem positional_extend (hsynth : ∀ d ∈ g.parameters, d.parser.Synthesized)
    (hz : Text.atBoundary z = true) (p : Progress) :
    Stays z (g.positional special p) (g.positional special (p.extend z)) := by
  have hfilled : (p.extend z).filled = p.filled := rfl
  simp only [positional, hfilled]
  cases hd : g.positionals[p.filled]? with
  | none => exact .error _
  | some d =>
      have hmem := (mem_positionals.1 (List.mem_of_getElem? hd)).1
      exact readValue_extend (hsynth d hmem) hz { p with filled := p.filled + 1 }

theorem marksEndOfOptions_append (hz : Text.atBoundary z = true) (c : Char) (r : List Char) :
    marksEndOfOptions (c :: (r ++ z)) = marksEndOfOptions (c :: r) := by
  cases r with
  | nil =>
      cases z with
      | nil => rfl
      | cons b z =>
          have hb : b ≠ dash := fun h => by
            rw [h] at hz
            contradiction
          simp [marksEndOfOptions, hb]
  | cons b r => simp [marksEndOfOptions, Text.atBoundary_append hz]

theorem startsShortOption_append (hz : Text.atBoundary z = true) (s : List Char) :
    g.startsShortOption (s ++ z) = g.startsShortOption s := by
  cases s with
  | nil =>
      cases z with
      | nil => rfl
      | cons b z => simp [startsShortOption, Text.atBoundary_cons.symm.trans hz]
  | cons c s => rfl

theorem head?_append_eq_dash_iff (hz : Text.atBoundary z = true) (s : List Char) :
    (s ++ z).head? = some dash ↔ s.head? = some dash := by
  cases s with
  | nil =>
      refine iff_of_false (fun h => ?_) (by simp)
      exact absurd (Text.head?_of_atBoundary hz dash h) (by decide)
  | cons c s => rfl

theorem Checked.item_extend (hg : g.Checked)
    (hsynth : ∀ d ∈ g.parameters, d.parser.Synthesized) (hz : Text.atBoundary z = true)
    (hne : p.cursor.rest ≠ []) :
    Stays z (g.item special p) (g.item special (p.extend z)) := by
  obtain ⟨c, r, hs⟩ := List.exists_cons_of_ne_nil hne
  have hrest : (p.extend z).cursor.rest = c :: (r ++ z) := Cursor.rest_extend_cons z hs
  have henabled : (p.extend z).optionsEnabled = p.optionsEnabled := rfl
  have hoffset : (p.extend z).cursor.offset = p.cursor.offset := rfl
  have hadvance : ∀ k ≤ (c :: r).length,
      (p.extend z).cursor.advance k = (p.cursor.advance k).extend z :=
    fun k hk => Cursor.advance_extend z (hs ▸ hk)
  have hpositional : Stays z (g.positional special p) (g.positional special (p.extend z)) :=
    positional_extend hsynth hz p
  simp only [item, hs, hrest, henabled, hoffset, marksEndOfOptions_append hz,
    startsShortOption_append hz, head?_append_eq_dash_iff hz]
  split
  · split
    · next hmark =>
        obtain ⟨t, ht, -⟩ := marksEndOfOptions_iff.1 hmark
        rw [hadvance doubleDash.length (by rw [ht, List.length_append]; omega)]
        exact .ok { p with cursor := p.cursor.advance doubleDash.length, optionsEnabled := false }
    · next hc _ =>
        obtain rfl : c = dash := by simpa using (Bool.and_eq_true_iff.1 hc).2
        split
        · next hlong =>
            obtain ⟨s, rfl⟩ := List.head?_eq_some_iff.1 hlong
            exact hg.longOption_extend hsynth hz hs
        · split
          · next hshort =>
              rw [hadvance 1 (by rw [List.length_cons]; omega)]
              refine hg.shortOptions_extend hsynth hz _ ?_
              rw [Cursor.rest_advance_one hs]
              exact fun h => by rw [h] at hshort; contradiction
          · exact hpositional
  · exact hpositional

/-! ## lines -/

/-- **A definite fault of an item stays.** -/
theorem Checked.items_extend (hg : g.Checked)
    (hsynth : ∀ d ∈ g.parameters, d.parser.Synthesized) (hz : Text.atBoundary z = true)
    {e : ParseError} (he : e.Definite) (h : g.items special p = .error e) :
    g.items special (p.extend z) = .error e := by
  induction p using hg.items_induction special with
  | blank p hs =>
      rw [items_of_blank hs] at h
      contradiction
  | item p c r hs ih =>
      have hrest : p.cursor.skipBlanks.rest = c :: r := by rw [Cursor.rest_skipBlanks, hs]
      have hlonger : Text.skipBlanks (p.extend z).cursor.rest = c :: (r ++ z) := by
        rw [Progress.cursor_extend, Cursor.rest_extend, Text.skipBlanks_append_of_eq_cons hs,
          List.cons_append]
      have hcursor : (p.extend z).cursor.skipBlanks = p.cursor.skipBlanks.extend z :=
        Cursor.skipBlanks_extend z hs
      let q₀ : Progress := { p with cursor := p.cursor.skipBlanks }
      have hitem : Stays z (g.item special q₀) (g.item special (q₀.extend z)) :=
        hg.item_extend hsynth hz (by rw [hrest]; exact List.cons_ne_nil c r)
      rw [hg.items_of_item hs] at h
      rw [hg.items_of_item hlonger, hcursor]
      cases hq : g.item special { p with cursor := p.cursor.skipBlanks } with
      | error e' =>
          rw [hq] at h hitem
          obtain rfl := Except.error.inj h
          exact congrArg (· >>= g.items special) (hitem.eq_error he)
      | ok q =>
          rw [hq] at h hitem
          exact (congrArg (· >>= g.items special) hitem.eq_ok).trans (ih q hq h)

/-- A missing parameter may still come. -/
theorem not_definite_of_finish {e : ParseError} (h : g.finish special p = .error e) :
    ¬e.Definite := by
  rcases settles_settle special g.parameters p.supplied with ⟨values, hs⟩ | ⟨d, -, hs⟩
  · simp only [finish, hs] at h
    contradiction
  · simp only [finish, hs] at h
    obtain rfl := Except.error.inj h
    exact id

/-- **A definite fault stays whatever is typed behind it.**  If a grammar whose parsers have no
custom parts rejects a line for a fault that is definite, it rejects the line with blanks and any
text behind it for the same fault at the same place. -/
theorem parse_append_of_definite {ps : List Parameter} {r : Registry} (hps : ∀ p ∈ ps, p.Declared)
    (hb : (build ps r).1 = .ok g) (hsynth : ∀ d ∈ g.parameters, d.parser.Synthesized)
    (special : SpecialSet) {text b : List Char} {e : ParseError}
    (h : g.parse special text = .error e) (he : e.Definite) (hblank : Text.Blank b) (hne : b ≠ [])
    (u : List Char) : g.parse special (text ++ b ++ u) = .error e := by
  have hg := checked_of_build hps hb
  have hz : Text.atBoundary (b ++ u) = true := Text.atBoundary_append_of_ne_nil hblank hne
  rw [parse_eq_resume, resume] at h
  cases hitems : g.items special (g.begin text) with
  | ok p =>
      rw [hitems] at h
      exact absurd he (not_definite_of_finish h)
  | error e' =>
      rw [hitems] at h
      obtain rfl := Except.error.inj h
      have hlonger := hg.items_extend hsynth hz he hitems
      have hbegin : (g.begin text).extend (b ++ u) = g.begin (text ++ b ++ u) := by
        simp [Progress.extend, begin, Cursor.extend, Cursor.start]
      rw [hbegin] at hlonger
      rw [parse_eq_resume, resume, hlonger]
      rfl

/-- An unknown option, with a word behind it. -/
theorem parse_unknown_option :
    (∀ p ∈ wordAndFlag, p.Declared) ∧
    (build wordAndFlag (.empty fun _ _ => none)).1 = .ok ⟨[word, flag]⟩ ∧
    (∀ d ∈ [word, flag], d.parser.Synthesized) ∧
    parse ⟨[word, flag]⟩ .builtIn ['-', '-', 'x'] = .error (.unknownOption "--x" 0) ∧
    (ParseError.unknownOption "--x" 0).Definite ∧
    Text.Blank [' '] ∧
    parse ⟨[word, flag]⟩ .builtIn ['-', '-', 'x', ' ', 'a'] = .error (.unknownOption "--x" 0) := by
  have hsynth : ∀ d ∈ [word, flag], d.parser.Synthesized := by
    intro d hd
    rcases List.mem_cons.1 hd with rfl | hd
    · exact .string
    · obtain rfl := List.mem_singleton.1 hd
      exact .bool
  have hblank : Text.Blank [' '] := by simp; decide
  have hparse : parse ⟨[word, flag]⟩ .builtIn ['-', '-', 'x'] =
      .error (.unknownOption "--x" 0) := by
    rw [parse, items]
    rfl
  exact ⟨declared_wordAndFlag, build_wordAndFlag, hsynth, hparse, trivial, hblank,
    parse_append_of_definite declared_wordAndFlag build_wordAndFlag hsynth .builtIn hparse trivial
      hblank (by simp) ['a']⟩

end Grammar

end TypedConsole
