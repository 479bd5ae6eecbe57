import TypedConsole.Proofs.Acceptance
import TypedConsole.Catalogue.Parsers

/-!
# TypedConsole.Proofs.Termination

Reading ends, and how soon it does.

The readers of groups, of merged short options and of lines guard their recursion by what remains
of the text.  Here the same three readers are loops without a guard: a pass over the body either
goes round again or ends the loop.  `loops_of_step` bounds the number of passes by a measure that
every further pass makes smaller, and the three loops end with what the guarded readers give.
-/

namespace TypedConsole

/-! ## loops -/

/-- What one pass over the body of a loop does. -/
inductive Pass (σ ρ : Type)
  /-- The loop goes round again from this state. -/
  | again (state : σ)
  /-- The loop ends with this result. -/
  | done (result : ρ)
  /-- No case of the body applies. -/
  | stuck

/-- `Loops body n s r`: from the state `s` the loop goes round `n` times and then ends with `r` in
one more pass. -/
inductive Loops (body : σ → Pass σ ρ) : Nat → σ → ρ → Prop
  | done (h : body s = .done r) : Loops body 0 s r
  | again (h : body s = .again s') (rest : Loops body n s' r) : Loops body (n + 1) s r

/-- A loop ends in one way. -/
theorem Loops.unique {body : σ → Pass σ ρ} {m n : Nat} {s : σ} {r r' : ρ} (h : Loops body m s r)
    (h' : Loops body n s r') : m = n ∧ r = r' := by
  induction h generalizing n with
  | done hs =>
      cases h' with
      | done hs' =>
          rw [hs] at hs'
          exact ⟨rfl, Pass.done.inj hs'⟩
      | again hs' =>
          rw [hs] at hs'
          contradiction
  | again hs _ ih =>
      cases h' with
      | done hs' =>
          rw [hs] at hs'
          contradiction
      | again hs' rest =>
          rw [hs] at hs'
          obtain rfl := Pass.again.inj hs'
          obtain ⟨rfl, rfl⟩ := ih rest
          exact ⟨rfl, rfl⟩

section Bounds

variable {body : σ → Pass σ ρ} {measure : σ → Nat} {result : σ → ρ}

/-- A loop ends if every pass that goes round again makes a measure smaller and keeps the result
that is in view. -/
theorem loops_of_step {inv : σ → Prop}
    (step : ∀ s, inv s → body s = .done (result s) ∨
      ∃ s', body s = .again s' ∧ inv s' ∧ measure s' < measure s ∧ result s' = result s)
    (s : σ) (hs : inv s) : ∃ n ≤ measure s, Loops body n s (result s) := by
  induction hm : measure s using Nat.strongRecOn generalizing s with
  | ind m ih =>
    rcases step s hs with hdone | ⟨s', hagain, hs', hlt, hresult⟩
    · exact ⟨0, Nat.zero_le _, .done hdone⟩
    · obtain ⟨n, hn, hloops⟩ := ih (measure s') (hm ▸ hlt) s' hs' rfl
      exact ⟨n + 1, by omega, .again hagain (hresult ▸ hloops)⟩

/-- The same of a loop that needs no invariant. -/
theorem loops_of_measure
    (step : ∀ s, body s = .done (result s) ∨
      ∃ s', body s = .again s' ∧ measure s' < measure s ∧ result s' = result s)
    (s : σ) : ∃ n ≤ measure s, Loops body n s (result s) := by
  have hstep : ∀ s, True → body s = .done (result s) ∨
      ∃ s', body s = .again s' ∧ True ∧ measure s' < measure s ∧ result s' = result s := by
    intro s _
    rcases step s with hdone | ⟨s', hagain, hlt, hresult⟩
    · exact .inl hdone
    · exact .inr ⟨s', hagain, trivial, hlt, hresult⟩
  exact loops_of_step hstep s trivial

end Bounds

/-! ## cursors -/

/-- A reader moves a cursor over its text: forwards, not past the end, and by at least one
character if it succeeds in front of a character other than a blank. -/
structure Advances (r : Reader α) (c : Cursor) : Prop where
  text : (c.read r).2.text = c.text
  /-- What remains is what the reader leaves. -/
  rest : (c.read r).2.rest = (r c.rest).2
  suffix : (c.read r).2.rest <:+ c.rest
  forwards : c.offset ≤ (c.read r).2.offset
  within : (c.read r).2.offset ≤ c.text.length
  progress : (c.read r).1.isSome = true → c.atBoundary = false → c.offset < (c.read r).2.offset

/-- Readers that claim from the front and make progress move cursors as they should. -/
theorem advances_of_claims {r : Reader α} (hclaims : r.Claims) (hprogresses : r.Progresses)
    (c : Cursor) : Advances r c := by
  have hrest : (c.read r).2.rest = (r c.rest).2 := Cursor.rest_leaving (hclaims c.rest)
  have hsuffix : (c.read r).2.rest <:+ c.rest := hrest ▸ hclaims c.rest
  have htext : (c.read r).2.text = c.text := rfl
  have hoffset := c.offset_add_length_rest
  have hoffset' := (c.read r).2.offset_add_length_rest
  rw [htext] at hoffset'
  refine ⟨htext, hrest, hsuffix, ?_, by omega, fun hsome hstart => ?_⟩
  · have := hsuffix.length_le
    omega
  · obtain ⟨a, s, hs, ha⟩ := Text.atBoundary_eq_false_iff.1 hstart
    obtain ⟨v, hv⟩ := Option.isSome_iff_exists.1 hsome
    rw [hs] at hrest hoffset
    have hread : r (a :: s) = (some v, (r (a :: s)).2) := Prod.ext (hs ▸ hv) rfl
    have hlt := hprogresses a s v _ ha hread
    rw [← hrest] at hlt
    omega

/-! ## groups -/

namespace Reader

/-- Where the loop over the elements of a group stands. -/
structure GroupState (α : Type) where
  /-- The elements read so far. -/
  read : List α
  /-- A separator has just been read. -/
  separated : Bool
  rest : List Char

/-- One pass over the body of the loop: an element and the separator behind it, or the end of the
group. -/
def groupPass (closing separator : Char) (element : Nat → Reader α) (g : GroupState α) :
    Pass (GroupState α) (Option (List α) × List Char) :=
  match Text.skipBlanks g.rest with
  | [] => .done (none, [])
  | c :: r =>
    if c = closing then .done (if g.separated then (none, c :: r) else (some g.read, r))
    else if c = separator then .done (none, c :: r)
    else
      match element g.read.length (c :: r) with
      | (none, t) => .done (none, t)
      | (some a, t) =>
        match Text.skipBlanks t with
        | [] => .again ⟨g.read ++ [a], false, []⟩
        | d :: u =>
          if d = separator then .again ⟨g.read ++ [a], true, u⟩
          else .again ⟨g.read ++ [a], false, d :: u⟩

/-- The result in view: the elements read so far and those to come. -/
def groupResult (closing separator : Char) (element : Nat → Reader α) (g : GroupState α) :
    Option (List α) × List Char :=
  let (as, t) := elements closing separator element g.read.length g.separated g.rest
  (as.map (g.read ++ ·), t)

variable {closing separator : Char} {element : Nat → Reader α}

/-- A pass ends the group, or leaves less of it to read. -/
theorem groupPass_step (hp : ∀ i, (element i).Progresses) (g : GroupState α) :
    groupPass closing separator element g = .done (groupResult closing separator element g) ∨
      ∃ g', groupPass closing separator element g = .again g' ∧
        g'.rest.length < g.rest.length ∧
        groupResult closing separator element g' = groupResult closing separator element g := by
  obtain ⟨as, b, s⟩ := g
  have hskip := Text.length_skipBlanks_le s
  simp only [groupPass, groupResult]
  cases hs : Text.skipBlanks s with
  | nil =>
      rw [elements_of_nil hs]
      exact .inl rfl
  | cons c r =>
      rw [hs] at hskip
      by_cases hclose : c = closing
      · subst hclose
        rw [elements_of_closing hs]
        cases b <;> simp
      by_cases hsep : c = separator
      · subst hsep
        rw [elements_of_separator hs hclose]
        simp [hclose]
      simp only [if_neg hclose, if_neg hsep]
      cases he : element as.length (c :: r) with
      | mk v t =>
          cases v with
          | none =>
              rw [elements_of_failure hs hclose hsep he]
              exact .inl rfl
          | some a =>
              have hlt := hp _ c r a t (Text.isBlank_of_skipBlanks_eq_cons hs) he
              have hskip' := Text.length_skipBlanks_le t
              have hless : t.length < s.length := Nat.lt_of_lt_of_le hlt hskip
              rw [elements_of_element hs hclose hsep he hlt]
              right
              cases ht : Text.skipBlanks t with
              | nil =>
                  refine ⟨⟨as ++ [a], false, []⟩, by simp [ht], Nat.zero_lt_of_lt hless, ?_⟩
                  rw [elements_of_nil rfl]
                  rfl
              | cons d u =>
                  rw [ht, List.length_cons] at hskip'
                  by_cases hd : d = separator
                  · refine ⟨⟨as ++ [a], true, u⟩, by simp [ht, hd], by dsimp only; omega, ?_⟩
                    simp [hd, Function.comp_def]
                  · refine ⟨⟨as ++ [a], false, d :: u⟩, by simp [ht, hd], ?_, ?_⟩
                    · exact Nat.lt_of_le_of_lt hskip' hless
                    · simp [hd, Function.comp_def]

/-- **A group is read in as many passes as it has characters at most**, counting the last pass. -/
theorem loops_group (hp : ∀ i, (element i).Progresses) {groupings : Groupings}
    {grouping : Grouping} {c : Char} (hc : groupings.openedBy c = some grouping) (s : List Char) :
    ∃ n < (c :: s).length, Loops (groupPass grouping.closing separator element) n ⟨[], false, s⟩
      (group groupings separator element (c :: s)) := by
  obtain ⟨n, hn, hloops⟩ := loops_of_measure (groupPass_step hp) ⟨[], false, s⟩
  refine ⟨n, Nat.lt_succ_of_le hn, ?_⟩
  simpa [groupResult, group_cons, hc] using hloops

end Reader

/-- The groups that a parser reads: what encloses and separates their elements, and the reader of
each element. -/
inductive Parser.Groups (special : SpecialSet) :
    Parser → Groupings → Char → (Nat → Reader Value) → Prop
  | sequence (p : Parser) (g : Groupings) (name : String) (collect : List Value → Option Value) :
      Groups special (.sequence p g name collect) g memberSeparator fun _ => p.read special
  | map (p : Parser) (name : String) (bind : Binder) :
      Groups special (.map p name bind) .braces memberSeparator fun _ => p.read special
  | record (slots : List (Slot Parser)) (form : RecordForm) :
      Groups special (.record slots form) form.groupings form.separator
        (Parser.slotReader special slots)

/-- The elements of a group are read by parsers. -/
theorem Parser.Groups.progresses {special : SpecialSet} {p : Parser} {g : Groupings}
    {separator : Char} {element : Nat → Reader Value} (h : p.Groups special g separator element)
    (i : Nat) : (element i).Progresses := by
  cases h with
  | sequence p => exact p.progresses_read special
  | map p => exact p.progresses_read special
  | record slots => exact Parser.progresses_slotReader special slots i

/-! ## merged short options -/

namespace Grammar

variable {g : Grammar} {special : SpecialSet} {p : Progress}

/-- One pass over the body of the loop: a short name. Those of flags go round again unless a
boundary follows. -/
def shortPass (g : Grammar) (special : SpecialSet) (start : Nat) (p : Progress) :
    Pass Progress (Except ParseError Progress) :=
  match p.cursor.rest with
  | [] => .stuck
  | c :: _ =>
    let offset := p.cursor.offset
    let option := String.ofList [dash, c]
    match g.findShort c with
    | none => .done (.error (.unknownOption option offset))
    | some d =>
      match checkFresh p d (if offset = start + 1 then start else offset) with
      | .error e => .done (.error e)
      | .ok () =>
        let p' := { p with cursor := p.cursor.advance 1 }
        match d.kind with
        | .flag =>
          if p'.cursor.atBoundary then .done (.ok (setFlag p' d)) else .again (setFlag p' d)
        | .switch =>
          if p'.cursor.atBoundary then .done (expectValue option p' >>= readValue special d)
          else .done (readValue special d p')
        | .positional => .stuck

/-- A pass ends the short options, or claims a short name and leaves others. -/
theorem shortPass_step {start : Nat} (hp : p.cursor.rest ≠ []) :
    shortPass g special start p = .done (g.shortOptions special start p) ∨
      ∃ p', shortPass g special start p = .again p' ∧ p'.cursor.rest ≠ [] ∧
        p'.cursor.remaining - 1 < p.cursor.remaining - 1 ∧
        g.shortOptions special start p' = g.shortOptions special start p := by
  obtain ⟨c, r, hs⟩ := List.exists_cons_of_ne_nil hp
  have hremaining : p.cursor.remaining = r.length + 1 := by rw [← Cursor.length_rest, hs]; rfl
  simp only [shortPass, shortOptions_cons hs, hs]
  cases hd : g.findShort c with
  | none => exact .inl rfl
  | some d =>
      have hne := (mem_switches.1 (List.mem_of_find?_eq_some hd)).2
      simp only
      cases checkFresh p d (if p.cursor.offset = start + 1 then start else p.cursor.offset) with
      | error e => exact .inl rfl
      | ok u =>
          cases hk : d.kind with
          | positional => exact absurd hk hne
          | switch =>
              left
              simp only [reduceCtorEq, if_false]
              exact (apply_ite Pass.done _ _ _).symm
          | flag =>
              have hrest := Cursor.rest_advance_one hs
              simp only [if_true, Cursor.atBoundary, hrest]
              cases r with
              | nil => exact .inl rfl
              | cons a r =>
                  cases hb : Text.atBoundary (a :: r) with
                  | true => exact .inl rfl
                  | false =>
                      refine .inr ⟨_, rfl, ?_, ?_, rfl⟩
                      · show (p.cursor.advance 1).rest ≠ []
                        rw [hrest]
                        exact List.cons_ne_nil a r
                      · show (p.cursor.advance 1).remaining - 1 < _
                        rw [Cursor.remaining_advance, hremaining, List.length_cons]
                        omega

/-- **Merged short options are read in as many passes as there are characters at most.** -/
theorem loops_shortOptions (g : Grammar) (special : SpecialSet) (start : Nat)
    (hp : p.cursor.rest ≠ []) :
    ∃ n < p.cursor.remaining,
      Loops (g.shortPass special start) n p (g.shortOptions special start p) := by
  have hpos : 0 < p.cursor.remaining := by
    rw [← Cursor.length_rest]
    exact List.length_pos_iff.2 hp
  obtain ⟨n, hn, hloops⟩ := loops_of_step (fun _ => shortPass_step) p hp
  exact ⟨n, by omega, hloops⟩

/-! ## lines -/

/-- One pass over the body of the loop: the blanks in front of an item, and the item. -/
def itemPass (g : Grammar) (special : SpecialSet) (p : Progress) :
    Pass Progress (Except ParseError Progress) :=
  let p := { p with cursor := p.cursor.skipBlanks }
  if p.cursor.atEnd then .done (.ok p)
  else
    match g.item special p with
    | .error e => .done (.error e)
    | .ok p' => .again p'

/-- A pass ends the line, or leaves less of it. -/
theorem Checked.itemPass_step (hg : g.Checked) (special : SpecialSet) (p : Progress) :
    itemPass g special p = .done (g.items special p) ∨
      ∃ p', itemPass g special p = .again p' ∧ p'.cursor.remaining < p.cursor.remaining ∧
        g.items special p' = g.items special p := by
  have hrest := p.cursor.rest_skipBlanks
  cases hs : Text.skipBlanks p.cursor.rest with
  | nil =>
      have hend : p.cursor.skipBlanks.atEnd = true := by rw [Cursor.atEnd_iff, hrest, hs]
      left
      rw [items_of_blank hs]
      simp only [itemPass, hend, if_true]
      rw [Cursor.skipBlanks, hs]
  | cons c r =>
      rw [hs] at hrest
      have hend : p.cursor.skipBlanks.atEnd = false := by
        rw [Bool.eq_false_iff, ne_eq, Cursor.atEnd_iff, hrest]
        exact List.cons_ne_nil c r
      rw [hg.items_of_item hs]
      simp only [itemPass, hend, Bool.false_eq_true, if_false]
      cases hitem : g.item special { p with cursor := p.cursor.skipBlanks } with
      | error e => exact .inl rfl
      | ok p' =>
          refine .inr ⟨p', rfl, ?_, rfl⟩
          have hlt := (hg.item_advances hs hitem).2
          rw [hrest, ← hs] at hlt
          rw [← Cursor.length_rest, ← Cursor.length_rest]
          exact hlt.trans_le (Text.length_skipBlanks_le _)

/-- The characters that the last pass needs: it ends well at the end of the line, and fails in
front of an item. -/
def lastItem : Except ParseError Progress → Nat
  | .ok _ => 0
  | .error _ => 1

/-- An item that is not read stands somewhere. -/
theorem lastItem_items_le (g : Grammar) (special : SpecialSet) (p : Progress) :
    lastItem (g.items special p) ≤ p.cursor.remaining := by
  by_cases hrest : p.cursor.rest = []
  · rw [items_of_blank (by rw [hrest]; rfl), lastItem]
    exact Nat.zero_le _
  · have hpos : 0 < p.cursor.remaining := by
      rw [← Cursor.length_rest]
      exact List.length_pos_iff.2 hrest
    cases g.items special p with
    | ok => exact Nat.zero_le _
    | error => exact hpos

/-- **A line is read in as many items as it has characters at most**, counting one that is not
read. -/
theorem Checked.loops_items (hg : g.Checked) (special : SpecialSet) (p : Progress) :
    ∃ n, n + lastItem (g.items special p) ≤ p.cursor.remaining ∧
      Loops (g.itemPass special) n p (g.items special p) := by
  have hstep : ∀ p, itemPass g special p = .done (g.items special p) ∨
      ∃ p', itemPass g special p = .again p' ∧
        p'.cursor.remaining - lastItem (g.items special p') <
          p.cursor.remaining - lastItem (g.items special p) ∧
        g.items special p' = g.items special p := by
    intro p
    rcases hg.itemPass_step special p with hdone | ⟨p', hagain, hlt, hresult⟩
    · exact .inl hdone
    · have hle := lastItem_items_le g special p'
      rw [hresult] at hle
      refine .inr ⟨p', hagain, ?_, hresult⟩
      rw [hresult]
      omega
  obtain ⟨n, hn, hloops⟩ := loops_of_measure hstep p
  have hle := lastItem_items_le g special p
  exact ⟨n, by omega, hloops⟩

/-- What becomes of a line whose items have been read. -/
def finish (g : Grammar) (special : SpecialSet) (p : Progress) : Except ParseError Arguments := do
  let values ← settle special p.cursor.offset g.parameters p.supplied
  pure ⟨values.map some⟩

end Grammar

/-! ## all together -/

/-- **Reading makes progress and ends.**  Every parser moves every cursor as `Advances` says,
whatever it is composed of; a parser supplied from outside, such as those of the catalogue, brings
the proof that its own reader does.

The loops over the elements of a group, over merged short options and over the items of a line,
none of which looks at what remains, end after as many passes as there are characters at most, not
counting the pass that finds the end of a line but counting one that fails; and what a grammar makes
of a line is what the loop over its items ends with. -/
theorem progress_and_termination (special : SpecialSet) :
    (∀ (p : Parser) (c : Cursor), Advances (p.read special) c) ∧
    (∀ (p : Parser) (groupings : Groupings) (separator : Char) (element : Nat → Reader Value),
      p.Groups special groupings separator element →
      ∀ (c : Char) (s : List Char) (grouping : Grouping), groupings.openedBy c = some grouping →
      ∃ n < (c :: s).length,
        Loops (Reader.groupPass grouping.closing separator element) n ⟨[], false, s⟩
          (Reader.group groupings separator element (c :: s))) ∧
    (∀ (ps : List Parameter) (r : Registry) (g : Grammar), (∀ p ∈ ps, p.Declared) →
      (Grammar.build ps r).1 = .ok g →
      (∀ (start : Nat) (p : Progress), g.startsShortOption p.cursor.rest = true →
        ∃ n < p.cursor.remaining,
          Loops (g.shortPass special start) n p (g.shortOptions special start p)) ∧
      ∀ text : List Char, ∃ n ≤ text.length, ∃ outcome,
        Loops (g.itemPass special) n (g.begin text) outcome ∧
          (∀ e, outcome = .error e → n < text.length) ∧
          g.parse special text = outcome >>= g.finish special) := by
  refine ⟨fun p => ?_, fun p groupings separator element h c s grouping hc => ?_, ?_⟩
  · exact advances_of_claims (p.claims_read special) (p.progresses_read special)
  · exact Reader.loops_group h.progresses hc s
  · intro ps r g hps hb
    refine ⟨fun start p hp => ?_, fun text => ?_⟩
    · exact Grammar.loops_shortOptions g special start fun h => by
        rw [h] at hp
        contradiction
    · obtain ⟨n, hn, hloops⟩ :=
        (Grammar.checked_of_build hps hb).loops_items special (g.begin text)
      have hle : n + Grammar.lastItem (g.items special (g.begin text)) ≤ text.length := hn
      refine ⟨n, by omega, _, hloops, fun e he => ?_, rfl⟩
      rw [he, Grammar.lastItem] at hle
      exact hle

/-- The bounds for a sequence of words in capitals, for a flag and for a line with it. -/
theorem progress_and_termination_small :
    Groupings.openedBy .brackets '[' = some ⟨'[', ']'⟩ ∧
    (∃ n < 3, ∃ outcome, Loops (Reader.groupPass ']' ',' fun _ => Catalogue.readShout) n
      ⟨[], false, ['a', ']']⟩ outcome) ∧
    (∀ p ∈ Grammar.wordAndFlag, p.Declared) ∧
    (Grammar.build Grammar.wordAndFlag (.empty fun _ _ => none)).1 =
      .ok ⟨[Grammar.word, Grammar.flag]⟩ ∧
    Grammar.startsShortOption ⟨[Grammar.word, Grammar.flag]⟩ ['v'] = true ∧
    (∃ n < 1, ∃ outcome, Loops (Grammar.shortPass ⟨[Grammar.word, Grammar.flag]⟩ .builtIn 0) n
      (Grammar.begin ⟨[Grammar.word, Grammar.flag]⟩ ['v']) outcome) ∧
    ∃ n ≤ 4, ∃ outcome, Loops (Grammar.itemPass ⟨[Grammar.word, Grammar.flag]⟩ .builtIn) n
      (Grammar.begin ⟨[Grammar.word, Grammar.flag]⟩ ['-', 'v', ' ', 'a']) outcome := by
  obtain ⟨-, hgroups, hgrammars⟩ := progress_and_termination .builtIn
  obtain ⟨hshort, hitems⟩ := hgrammars _ _ _ Grammar.declared_wordAndFlag Grammar.build_wordAndFlag
  have hgroup := hgroups _ _ _ _
    (.sequence (.custom Catalogue.shout) .brackets "Vec" SequenceKind.vector.collect)
    '[' ['a', ']'] ⟨'[', ']'⟩ (by decide)
  have hstart : Grammar.startsShortOption ⟨[Grammar.word, Grammar.flag]⟩ ['v'] = true := by decide
  refine ⟨by decide, ?_, Grammar.declared_wordAndFlag, Grammar.build_wordAndFlag, hstart, ?_, ?_⟩
  · obtain ⟨n, hn, hloops⟩ := hgroup
    exact ⟨n, hn, _, hloops⟩
  · obtain ⟨n, hn, hloops⟩ := hshort 0 (Grammar.begin ⟨[Grammar.word, Grammar.flag]⟩ ['v']) hstart
    exact ⟨n, hn, _, hloops⟩
  · obtain ⟨n, hn, outcome, hloops, -, -⟩ := hitems ['-', 'v', ' ', 'a']
    exact ⟨n, hn, outcome, hloops⟩

end TypedConsole
