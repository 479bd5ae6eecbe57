import TypedConsole.Proofs.Claims
import TypedConsole.Proofs.Names

/-!
# TypedConsole.Proofs.Items

The steps that items of a line are made of, one lemma for each: when the step succeeds, and where
the reading stands afterwards.  The lemmas hold for every list of parameters, checked or not.
-/

namespace TypedConsole.Grammar

variable {g : Grammar} {special : SpecialSet} {d : Descriptor} {p p' : Progress}

/-! ## values -/

/-- A value is a suffix shorter than the text that it starts. -/
theorem IsValue.suffix {v : Value} {s t : List Char} (h : IsValue special d v s t) : t <:+ s := by
  have hclaims := d.parser.claims_read special s
  rw [h.read] at hclaims
  exact hclaims

theorem IsValue.length_lt {v : Value} {s t : List Char} (h : IsValue special d v s t) :
    t.length < s.length := by
  obtain ⟨c, r, rfl, hc⟩ := Text.atBoundary_eq_false_iff.1 h.starts
  exact d.parser.progresses_read special c r v t hc h.read

theorem checkFresh_eq_ok_iff {offset : Nat} :
    checkFresh p d offset = .ok () ↔ p.supplied[d.index]?.join = none := by
  rw [checkFresh]
  cases p.supplied[d.index]?.join <;> simp

/-- What has been supplied, and `os` after that. -/
def note (supplied : List (Option TypedValue)) (os : List Supply) : List (Option TypedValue) :=
  os.foldl (fun l o => l.set o.parameter.index (some ⟨o.parameter.type, o.value⟩)) supplied

/-- The progress behind options or a value that supply `os`, with `t` left to read. -/
def behind (p : Progress) (os : List Supply) (t : List Char) : Progress :=
  { p with cursor := p.cursor.leaving t, supplied := note p.supplied os }

/-- Reading a value where one can start succeeds exactly with a value of the parameter. -/
theorem readValue_eq_ok_iff (hs : p.cursor.atBoundary = false) :
    readValue special d p = .ok p' ↔
      ∃ v t, IsValue special d v p.cursor.rest t ∧ p' = behind p [⟨d, v⟩] t := by
  obtain ⟨value, t, hr⟩ : ∃ value t, d.parser.read special p.cursor.rest = (value, t) :=
    ⟨_, _, rfl⟩
  have hclaims := d.parser.claims_read special p.cursor.rest
  rw [hr] at hclaims
  have hrest : (p.cursor.leaving t).atBoundary = Text.atBoundary t := by
    rw [Cursor.atBoundary, Cursor.rest_leaving hclaims]
  cases value with
  | none =>
      simp only [readValue, Cursor.read, hr, reduceCtorEq, false_iff]
      intro h
      obtain ⟨v, u, hv, -⟩ := h
      rw [hv.read] at hr
      simp at hr
  | some v =>
      simp only [readValue, Cursor.read, hr, hrest]
      constructor
      · intro h
        cases hb : Text.atBoundary t with
        | false => simp [hb] at h
        | true =>
            simp only [hb, Bool.not_true, Bool.false_eq_true, if_false] at h
            refine ⟨v, t, ⟨hs, hr, hb, fun n hn => ?_⟩, ?_⟩
            · rw [hn] at h
              by_contra hne
              simp [hne] at h
            · split at h
              · exact (Except.ok.inj h).symm
              · split at h
                · exact (Except.ok.inj h).symm
                · contradiction
      · intro h
        obtain ⟨w, u, hv, rfl⟩ := h
        obtain ⟨hw, rfl⟩ := Prod.mk.inj (hr.symm.trans hv.read)
        obtain rfl := Option.some.inj hw
        simp only [hv.ends, Bool.not_true, Bool.false_eq_true, if_false]
        split
        · rfl
        · next n hn =>
            rw [if_pos (hv.permitted n hn)]
            rfl

/-- There is a value behind blanks exactly if something else than blanks is left. -/
theorem expectValue_eq_ok_iff {option : String} :
    expectValue option p = .ok p' ↔
      p.cursor.skipBlanks.atBoundary = false ∧
        p' = { p with cursor := p.cursor.skipBlanks } := by
  have hend : p.cursor.skipBlanks.atEnd = p.cursor.skipBlanks.atBoundary := by
    rw [Cursor.atBoundary, Bool.eq_iff_iff, Cursor.atEnd_iff, Cursor.rest_skipBlanks]
    cases h : Text.skipBlanks p.cursor.rest with
    | nil => simp
    | cons c r => simp [Text.isBlank_of_skipBlanks_eq_cons h]
  simp only [expectValue, hend]
  cases p.cursor.skipBlanks.atBoundary with
  | true => simp
  | false => simp [eq_comm]

/-- A value behind blanks. -/
theorem isValue_skipBlanks_iff {v : Value} {s t : List Char} :
    IsValue special d v (Text.skipBlanks s) t ↔
      ∃ b r, Text.Blank b ∧ s = b ++ r ∧ IsValue special d v r t := by
  constructor
  · intro h
    obtain ⟨a, r, har, -⟩ := Text.atBoundary_eq_false_iff.1 h.starts
    obtain ⟨b, hb, hs, -⟩ := Text.skipBlanks_eq_cons_iff.1 har
    exact ⟨b, a :: r, hb, hs, har ▸ h⟩
  · intro h
    obtain ⟨b, r, hb, rfl, h⟩ := h
    obtain ⟨a, r, rfl, ha⟩ := Text.atBoundary_eq_false_iff.1 h.starts
    rw [Text.skipBlanks_append_cons hb ha]
    exact h

/-- A value behind blanks is read from where they end. -/
theorem spacedValue_eq_ok_iff {option : String} :
    (expectValue option p >>= readValue special d) = .ok p' ↔
      ∃ v t, IsValue special d v (Text.skipBlanks p.cursor.rest) t ∧
        p' = behind p [⟨d, v⟩] t := by
  let q : Progress := { p with cursor := p.cursor.skipBlanks }
  have hvalue : q.cursor.atBoundary = false → (readValue special d q = .ok p' ↔
      ∃ v t, IsValue special d v (Text.skipBlanks p.cursor.rest) t ∧
        p' = behind p [⟨d, v⟩] t) := fun hb => by
    rw [readValue_eq_ok_iff hb, Cursor.rest_skipBlanks]
    rfl
  simp only [bind_eq_ok_iff, expectValue_eq_ok_iff]
  constructor
  · intro h
    obtain ⟨_, ⟨hb, rfl⟩, h⟩ := h
    exact (hvalue hb).1 h
  · intro h
    have hb : q.cursor.atBoundary = false := by
      obtain ⟨v, t, hv, -⟩ := h
      rw [Cursor.atBoundary, Cursor.rest_skipBlanks, hv.starts]
    exact ⟨q, ⟨hb, rfl⟩, (hvalue hb).2 h⟩

/-! ## options -/

/-- The parameters have not been supplied before, nor by one another. -/
def Fresh : List (Option TypedValue) → List Supply → Prop
  | _, [] => True
  | l, o :: os => l[o.parameter.index]?.join = none ∧ Fresh (note l [o]) os

/-- A cursor at another place of the text stands where what remains says. -/
theorem eq_leaving {c c' : Cursor} {t : List Char} (htext : c'.text = c.text)
    (hrest : c'.rest = t) : c' = c.leaving t := by
  have hoffset := c'.offset_add_length_rest
  rw [hrest, htext] at hoffset
  obtain ⟨text, offset, _⟩ := c'
  obtain rfl : text = c.text := htext
  have : offset = c.text.length - t.length := by
    simp only at hoffset
    omega
  subst this
  rfl

/-- What follows a long name: nothing for a flag, and a value for a switch. -/
inductive LongValue (special : SpecialSet) (d : Descriptor) :
    List Supply → List Char → List Char → Prop
  | flag (hd : d.kind = .flag) (ht : t.head? ≠ some assignment) :
      LongValue special d [⟨d, .bool true⟩] t t
  | attached (hd : d.kind ≠ .flag) (hv : IsValue special d v s t) :
      LongValue special d [⟨d, v⟩] (assignment :: s) t
  | spaced (hd : d.kind ≠ .flag) (ht : s.head? ≠ some assignment)
      (hv : IsValue special d v (Text.skipBlanks s) t) :
      LongValue special d [⟨d, v⟩] s t

theorem setFlag_eq_behind (hd : d.type = .bool) (c : Cursor) (t : List Char)
    (htext : c.text = p.cursor.text) (hrest : c.rest = t) :
    setFlag { p with cursor := c } d = behind p [⟨d, .bool true⟩] t := by
  rw [eq_leaving htext hrest]
  simp [setFlag, supply, behind, note, hd]

/-- A value attached by an equals sign is read from behind the sign. -/
theorem attachedValue_eq_ok_iff {s : List Char} (hs : p.cursor.rest = assignment :: s)
    (hd : d.kind ≠ .flag) :
    longValue special d p = .ok p' ↔
      ∃ v t, IsValue special d v s t ∧ p' = behind p [⟨d, v⟩] t := by
  have hadvance := Cursor.rest_advance_one hs
  simp only [longValue, if_neg hd, hs, List.head?_cons, if_true]
  cases hb : (p.cursor.advance 1).atBoundary with
  | true =>
      simp only [if_true, reduceCtorEq, false_iff]
      intro h
      obtain ⟨v, t, hv, -⟩ := h
      rw [Cursor.atBoundary, hadvance, hv.starts] at hb
      contradiction
  | false =>
      rw [if_neg Bool.false_ne_true, readValue_eq_ok_iff hb, hadvance]
      rfl

/-- A switch takes its value behind the equals sign or behind blanks. -/
theorem switchValue_eq_ok_iff {s : List Char} (hs : p.cursor.rest = s) (hd : d.kind ≠ .flag) :
    longValue special d p = .ok p' ↔
      ∃ os t, LongValue special d os s t ∧ p' = behind p os t := by
  by_cases ha : s.head? = some assignment
  · obtain ⟨r, rfl⟩ := List.head?_eq_some_iff.1 ha
    rw [attachedValue_eq_ok_iff hs hd]
    constructor
    · intro h
      obtain ⟨v, t, hv, rfl⟩ := h
      exact ⟨_, t, .attached hd hv, rfl⟩
    · intro h
      obtain ⟨os, t, hl, rfl⟩ := h
      cases hl with
      | flag hne _ => exact absurd hne hd
      | attached _ hv => exact ⟨_, t, hv, rfl⟩
      | spaced _ ht _ => exact absurd ha ht
  · have hspaced : longValue special d p = (expectValue d.label p >>= readValue special d) := by
      simp only [longValue, if_neg hd, hs, if_neg ha]
    rw [hspaced, spacedValue_eq_ok_iff, hs]
    constructor
    · intro h
      obtain ⟨v, t, hv, rfl⟩ := h
      exact ⟨_, t, .spaced hd ha hv, rfl⟩
    · intro h
      obtain ⟨os, t, hl, rfl⟩ := h
      cases hl with
      | flag hne _ => exact absurd hne hd
      | attached _ _ => exact absurd rfl ha
      | spaced _ _ hv => exact ⟨_, t, hv, rfl⟩

/-- What follows a long name is read as the kind of the option asks. -/
theorem longValue_eq_ok_iff {s : List Char} (hs : p.cursor.rest = s)
    (hflag : d.kind = .flag → d.type = .bool) :
    longValue special d p = .ok p' ↔
      ∃ os t, LongValue special d os s t ∧ p' = behind p os t := by
  by_cases hd : d.kind = .flag
  · have hset := setFlag_eq_behind (p := p) (hflag hd) p.cursor s rfl hs
    simp only [longValue, if_pos hd, hs]
    by_cases ha : s.head? = some assignment
    · simp only [ha, if_true, reduceCtorEq, false_iff]
      intro h
      obtain ⟨os, t, hl, -⟩ := h
      cases hl with
      | flag _ ht => exact ht ha
      | attached hne _ => exact hne hd
      | spaced hne _ _ => exact hne hd
    · simp only [ha, if_false]
      constructor
      · intro h
        exact ⟨_, _, .flag hd ha, (Except.ok.inj h).symm.trans hset⟩
      · intro h
        obtain ⟨os, t, hl, rfl⟩ := h
        cases hl with
        | flag _ _ => exact congrArg _ hset
        | attached hne _ => exact absurd hd hne
        | spaced hne _ _ => exact absurd hd hne
  · exact switchValue_eq_ok_iff hs hd

end TypedConsole.Grammar
