import TypedConsole.Proofs.Alike

/-!
# TypedConsole.Proofs.Spelling

The ways to write the same options.  Flags may be merged behind one dash or stand as words of
their own, by short or long names; a switch may follow the flags behind the same dash or be a word
of its own, and its value may be attached or stand behind blanks or an equals sign.

Every spelling is compared with one way of doing what it says: set the flags in order, check that
the switch is new, and read its value.  `resume_eq_of_spellings` follows, since the reading of the
rest of the line depends on nothing else.
-/

namespace TypedConsole.Grammar

/-! ## spellings -/

/-- A word that is one flag: a dash and its short name, or two dashes and its long name. -/
inductive FlagWord (g : Grammar) (d : Descriptor) : List Char → Prop
  | short (hc : g.HasShort c d) : FlagWord g d [dash, c]
  | long (hl : g.HasLong long d) : FlagWord g d (doubleDash ++ long)

/-- `Apart g ds s t`: the text `s` consists of the flags `ds`, each as a word of its own with
blanks behind it, and of `t`. -/
inductive Apart (g : Grammar) : List Descriptor → List Char → List Char → Prop
  | nil : Apart g [] t t
  | cons (hw : FlagWord g d w) (hb : Text.Blank b) (hne : b ≠ []) (rest : Apart g ds s t) :
      Apart g (d :: ds) (w ++ (b ++ s)) t

/-- `FlagSpelling g r ds s`: the text `s` consists of the flags `ds` and of `r`. -/
inductive FlagSpelling (g : Grammar) (r : List Char) : List Descriptor → List Char → Prop
  /-- The short names behind one dash. -/
  | merged (hcs : List.Forall₂ g.HasShort cs ds) (hne : ds ≠ []) :
      FlagSpelling g r ds (dash :: (cs ++ r))
  /-- Words of their own. -/
  | apart (hds : Apart g ds s (w ++ r)) (hw : FlagWord g d w) : FlagSpelling g r (ds ++ [d]) s

/-- `SwitchWord g d u s`: the text `s` consists of the switch `d`, as a word of its own, and of the
text `u` in which its value is. -/
inductive SwitchWord (g : Grammar) (d : Descriptor) (u : List Char) : List Char → Prop
  | attached (hx : g.HasShort x d) : SwitchWord g d u (dash :: x :: u)
  | spaced (hx : g.HasShort x d) (hb : Text.Blank b) (hne : b ≠ []) :
      SwitchWord g d u (dash :: x :: (b ++ u))
  | assigned (hl : g.HasLong long d) : SwitchWord g d u (doubleDash ++ long ++ assignment :: u)
  | longSpaced (hl : g.HasLong long d) (hb : Text.Blank b) (hne : b ≠ []) :
      SwitchWord g d u (doubleDash ++ long ++ (b ++ u))

/-- `SwitchSpelling g ds d u s`: the text `s` consists of the flags `ds`, of the switch `d` and of
the text `u` in which its value is. -/
inductive SwitchSpelling (g : Grammar) (ds : List Descriptor) (d : Descriptor) (u : List Char) :
    List Char → Prop
  /-- The short names of all of them behind one dash. -/
  | merged (hcs : List.Forall₂ g.HasShort cs ds) (hx : g.HasShort x d) :
      SwitchSpelling g ds d u (dash :: (cs ++ x :: u))
  /-- Words of their own. -/
  | apart (hds : Apart g ds s t) (hword : SwitchWord g d u t) : SwitchSpelling g ds d u s

/-! ## what a spelling says -/

variable {g : Grammar} {special : SpecialSet} {d : Descriptor} {p : Progress}

/-- Set flags one after the other.  Each of them has to be new. -/
def setFlags : List Descriptor → List (Option TypedValue) →
    Except ParseError (List (Option TypedValue))
  | [], l => .ok l
  | d :: ds, l =>
    if (l[d.index]?.join).isSome then .error (.duplicateParameter d.label 0)
    else setFlags ds (l.set d.index (some ⟨.bool, .bool true⟩))

theorem setFlags_append (ds es : List Descriptor) (l : List (Option TypedValue)) :
    setFlags (ds ++ es) l = setFlags ds l >>= setFlags es := by
  induction ds generalizing l with
  | nil => rfl
  | cons d ds ih =>
      rw [List.cons_append, setFlags, setFlags]
      split
      · rfl
      · exact ih _

/-- Where a flag is checked and the reading goes on as after setting it, it is set. -/
theorem alike_setFlags_cons {R : α → β → Prop} {offset : Nat} {ds : List Descriptor}
    {k : Unit → Except ParseError α} {f : List (Option TypedValue) → Except ParseError β}
    (h : Alike R (k ()) (setFlags ds (setFlag p d).supplied >>= f)) :
    Alike R (checkFresh p d offset >>= k) (setFlags (d :: ds) p.supplied >>= f) := by
  rw [checkFresh, setFlags]
  split
  · exact .error rfl
  · exact h

/-- Check that a switch is new, and read its value from the text. -/
def readSwitch (special : SpecialSet) (d : Descriptor) (u : List Char) (p : Progress) :
    Except ParseError Progress := do
  checkFresh p d 0
  readValue special d { p with cursor := .start u }

/-- A value is read from where the text of the switch begins. -/
theorem readValue_alike_start {u : List Char} {c : Cursor} (hc : c.rest = u) :
    Alike Progress.Same (readValue special d { p with cursor := c })
      (readValue special d { p with cursor := .start u }) :=
  readValue_alike (.start p hc) special d

/-! ## merged short names -/

/-- The step at the short name of a switch or flag. -/
theorem Checked.shortOptions_hasShort (hg : g.Checked) {start : Nat} {c : Char} {r : List Char}
    (hs : p.cursor.rest = c :: r) (hc : g.HasShort c d) :
    shortOptions g special start p =
      checkFresh p d (if p.cursor.offset = start + 1 then start else p.cursor.offset) >>= fun _ =>
        let p' := { p with cursor := p.cursor.advance 1 }
        if d.kind = .flag then
          if Text.atBoundary r then .ok (setFlag p' d)
          else shortOptions g special start (setFlag p' d)
        else if Text.atBoundary r then
          expectValue (String.ofList [dash, c]) p' >>= readValue special d
        else readValue special d p' := by
  rw [shortOptions_cons hs, hg.findShort_eq_some_iff.2 hc]
  simp only [Cursor.atBoundary, Cursor.rest_advance_one hs]
  cases checkFresh p d _ <;> rfl

/-- The short names of flags set them, and the reading goes on behind them unless it is at a
boundary. -/
theorem Checked.shortOptions_flags (hg : g.Checked) (special : SpecialSet) {cs : List Char}
    {ds : List Descriptor} (hcs : List.Forall₂ g.HasShort cs ds)
    (hflags : ∀ d ∈ ds, d.kind = .flag) {t : List Char} (ht : ds = [] → Text.atBoundary t = false)
    (hs : p.cursor.rest = cs ++ t) (start start' : Nat) :
    Alike Progress.Same (shortOptions g special start p)
      (setFlags ds p.supplied >>= fun l =>
        let q : Progress := { p with cursor := .start t, supplied := l }
        if Text.atBoundary t then .ok q else shortOptions g special start' q) := by
  induction hcs generalizing p with
  | nil =>
      have hsame : p.Same { p with cursor := .start t } := .start p hs
      have halike := shortOptions_alike hsame g special start start'
      change Alike _ _ (if Text.atBoundary t then _ else _)
      rw [ht rfl]
      exact halike
  | @cons c d cs ds hc hcs ih =>
      obtain ⟨hd, hflags⟩ := List.forall_mem_cons.1 hflags
      have hrest : (p.cursor.advance 1).rest = cs ++ t := Cursor.rest_advance_one hs
      rw [hg.shortOptions_hasShort hs hc]
      refine alike_setFlags_cons ?_
      simp only [hd, if_true]
      cases hb : Text.atBoundary (cs ++ t) with
      | true =>
          -- no short name is a blank, so all flags have been read
          cases hcs with
          | nil =>
              change Alike _ _ (if Text.atBoundary t then _ else _)
              rw [if_pos rfl, if_pos (by simpa using hb)]
              exact .ok ((Progress.Same.start p hrest).setFlag d)
          | cons hc' =>
              rw [List.cons_append, Text.atBoundary_cons, (hg.validShort_of_hasShort hc').1] at hb
              contradiction
      | false =>
          rw [if_neg Bool.false_ne_true]
          refine ih hflags (fun hnil => ?_) hrest
          cases hcs with
          | nil => exact hb
          | cons => contradiction

/-- Behind the short name of a switch its value is read. -/
theorem Checked.shortOptions_switch_alike (hg : g.Checked) (special : SpecialSet) {x : Char}
    {u : List Char} (hx : g.HasShort x d) (hd : d.kind = .switch)
    (hu : Text.atBoundary u = false) (hs : p.cursor.rest = x :: u) (start : Nat) :
    Alike Progress.Same (shortOptions g special start p) (readSwitch special d u p) := by
  rw [hg.shortOptions_hasShort hs hx]
  refine (checkFresh_alike rfl d _ _).bind fun _ _ _ => ?_
  simp only [hd, reduceCtorEq, if_false, hu, Bool.false_eq_true]
  exact readValue_alike_start (Cursor.rest_advance_one hs)

/-! ## words -/

/-- A long name with what follows it. -/
theorem Checked.item_long (hg : g.Checked) {long s : List Char} (he : p.optionsEnabled = true)
    (hs : p.cursor.rest = doubleDash ++ long ++ s) (hl : g.HasLong long d)
    (hend : atNameEnd s = true) :
    g.item special p = checkFresh p d p.cursor.offset >>= fun _ =>
      longValue special d { p with cursor := p.cursor.leaving s } := by
  obtain ⟨name, hname, hlong⟩ := Option.map_eq_some_iff.1 hl.2
  have hnamed : (p.cursor.advance doubleDash.length).rest = name.toList ++ s := by
    rw [Cursor.rest_advance, hs, List.append_assoc, List.drop_left, hlong]
  have hbehind : (p.cursor.advance doubleDash.length).advance name.length =
      p.cursor.leaving s := eq_leaving rfl (by
    rw [Cursor.rest_advance, hnamed, ← String.length_toList, List.drop_left])
  have hmatch : g.matchLong (name.toList ++ s) = some (d, name) :=
    hg.matchLong_eq_some_iff.2 ⟨hl.1, hname, s, rfl, hend⟩
  rw [hg.item_eq_longOption hs he hl]
  simp only [longOption, hnamed, hmatch, hbehind]

/-- The word of a flag sets it. -/
theorem Checked.item_flagWord (hg : g.Checked) (special : SpecialSet) {w r : List Char}
    (he : p.optionsEnabled = true) (hd : d.kind = .flag) (hw : FlagWord g d w)
    (hs : p.cursor.rest = w ++ r) (hr : Text.atBoundary r = true) :
    Alike Progress.Same (g.item special p) (setFlags [d] p.supplied >>= fun l =>
      .ok { p with cursor := .start r, supplied := l }) := by
  cases hw with
  | @short c hc =>
      have hflags := hg.shortOptions_flags special (p := { p with cursor := p.cursor.advance 1 })
        (.cons hc .nil) (by simpa using hd) (by simp) (Cursor.rest_advance_one hs)
        p.cursor.offset 0
      rw [hg.item_eq_shortOptions hs he hc]
      simpa only [hr, if_true] using hflags
  | long hl =>
      have hleaving : (p.cursor.leaving r).rest = r :=
        Cursor.rest_leaving (hs ▸ List.suffix_append _ _)
      rw [hg.item_long he hs hl (atNameEnd_of_atBoundary hr)]
      refine alike_setFlags_cons ?_
      rw [longValue, if_pos hd, hleaving, if_neg (head?_ne_assignment hr), setFlags]
      exact .ok ((Progress.Same.start p hleaving).setFlag d)

/-- Blanks in front of a value are skipped. -/
theorem expectValue_blanks (option : String) {b u : List Char} (hb : Text.Blank b)
    (hu : Text.atBoundary u = false) (hs : p.cursor.rest = b ++ u) :
    ∃ c, c.rest = u ∧ expectValue option p = .ok { p with cursor := c } := by
  obtain ⟨a, r, rfl, ha⟩ := Text.atBoundary_eq_false_iff.1 hu
  have hrest : p.cursor.skipBlanks.rest = a :: r := by
    rw [Cursor.rest_skipBlanks, hs, Text.skipBlanks_append_cons hb ha]
  exact ⟨_, hrest, expectValue_eq_ok_iff.2 ⟨by rw [Cursor.atBoundary, hrest, hu], rfl⟩⟩

/-- The word of a switch reads its value. -/
theorem Checked.item_switchWord (hg : g.Checked) (special : SpecialSet) {u s : List Char}
    (he : p.optionsEnabled = true) (hd : d.kind = .switch) (hu : Text.atBoundary u = false)
    (hw : SwitchWord g d u s) (hs : p.cursor.rest = s) :
    Alike Progress.Same (g.item special p) (readSwitch special d u p) := by
  have hkind : d.kind ≠ .flag := by simp [hd]
  cases hw with
  | attached hx =>
      rw [hg.item_eq_shortOptions hs he hx]
      exact hg.shortOptions_switch_alike special hx hd hu (Cursor.rest_advance_one hs) _
  | @spaced x b hx hb hne =>
      have hrest := Cursor.rest_advance_one hs
      rw [hg.item_eq_shortOptions hs he hx, hg.shortOptions_hasShort hrest hx]
      refine (checkFresh_alike rfl d _ _).bind fun _ _ _ => ?_
      simp only [if_neg hkind, Text.atBoundary_append_of_ne_nil hb hne, if_true]
      obtain ⟨c, hc, hexpect⟩ := expectValue_blanks (String.ofList [dash, x])
        (p := { p with cursor := (p.cursor.advance 1).advance 1 }) hb hu
        (Cursor.rest_advance_one hrest)
      rw [hexpect]
      exact readValue_alike_start hc
  | @assigned long hl =>
      have hleaving : (p.cursor.leaving (assignment :: u)).rest = assignment :: u :=
        Cursor.rest_leaving (hs ▸ List.suffix_append _ _)
      have hvalue := Cursor.rest_advance_one hleaving
      rw [hg.item_long he hs hl (by simp [atNameEnd])]
      refine (checkFresh_alike rfl d _ _).bind fun _ _ _ => ?_
      simp only [longValue, if_neg hkind, hleaving, List.head?_cons, if_true, Cursor.atBoundary,
        hvalue, hu, Bool.false_eq_true, if_false]
      exact readValue_alike_start hvalue
  | @longSpaced long b hl hb hne =>
      have hleaving : (p.cursor.leaving (b ++ u)).rest = b ++ u :=
        Cursor.rest_leaving (hs ▸ List.suffix_append _ _)
      have hboundary := Text.atBoundary_append_of_ne_nil (s := u) hb hne
      rw [hg.item_long he hs hl (atNameEnd_of_atBoundary hboundary)]
      refine (checkFresh_alike rfl d _ _).bind fun _ _ _ => ?_
      simp only [longValue, if_neg hkind, hleaving, if_neg (head?_ne_assignment hboundary)]
      obtain ⟨c, hc, hexpect⟩ := expectValue_blanks d.label
        (p := { p with cursor := p.cursor.leaving (b ++ u) }) hb hu hleaving
      rw [hexpect]
      exact readValue_alike_start hc

/-! ## lines -/

theorem FlagWord.starts {w : List Char} (hw : FlagWord g d w) (s : List Char) :
    Text.atBoundary (w ++ s) = false := by
  have hdash : Text.isBlank dash = false := by decide
  cases hw with
  | short | long => exact hdash

/-- Blanks in front of the items make no difference. -/
theorem items_alike_blanks {c c' : Cursor}
    (h : Text.skipBlanks c.rest = Text.skipBlanks c'.rest) :
    Alike Progress.Same (g.items special { p with cursor := c })
      (g.items special { p with cursor := c' }) := by
  rw [← items_skipBlanks, ← items_skipBlanks g special { p with cursor := c' }]
  refine items_alike ((Progress.Same.refl p).move ?_) g special
  rw [Cursor.rest_skipBlanks, Cursor.rest_skipBlanks, h]

/-- A line that starts with an item goes on behind it. -/
theorem Checked.items_of_item_alike (hg : g.Checked) {s : List Char} (hs : p.cursor.rest = s)
    (hstart : Text.atBoundary s = false) {x : Except ParseError Progress}
    (h : Alike Progress.Same (g.item special p) x) :
    Alike Progress.Same (g.items special p) (x >>= g.items special) := by
  obtain ⟨c, r, rfl, hc⟩ := Text.atBoundary_eq_false_iff.1 hstart
  have hskip : Text.skipBlanks p.cursor.rest = c :: r := by rw [hs, Text.skipBlanks_cons hc]
  have hsame : Progress.Same { p with cursor := p.cursor.skipBlanks } p :=
    (Progress.Same.refl p).move (by rw [Cursor.rest_skipBlanks, hskip, hs])
  rw [hg.items_of_item hskip]
  exact ((item_alike hsame g special).trans h).bind fun _ _ hsame =>
    items_alike hsame g special

/-- Behind flags that are words of their own the items go on. -/
theorem Checked.items_apart (hg : g.Checked) {ds : List Descriptor}
    (hflags : ∀ d ∈ ds, d.kind = .flag) {s t : List Char} (h : Apart g ds s t)
    (he : p.optionsEnabled = true) (hs : p.cursor.rest = s) :
    Alike Progress.Same (g.items special p) (setFlags ds p.supplied >>= fun l =>
      g.items special { p with cursor := .start t, supplied := l }) := by
  induction h generalizing p with
  | nil => exact items_alike (.start p hs) g special
  | @cons d w b ds s t hw hb hne hrest ih =>
      obtain ⟨hd, hflags⟩ := List.forall_mem_cons.1 hflags
      have hboundary := Text.atBoundary_append_of_ne_nil (s := s) hb hne
      calc Alike Progress.Same (g.items special p)
            (setFlags [d] p.supplied >>= fun l =>
              g.items special { p with cursor := .start (b ++ s), supplied := l }) := by
            have hitem := hg.item_flagWord special he hd hw hs hboundary
            have hitems := hg.items_of_item_alike hs (hw.starts _) hitem
            rwa [bind_assoc] at hitems
        Alike Progress.Same _ (setFlags [d] p.supplied >>= fun l => setFlags ds l >>= fun l =>
            g.items special { p with cursor := .start t, supplied := l }) := by
            refine .bind_same _ fun l => ?_
            let q : Progress := { p with supplied := l }
            have hblanks : Text.skipBlanks (Cursor.start (b ++ s)).rest =
                Text.skipBlanks (Cursor.start s).rest := by
              rw [Cursor.rest_start, Cursor.rest_start, Text.skipBlanks_append hb]
            exact (items_alike_blanks (p := q) hblanks).trans
              (ih (p := { q with cursor := .start s }) hflags he (Cursor.rest_start s))
        _ = _ := by rw [← bind_assoc, ← setFlags_append, List.singleton_append]

/-- **However flags are spelled, they are set in order**, and the items go on behind them. -/
theorem Checked.items_flagSpelling (hg : g.Checked) {ds : List Descriptor}
    (hflags : ∀ d ∈ ds, d.kind = .flag) {r s : List Char} (hr : Text.atBoundary r = true)
    (h : FlagSpelling g r ds s) (he : p.optionsEnabled = true) (hs : p.cursor.rest = s) :
    Alike Progress.Same (g.items special p) (setFlags ds p.supplied >>= fun l =>
      g.items special { p with cursor := .start r, supplied := l }) := by
  cases h with
  | @merged cs _ hcs hne =>
      cases hcs with
      | nil => contradiction
      | @cons c d cs ds hc hcs =>
          have hitem := hg.shortOptions_flags special (p := { p with cursor := p.cursor.advance 1 })
            (.cons hc hcs) hflags (by simp) (Cursor.rest_advance_one hs) p.cursor.offset 0
          rw [← hg.item_eq_shortOptions hs he hc] at hitem
          simp only [hr, if_true] at hitem
          have hitems := hg.items_of_item_alike hs (by simp; decide) hitem
          rwa [bind_assoc] at hitems
  | @apart ds s w d hds hw =>
      obtain ⟨hflags, hd⟩ := List.forall_mem_append.1 hflags
      calc Alike Progress.Same (g.items special p)
            (setFlags ds p.supplied >>= fun l =>
              g.items special { p with cursor := .start (w ++ r), supplied := l }) :=
            hg.items_apart hflags hds he hs
        Alike Progress.Same _ (setFlags ds p.supplied >>= fun l => setFlags [d] l >>= fun l =>
            g.items special { p with cursor := .start r, supplied := l }) := by
            refine .bind_same _ fun l => ?_
            have hrest := Cursor.rest_start (w ++ r)
            have hitem := hg.item_flagWord special
              (p := { p with cursor := .start (w ++ r), supplied := l }) he
              (hd d List.mem_cons_self) hw hrest hr
            have hitems := hg.items_of_item_alike hrest (hw.starts _) hitem
            rwa [bind_assoc] at hitems
        _ = _ := by rw [← bind_assoc, ← setFlags_append]

theorem SwitchWord.starts {u s : List Char} (hw : SwitchWord g d u s) :
    Text.atBoundary s = false := by
  have hdash : Text.isBlank dash = false := by decide
  cases hw with
  | attached | spaced | assigned | longSpaced => exact hdash

/-- **However flags and a switch are spelled, the flags are set in order and then the value of the
switch is read**, and the items go on behind it. -/
theorem Checked.items_switchSpelling (hg : g.Checked) {ds : List Descriptor}
    (hflags : ∀ d ∈ ds, d.kind = .flag) (hd : d.kind = .switch) {u s : List Char}
    (hu : Text.atBoundary u = false) (h : SwitchSpelling g ds d u s)
    (he : p.optionsEnabled = true) (hs : p.cursor.rest = s) :
    Alike Progress.Same (g.items special p) (setFlags ds p.supplied >>= fun l =>
      readSwitch special d u { p with supplied := l } >>= g.items special) := by
  cases h with
  | @merged cs x hcs hx =>
      obtain ⟨c, e, r, hc, hcons⟩ : ∃ c e r, g.HasShort c e ∧ cs ++ x :: u = c :: r := by
        cases hcs with
        | nil => exact ⟨x, d, u, hx, rfl⟩
        | cons hc _ => exact ⟨_, _, _, hc, rfl⟩
      have hx' : Text.atBoundary (x :: u) = false := (hg.validShort_of_hasShort hx).1
      have hitem := hg.shortOptions_flags special (p := { p with cursor := p.cursor.advance 1 })
        hcs hflags (fun _ => hx') (Cursor.rest_advance_one hs) p.cursor.offset 0
      rw [← hg.item_eq_shortOptions (hs.trans (congrArg _ hcons)) he hc] at hitem
      simp only [hx', Bool.false_eq_true, if_false] at hitem
      have hswitch := hitem.trans (.bind_same _ fun l =>
        hg.shortOptions_switch_alike special hx hd hu (Cursor.rest_start (x :: u)) 0)
      have hitems := hg.items_of_item_alike hs (by simp; decide) hswitch
      rwa [bind_assoc] at hitems
  | @apart s t hds hword =>
      calc Alike Progress.Same (g.items special p)
            (setFlags ds p.supplied >>= fun l =>
              g.items special { p with cursor := .start t, supplied := l }) :=
            hg.items_apart hflags hds he hs
        Alike Progress.Same _ (setFlags ds p.supplied >>= fun l =>
            readSwitch special d u { p with supplied := l } >>= g.items special) := by
            refine .bind_same _ fun l => ?_
            have hrest := Cursor.rest_start t
            have hitem := hg.item_switchWord special
              (p := { p with cursor := .start t, supplied := l }) he hd hu hword hrest
            exact hg.items_of_item_alike hrest hword.starts hitem

/-! ## the theorem -/

/-- **Equivalent spellings have equivalent outcomes.**  Let options be recognised, and let some
flags and a switch come next, the text of its value starting with something other than a blank.
However they are spelled, the line gives the same arguments, or the same fault up to its place.
The same holds of flags alone with a blank or the end of the line behind them.  Parsers from outside
keep the contract of `CustomParser`. -/
theorem resume_eq_of_spellings {ps : List Parameter} {r : Registry} {g : Grammar}
    (hps : ∀ p ∈ ps, p.Declared) (hb : (build ps r).1 = .ok g) (special : SpecialSet)
    (p : Progress) (he : p.optionsEnabled = true) (ds : List Descriptor)
    (hflags : ∀ d ∈ ds, d.kind = .flag) :
    (∀ d u, d.kind = .switch → Text.atBoundary u = false → ∀ c c' : Cursor,
      SwitchSpelling g ds d u c.rest → SwitchSpelling g ds d u c'.rest →
      (g.resume special { p with cursor := c }).mapError ParseError.unplaced =
        (g.resume special { p with cursor := c' }).mapError ParseError.unplaced) ∧
    (∀ u, Text.atBoundary u = true → ∀ c c' : Cursor,
      FlagSpelling g u ds c.rest → FlagSpelling g u ds c'.rest →
      (g.resume special { p with cursor := c }).mapError ParseError.unplaced =
        (g.resume special { p with cursor := c' }).mapError ParseError.unplaced) := by
  have hg := checked_of_build hps hb
  -- what is said of the items holds of the line
  have hline : ∀ {q : Progress} {x : Except ParseError Progress},
      Alike Progress.Same (g.items special q) x →
      (g.resume special q).mapError ParseError.unplaced =
        (x >>= g.finish special).mapError ParseError.unplaced :=
    fun h => (h.bind fun _ _ h => finish_alike h g special).unplaced_eq
  constructor
  · intro d u hd hu c c' h h'
    let q : Progress := { p with cursor := c }
    let q' : Progress := { p with cursor := c' }
    have hc := hline (hg.items_switchSpelling (p := q) hflags hd hu h he rfl)
    have hc' := hline (hg.items_switchSpelling (p := q') hflags hd hu h' he rfl)
    exact hc.trans hc'.symm
  · intro u hu c c' h h'
    let q : Progress := { p with cursor := c }
    let q' : Progress := { p with cursor := c' }
    have hc := hline (hg.items_flagSpelling (p := q) hflags hu h he rfl)
    have hc' := hline (hg.items_flagSpelling (p := q') hflags hu h' he rfl)
    exact hc.trans hc'.symm

/-! ## a flag and a level -/

/-- A flag, and a switch with two names. -/
def flagAndLevel : List Parameter :=
  [.switch .bool 'v', (Parameter.requiredSwitch (.integer .i32) 'n').withLong "level"]

theorem declared_flagAndLevel : ∀ p ∈ flagAndLevel, p.Declared := by
  intro p hp
  rcases List.mem_cons.1 hp with rfl | hp
  · exact .optional (.requiredSwitch _ _)
  · obtain rfl := List.mem_singleton.1 hp
    exact .withLong _ (.requiredSwitch _ _)

/-- The descriptor of the flag. -/
def quiet : Descriptor := describe 0 (.switch .bool 'v') .bool (.bool false)

/-- The descriptor of the switch. -/
def level : Descriptor :=
  describe 1 ((Parameter.requiredSwitch (.integer .i32) 'n').withLong "level") (.integer .i32)
    (.integer 0)

theorem build_flagAndLevel :
    (build flagAndLevel (.empty fun _ _ => none)).1 = .ok ⟨[quiet, level]⟩ := rfl

/-- The flag and the switch merged, and as words of their own; and the flag twice. -/
theorem resume_flagAndLevel :
    (∀ p ∈ flagAndLevel, p.Declared) ∧
    (build flagAndLevel (.empty fun _ _ => none)).1 = .ok ⟨[quiet, level]⟩ ∧
    (begin ⟨[quiet, level]⟩ []).optionsEnabled = true ∧ (∀ d ∈ [quiet, quiet], d.kind = .flag) ∧
    level.kind = .switch ∧ Text.atBoundary ['5'] = false ∧
    (parse ⟨[quiet, level]⟩ .builtIn ['-', 'v', 'v', 'n', '5']).mapError ParseError.unplaced =
      (parse ⟨[quiet, level]⟩ .builtIn ['-', 'v', ' ', '-', 'v', ' ', '-', 'n', ' ', '5']).mapError
        ParseError.unplaced ∧
    (parse ⟨[quiet, level]⟩ .builtIn ['-', 'v', 'v']).mapError ParseError.unplaced =
      (parse ⟨[quiet, level]⟩ .builtIn ['-', 'v', ' ', '-', 'v']).mapError
        ParseError.unplaced := by
  have hflags : ∀ d ∈ [quiet, quiet], d.kind = .flag := by simp [quiet, describe]; decide
  obtain ⟨hswitches, hends⟩ := resume_eq_of_spellings declared_flagAndLevel build_flagAndLevel
    .builtIn (begin ⟨[quiet, level]⟩ []) rfl [quiet, quiet] hflags
  have hv : HasShort ⟨[quiet, level]⟩ 'v' quiet := ⟨List.mem_cons_self, rfl⟩
  have hn : HasShort ⟨[quiet, level]⟩ 'n' level := ⟨List.mem_cons_of_mem _ List.mem_cons_self, rfl⟩
  have hblank : Text.Blank [' '] := Text.blank_cons.2 ⟨by decide, Text.blank_nil⟩
  have hne : [' '] ≠ [] := List.cons_ne_nil _ _
  have hmerged : List.Forall₂ (HasShort ⟨[quiet, level]⟩) ['v', 'v'] [quiet, quiet] :=
    .cons hv (.cons hv .nil)
  refine ⟨declared_flagAndLevel, build_flagAndLevel, rfl, hflags, rfl, by decide, ?_, ?_⟩
  · exact hswitches level ['5'] rfl (by decide) (.start _) (.start _) (.merged hmerged hn)
      (.apart (.cons (.short hv) hblank hne (.cons (.short hv) hblank hne .nil))
        (.spaced hn hblank hne))
  · exact hends [] rfl (.start _) (.start _) (.merged hmerged (List.cons_ne_nil _ _))
      (.apart (.cons (.short hv) hblank hne .nil) (.short hv))

end TypedConsole.Grammar
