import TypedConsole.Proofs.Items

/-!
# TypedConsole.Proofs.Lines

The items of a line, as a checked grammar reads them: each option and each value is read exactly
if it is spelled at the front of what remains, and leaves what follows it.
-/

namespace TypedConsole.Grammar

variable {g : Grammar} {special : SpecialSet} {d : Descriptor} {p p' : Progress}

theorem Checked.type_of_flag (hg : g.Checked) (hd : d ∈ g.switches) (hk : d.kind = .flag) :
    d.type = .bool := hg.flag d (mem_switches.1 hd).1 hk

/-- A switch or flag that is no flag is a switch. -/
theorem kind_eq_switch (hd : d ∈ g.switches) (hk : d.kind ≠ .flag) : d.kind = .switch := by
  have hne := (mem_switches.1 hd).2
  cases h : d.kind with
  | positional => exact absurd h hne
  | switch => rfl
  | flag => exact absurd h hk

theorem fresh_singleton {l : List (Option TypedValue)} {o : Supply} :
    Fresh l [o] ↔ l[o.parameter.index]?.join = none := by simp [Fresh]

/-! ## long options -/

/-- The value behind a long name is that of one parameter. -/
theorem LongValue.eq_singleton {os : List Supply} {s t : List Char}
    (h : LongValue special d os s t) : ∃ v, os = [⟨d, v⟩] := by
  cases h with
  | flag | attached | spaced => exact ⟨_, rfl⟩

/-- A long option is the name of a switch or flag with its value behind it. -/
theorem Checked.longOption_eq_ok_iff (hg : g.Checked) {s : List Char}
    (hs : p.cursor.rest = doubleDash ++ s) :
    longOption g special p = .ok p' ↔
      ∃ d long t os u, d ∈ g.switches ∧ d.long = some long ∧ s = long.toList ++ t ∧
        atNameEnd t = true ∧ LongValue special d os t u ∧ Fresh p.supplied os ∧
        p' = behind p os u := by
  have hnamed : (p.cursor.advance doubleDash.length).rest = s := by
    rw [Cursor.rest_advance, hs, List.drop_left]
  simp only [longOption, hnamed]
  cases hm : g.matchLong s with
  | none =>
      simp only [reduceCtorEq, false_iff]
      intro h
      obtain ⟨d, long, t, os, u, hd, hl, hst, ht, -⟩ := h
      rw [hg.matchLong_eq_some_iff.2 ⟨hd, hl, t, hst, ht⟩] at hm
      contradiction
  | some found =>
      obtain ⟨e, name⟩ := found
      obtain ⟨he, hname, r, hsr, hr⟩ := hg.matchLong_eq_some_iff.1 hm
      have hrest : ((p.cursor.advance doubleDash.length).advance name.length).rest = r := by
        rw [Cursor.rest_advance, hnamed, hsr, ← String.length_toList, List.drop_left]
      let named : Progress :=
        { p with cursor := (p.cursor.advance doubleDash.length).advance name.length }
      have hvalue : longValue special e named = .ok p' ↔
          ∃ os u, LongValue special e os r u ∧ p' = behind named os u :=
        longValue_eq_ok_iff hrest (hg.type_of_flag he)
      constructor
      · intro h
        obtain ⟨_, hfresh, hlong⟩ := bind_eq_ok_iff.1 h
        obtain ⟨os, u, hv, rfl⟩ := hvalue.1 hlong
        obtain ⟨v, rfl⟩ := hv.eq_singleton
        exact ⟨e, name, r, _, u, he, hname, hsr, hr, hv,
          fresh_singleton.2 (checkFresh_eq_ok_iff.1 hfresh), rfl⟩
      · intro h
        obtain ⟨d, long, t, os, u, hd, hl, hst, ht, hv, hfresh, rfl⟩ := h
        obtain ⟨rfl, rfl⟩ := Prod.mk.inj (Option.some.inj
          (hm.symm.trans (hg.matchLong_eq_some_iff.2 ⟨hd, hl, t, hst, ht⟩)))
        obtain rfl : r = t := List.append_cancel_left (hsr.symm.trans hst)
        obtain ⟨v, rfl⟩ := hv.eq_singleton
        exact bind_eq_ok_iff.2 ⟨(), checkFresh_eq_ok_iff.2 (fresh_singleton.1 hfresh),
          hvalue.2 ⟨_, u, hv, rfl⟩⟩

/-! ## merged short options -/

/-- One step through merged short options. -/
theorem shortOptions_cons {start : Nat} {c : Char} {r : List Char} (hs : p.cursor.rest = c :: r) :
    shortOptions g special start p =
      match g.findShort c with
      | none => .error (.unknownOption (String.ofList [dash, c]) p.cursor.offset)
      | some d =>
        match checkFresh p d
            (if p.cursor.offset = start + 1 then start else p.cursor.offset) with
        | .error e => .error e
        | .ok () =>
          let p' := { p with cursor := p.cursor.advance 1 }
          if d.kind = .flag then
            if p'.cursor.atBoundary then .ok (setFlag p' d)
            else shortOptions g special start (setFlag p' d)
          else if p'.cursor.atBoundary then
            expectValue (String.ofList [dash, c]) p' >>= readValue special d
          else readValue special d p' := by
  rw [shortOptions]
  split
  · next h => rw [hs] at h; contradiction
  · next h =>
      rw [hs] at h
      obtain ⟨rfl, -⟩ := List.cons.inj h
      rfl

/-- The progress behind the short name of a flag. -/
theorem setFlag_advance (hd : d.type = .bool) {c : Char} {r : List Char}
    (hs : p.cursor.rest = c :: r) :
    setFlag { p with cursor := p.cursor.advance 1 } d = behind p [flagged d] r :=
  setFlag_eq_behind hd _ _ rfl (Cursor.rest_advance_one hs)

theorem rest_behind {os : List Supply} {t : List Char} (ht : t <:+ p.cursor.rest) :
    (behind p os t).cursor.rest = t := Cursor.rest_leaving ht

/-- A flag among short options is followed by the others. -/
theorem Checked.shortOptions_flag (hg : g.Checked) {start : Nat} {c : Char} {r : List Char}
    (hs : p.cursor.rest = c :: r) (hc : g.HasShort c d) (hd : d.kind = .flag)
    (hnew : p.supplied[d.index]?.join = none) :
    shortOptions g special start p =
      if Text.atBoundary r then .ok (behind p [flagged d] r)
      else shortOptions g special start (behind p [flagged d] r) := by
  have hrest := Cursor.rest_advance_one hs
  simp only [shortOptions_cons hs, hg.findShort_eq_some_iff.2 hc, checkFresh_eq_ok_iff.2 hnew, hd,
    if_true, Cursor.atBoundary, hrest, setFlag_advance (hg.type_of_flag hc.1 hd) hs]

/-- A switch among short options is followed by its value, with blanks in front of it or none. -/
theorem Checked.shortOptions_switch (hg : g.Checked) {start : Nat} {c : Char} {r : List Char}
    (hs : p.cursor.rest = c :: r) (hc : g.HasShort c d) (hd : d.kind = .switch)
    (hnew : p.supplied[d.index]?.join = none) :
    shortOptions g special start p = .ok p' ↔
      ∃ b v s t, r = b ++ s ∧ Text.Blank b ∧ IsValue special d v s t ∧
        p' = behind p [⟨d, v⟩] t := by
  have hrest := Cursor.rest_advance_one hs
  simp only [shortOptions_cons hs, hg.findShort_eq_some_iff.2 hc, checkFresh_eq_ok_iff.2 hnew, hd,
    reduceCtorEq, if_false, Cursor.atBoundary, hrest]
  cases hb : Text.atBoundary r with
  | true =>
      simp only [if_true, spacedValue_eq_ok_iff, hrest]
      constructor
      · intro h
        obtain ⟨v, t, hv, rfl⟩ := h
        obtain ⟨b, s, hblank, hs, hvalue⟩ := isValue_skipBlanks_iff.1 hv
        exact ⟨b, v, s, t, hs, hblank, hvalue, rfl⟩
      · intro h
        obtain ⟨b, v, s, t, hs, hblank, hvalue, rfl⟩ := h
        exact ⟨v, t, isValue_skipBlanks_iff.2 ⟨b, s, hblank, hs, hvalue⟩, rfl⟩
  | false =>
      rw [if_neg Bool.false_ne_true, readValue_eq_ok_iff (by rw [Cursor.atBoundary, hrest, hb])]
      simp only [hrest]
      constructor
      · intro h
        obtain ⟨v, t, hvalue, rfl⟩ := h
        exact ⟨[], v, r, t, rfl, Text.blank_nil, hvalue, rfl⟩
      · intro h
        obtain ⟨b, v, s, t, rfl, hblank, hvalue, rfl⟩ := h
        have hnil : b = [] := by
          by_contra hne
          rw [Text.atBoundary_append_of_ne_nil hblank hne] at hb
          contradiction
        subst hnil
        exact ⟨v, t, hvalue, rfl⟩

/-- What short options are read as is spelled there. -/
theorem Checked.cluster_of_shortOptions (hg : g.Checked) {start : Nat} {s : List Char}
    (hs : p.cursor.rest = s) (hne : s ≠ []) (h : shortOptions g special start p = .ok p') :
    ∃ os t, Cluster g special os s t ∧ Fresh p.supplied os ∧ p' = behind p os t := by
  induction s generalizing p with
  | nil => contradiction
  | cons c r ih =>
      obtain ⟨d, hc, hnew⟩ : ∃ d, g.HasShort c d ∧ p.supplied[d.index]?.join = none := by
        rw [shortOptions_cons hs] at h
        split at h
        · contradiction
        · next d hfound =>
            split at h
            · contradiction
            · next hfresh =>
                exact ⟨d, hg.findShort_eq_some_iff.1 hfound, checkFresh_eq_ok_iff.1 hfresh⟩
      by_cases hd : d.kind = .flag
      · rw [hg.shortOptions_flag hs hc hd hnew] at h
        cases hb : Text.atBoundary r with
        | true =>
            rw [hb, if_pos rfl] at h
            exact ⟨_, r, .flag hc hd hb, fresh_singleton.2 hnew, (Except.ok.inj h).symm⟩
        | false =>
            rw [hb, if_neg Bool.false_ne_true] at h
            have hr : (behind p [flagged d] r).cursor.rest = r :=
              rest_behind (hs ▸ List.suffix_cons c r)
            have hrne : r ≠ [] := fun h' => by rw [h'] at hb; contradiction
            obtain ⟨os, t, hcluster, hos, rfl⟩ := ih hr hrne h
            exact ⟨_, t, .merged hc hd hcluster, ⟨hnew, hos⟩, rfl⟩
      · have hk := kind_eq_switch hc.1 hd
        obtain ⟨b, v, s, t, rfl, hblank, hvalue, rfl⟩ :=
          (hg.shortOptions_switch hs hc hk hnew).1 h
        refine ⟨[⟨d, v⟩], t, ?_, fresh_singleton.2 hnew, rfl⟩
        by_cases hb : b = []
        · subst hb
          exact .attached hc hk hvalue
        · exact .spaced hc hk hblank hb hvalue

/-- Merged short options leave a suffix of what they start. -/
theorem Cluster.suffix {os : List Supply} {s t : List Char} (h : Cluster g special os s t) :
    t <:+ s := by
  induction h with
  | flag => exact List.suffix_cons _ _
  | merged _ _ _ ih => exact ih.trans (List.suffix_cons _ _)
  | attached _ _ hv => exact hv.suffix.trans (List.suffix_cons _ _)
  | spaced _ _ _ _ hv =>
      exact hv.suffix.trans ((List.suffix_append _ _).trans (List.suffix_cons _ _))

/-- Merged short options are at no boundary, since short names are not blanks. -/
theorem Cluster.starts (hg : g.Checked) {os : List Supply} {s t : List Char}
    (h : Cluster g special os s t) : Text.atBoundary s = false := by
  cases h with
  | flag hc | merged hc | attached hc | spaced hc => exact (hg.validShort_of_hasShort hc).1

theorem Cluster.exists_hasShort {os : List Supply} {c : Char} {s t : List Char}
    (h : Cluster g special os (c :: s) t) : ∃ d, g.HasShort c d := by
  cases h with
  | flag hc | merged hc | attached hc | spaced hc => exact ⟨_, hc⟩

/-- What is spelled as short options is read as such. -/
theorem Checked.shortOptions_of_cluster (hg : g.Checked) {start : Nat} {s t : List Char}
    {os : List Supply} (h : Cluster g special os s t) (hs : p.cursor.rest = s)
    (hfresh : Fresh p.supplied os) :
    shortOptions g special start p = .ok (behind p os t) := by
  induction h generalizing p with
  | flag hc hd ht => rw [hg.shortOptions_flag hs hc hd (fresh_singleton.1 hfresh), ht, if_pos rfl]
  | merged hc hd hrest ih =>
      rw [hg.shortOptions_flag hs hc hd hfresh.1, hrest.starts hg, if_neg Bool.false_ne_true]
      exact ih (rest_behind (hs ▸ List.suffix_cons _ _)) hfresh.2
  | attached hc hd hv =>
      exact (hg.shortOptions_switch hs hc hd (fresh_singleton.1 hfresh)).2
        ⟨[], _, _, _, rfl, Text.blank_nil, hv, rfl⟩
  | spaced hc hd hb _ hv =>
      exact (hg.shortOptions_switch hs hc hd (fresh_singleton.1 hfresh)).2
        ⟨_, _, _, _, rfl, hb, hv, rfl⟩

/-! ## what an item starts with -/

/-- A text with a dash in front looks like an option as the reader of items decides it. -/
theorem Checked.looksLikeOption_iff (hg : g.Checked) {r : List Char} :
    g.LooksLikeOption (dash :: r) ↔ r.head? = some dash ∨ g.startsShortOption r = true := by
  cases r with
  | nil => simp [LooksLikeOption, doubleDash, startsShortOption]
  | cons c r =>
      have hshort : (g.findShort c).isSome = true ↔ ∃ d, g.HasShort c d := by
        simp only [Option.isSome_iff_exists, hg.findShort_eq_some_iff]
      have hblank : Text.isAlphabetic c = true ∨ (∃ d, g.HasShort c d) →
          Text.isBlank c = false := by
        intro h
        rcases h with ha | ⟨d, hd⟩
        · exact Text.isBlank_of_isAlphabetic ha
        · exact (hg.validShort_of_hasShort hd).1
      simp only [LooksLikeOption, doubleDash, startsShortOption, Bool.and_eq_true, Bool.or_eq_true,
        Bool.not_eq_true', hshort, List.head?_cons, Option.some.injEq, List.cons.injEq, true_and]
      constructor
      · intro h
        rcases h with ⟨u, hu⟩ | ⟨a, u, ⟨rfl, rfl⟩, ha⟩
        · simp only [List.cons_append, List.nil_append, List.cons.injEq, true_and] at hu
          exact .inl hu.1.symm
        · exact .inr ⟨hblank ha, ha⟩
      · intro h
        rcases h with rfl | ⟨-, hc⟩
        · exact .inl ⟨r, rfl⟩
        · exact .inr ⟨c, r, ⟨rfl, rfl⟩, hc⟩

/-- A text without a dash in front does not look like an option. -/
theorem not_looksLikeOption {c : Char} {r : List Char} (hc : c ≠ dash) :
    ¬g.LooksLikeOption (c :: r) := by
  intro h
  rcases h with ⟨u, hu⟩ | ⟨a, u, hu, -⟩
  · exact hc (List.cons.inj hu).1.symm
  · exact hc (List.cons.inj hu).1

theorem marksEndOfOptions_iff {s : List Char} :
    marksEndOfOptions s = true ↔ ∃ t, s = doubleDash ++ t ∧ Text.atBoundary t = true := by
  unfold marksEndOfOptions
  split
  · next a b r =>
      simp only [Bool.and_eq_true, decide_eq_true_eq]
      constructor
      · intro h
        obtain ⟨⟨rfl, rfl⟩, hb⟩ := h
        exact ⟨r, rfl, hb⟩
      · intro h
        obtain ⟨t, ht, hb⟩ := h
        simp only [doubleDash, List.cons_append, List.nil_append, List.cons.injEq] at ht
        obtain ⟨rfl, rfl, rfl⟩ := ht
        exact ⟨⟨rfl, rfl⟩, hb⟩
  · next hs =>
      simp only [Bool.false_eq_true, false_iff]
      intro h
      obtain ⟨t, rfl, -⟩ := h
      exact hs dash dash t rfl

/-! ## items -/

/-- The progress behind an item, with `t` left to read. -/
def behindItem (p : Progress) (i : Item) (t : List Char) : Progress where
  cursor := p.cursor.leaving t
  supplied := note p.supplied i.supplies
  filled := p.filled + i.positional?.toList.length
  optionsEnabled := p.optionsEnabled && !i.isMark

/-- The item may come next: its options are new, or its value is that of the next positional. -/
def Admits (g : Grammar) (p : Progress) : Item → Prop
  | .options os => Fresh p.supplied os
  | .mark => True
  | .positional o => g.positionals[p.filled]? = some o.parameter

/-- A value is read for the next positional. -/
theorem positional_eq_ok_iff (hs : p.cursor.atBoundary = false) :
    positional g special p = .ok p' ↔
      ∃ d v t, g.positionals[p.filled]? = some d ∧ IsValue special d v p.cursor.rest t ∧
        p' = behindItem p (.positional ⟨d, v⟩) t := by
  have hbehind : ∀ d v t, behind { p with filled := p.filled + 1 } [⟨d, v⟩] t =
      behindItem p (.positional ⟨d, v⟩) t := fun d v t => by
    simp [behind, behindItem, Item.supplies, Item.positional?, Item.isMark]
  simp only [positional]
  cases hd : g.positionals[p.filled]? with
  | none => simp
  | some d =>
      have hvalue : readValue special d { p with filled := p.filled + 1 } = .ok p' ↔
          ∃ v t, IsValue special d v p.cursor.rest t ∧
            p' = behind { p with filled := p.filled + 1 } [⟨d, v⟩] t := readValue_eq_ok_iff hs
      simp only [hbehind] at hvalue
      refine hvalue.trans ⟨?_, ?_⟩
      · intro h
        obtain ⟨v, t, hv, rfl⟩ := h
        exact ⟨d, v, t, rfl, hv, rfl⟩
      · intro h
        obtain ⟨e, v, t, he, hv, rfl⟩ := h
        obtain rfl := Option.some.inj he
        exact ⟨v, t, hv, rfl⟩

theorem behindItem_options (he : p.optionsEnabled = true) (os : List Supply) (t : List Char) :
    behindItem p (.options os) t = behind p os t := by
  simp [behind, behindItem, Item.supplies, Item.positional?, Item.isMark, he]

/-- A long name and its value spell an option. -/
theorem spelled_of_longValue {long : String} {os : List Supply} {t u : List Char}
    (hd : d ∈ g.switches) (hl : d.long = some long) (ht : atNameEnd t = true)
    (hv : LongValue special d os t u) :
    Spelled g special true (.options os) (doubleDash ++ (long.toList ++ t)) u := by
  have hlong : g.HasLong long.toList d := ⟨hd, by rw [hl]; rfl⟩
  rw [← List.append_assoc]
  cases hv with
  | flag hk hne =>
      refine .longFlag hlong hk ?_
      cases t with
      | nil => rfl
      | cons a t =>
          have ha : a ≠ assignment := fun h => hne (by rw [h]; rfl)
          simpa [atNameEnd, ha] using ht
  | attached hk hval => exact .longAttached hlong (kind_eq_switch hd hk) hval
  | spaced hk hne hval =>
      obtain ⟨b, s, hb, rfl, hvalue⟩ := isValue_skipBlanks_iff.1 hval
      refine .longSpaced hlong (kind_eq_switch hd hk) hb (fun h => ?_) hvalue
      -- without blanks the name would end at an equals sign
      obtain ⟨a, r, rfl, ha⟩ := Text.atBoundary_eq_false_iff.1 hvalue.starts
      subst h
      rw [List.nil_append, List.head?_cons] at hne
      simp only [List.nil_append, atNameEnd, ha, Bool.false_or, decide_eq_true_eq] at ht
      exact hne (by rw [ht])

/-- The mark is claimed whole. -/
theorem mark_eq_behindItem {t : List Char} (hs : p.cursor.rest = doubleDash ++ t) :
    { p with cursor := p.cursor.advance doubleDash.length, optionsEnabled := false } =
      behindItem p .mark t := by
  have hcursor : p.cursor.advance doubleDash.length = p.cursor.leaving t :=
    eq_leaving rfl (by rw [Cursor.rest_advance, hs, List.drop_left])
  simp [behindItem, note, Item.supplies, Item.positional?, Item.isMark, hcursor]

/-- What does not look like an option is a positional value. -/
theorem Checked.item_eq_positional (hg : g.Checked) {s : List Char} (hs : p.cursor.rest = s)
    (hlook : p.optionsEnabled = true → ¬g.LooksLikeOption s) :
    g.item special p = g.positional special p := by
  rw [item, hs]
  cases s with
  | nil => rfl
  | cons c r =>
      cases he : p.optionsEnabled with
      | false => simp
      | true =>
          by_cases hc : c = dash
          · subst hc
            have hno := hlook he
            rw [hg.looksLikeOption_iff, not_or] at hno
            have hmark : marksEndOfOptions (dash :: r) = false := by
              cases r with
              | nil => rfl
              | cons a r => simp [marksEndOfOptions, show a ≠ dash by simpa using hno.1]
            simp [hmark, hno.1, hno.2]
          · simp [hc]

/-- What is read as an option or as the mark is spelled there. -/
theorem Checked.spelled_of_option (hg : g.Checked) {r : List Char}
    (hs : p.cursor.rest = dash :: r) (he : p.optionsEnabled = true)
    (hlook : g.LooksLikeOption (dash :: r)) (h : g.item special p = .ok p') :
    ∃ i t, Spelled g special true i (dash :: r) t ∧ Admits g p i ∧ p' = behindItem p i t := by
  simp only [item, hs, he, decide_true, Bool.and_self, if_true] at h
  by_cases hmark : marksEndOfOptions (dash :: r) = true
  · rw [if_pos hmark] at h
    obtain ⟨t, ht, hbt⟩ := marksEndOfOptions_iff.1 hmark
    refine ⟨.mark, t, ht ▸ .mark hbt, trivial, ?_⟩
    rw [← mark_eq_behindItem (hs.trans ht)]
    exact (Except.ok.inj h).symm
  rw [if_neg hmark] at h
  by_cases hlong : r.head? = some dash
  · rw [if_pos hlong] at h
    obtain ⟨s, rfl⟩ := List.head?_eq_some_iff.1 hlong
    obtain ⟨d, long, t, os, u, hd, hl, rfl, ht, hv, hfresh, rfl⟩ :=
      (hg.longOption_eq_ok_iff (s := s) hs).1 h
    exact ⟨.options os, u, spelled_of_longValue hd hl ht hv, hfresh,
      (behindItem_options he os u).symm⟩
  · have hshort := (hg.looksLikeOption_iff.1 hlook).resolve_left hlong
    rw [if_neg hlong, if_pos hshort] at h
    let q : Progress := { p with cursor := p.cursor.advance 1, optionsEnabled := true }
    have hrest : q.cursor.rest = r := Cursor.rest_advance_one hs
    have hne : r ≠ [] := fun h' => by rw [h'] at hshort; contradiction
    obtain ⟨os, t, hcluster, hfresh, rfl⟩ :=
      hg.cluster_of_shortOptions hrest hne h
    refine ⟨.options os, t, .cluster hcluster, hfresh, ?_⟩
    rw [behindItem_options he]
    simp only [behind, he]
    rfl

/-- What is read as an item is spelled there, and the item may come next. -/
theorem Checked.spelled_of_item (hg : g.Checked) {s : List Char} (hs : p.cursor.rest = s)
    (hstart : Text.atBoundary s = false) (h : g.item special p = .ok p') :
    ∃ i t, Spelled g special p.optionsEnabled i s t ∧ Admits g p i ∧ p' = behindItem p i t := by
  by_cases hlook : p.optionsEnabled = true ∧ g.LooksLikeOption s
  · obtain ⟨he, hlook⟩ := hlook
    obtain ⟨c, r, rfl, -⟩ := Text.atBoundary_eq_false_iff.1 hstart
    obtain rfl : c = dash := by
      by_contra hc
      exact not_looksLikeOption hc hlook
    rw [he]
    exact hg.spelled_of_option hs he hlook h
  · have hb : p.cursor.atBoundary = false := by rw [Cursor.atBoundary, hs, hstart]
    have hno : p.optionsEnabled = true → ¬g.LooksLikeOption s := fun he hl => hlook ⟨he, hl⟩
    rw [hg.item_eq_positional hs hno] at h
    obtain ⟨d, v, t, hd, hv, rfl⟩ := (positional_eq_ok_iff hb).1 h
    rw [hs] at hv
    refine ⟨.positional ⟨d, v⟩, t, ?_, hd, rfl⟩
    cases he : p.optionsEnabled with
    | true => exact .value hv (hno he)
    | false => exact .valueBehindMark hv

/-- A dash with a short name behind it starts short options. -/
theorem Checked.item_eq_shortOptions (hg : g.Checked) {c : Char} {r : List Char}
    (hs : p.cursor.rest = dash :: c :: r) (he : p.optionsEnabled = true) (hc : g.HasShort c d) :
    g.item special p =
      g.shortOptions special p.cursor.offset { p with cursor := p.cursor.advance 1 } := by
  obtain ⟨hblank, hne, -⟩ := hg.validShort_of_hasShort hc
  have hshort : g.startsShortOption (c :: r) = true := by
    simp [startsShortOption, hblank, hg.findShort_eq_some_iff.2 hc]
  rw [item, hs]
  simp only [he, marksEndOfOptions, hne, hshort, List.head?_cons, Option.some.injEq,
    decide_true, decide_false, Bool.and_false, Bool.false_and, Bool.and_self,
    Bool.false_eq_true, if_true, if_false]

/-- Behind two dashes and a long name nothing else is tried. -/
theorem Checked.item_eq_longOption (hg : g.Checked) {long s : List Char}
    (hs : p.cursor.rest = doubleDash ++ long ++ s) (he : p.optionsEnabled = true)
    (hl : g.HasLong long d) : g.item special p = g.longOption special p := by
  obtain ⟨name, hname, rfl⟩ := Option.map_eq_some_iff.1 hl.2
  obtain ⟨a, r, hcons, -, ha⟩ := hg.long_eq_cons (mem_switches.1 hl.1).1 hname
  have hmark : marksEndOfOptions (doubleDash ++ (name.toList ++ s)) = false := by
    rw [hcons]
    simp [marksEndOfOptions, doubleDash, ha]
  rw [item, hs, List.append_assoc]
  simp only [doubleDash, List.cons_append, List.nil_append] at hmark ⊢
  simp [he, hmark]

/-- Merged short options behind a dash are read. -/
theorem Checked.item_of_cluster (hg : g.Checked) {os : List Supply} {s t : List Char}
    (hs : p.cursor.rest = dash :: s) (he : p.optionsEnabled = true)
    (hcluster : Cluster g special os s t) (hfresh : Fresh p.supplied os) :
    g.item special p = .ok (behindItem p (.options os) t) := by
  obtain ⟨c, r, rfl, -⟩ := Text.atBoundary_eq_false_iff.1 (hcluster.starts hg)
  obtain ⟨d, hc⟩ := hcluster.exists_hasShort
  rw [behindItem_options he, hg.item_eq_shortOptions hs he hc]
  exact hg.shortOptions_of_cluster hcluster (Cursor.rest_advance_one hs) hfresh

/-- A long name with its value is read. -/
theorem Checked.item_of_longValue (hg : g.Checked) {long : List Char} {os : List Supply}
    {s t : List Char} (hs : p.cursor.rest = doubleDash ++ long ++ s) (he : p.optionsEnabled = true)
    (hl : g.HasLong long d) (hend : atNameEnd s = true) (hv : LongValue special d os s t)
    (hfresh : Fresh p.supplied os) : g.item special p = .ok (behindItem p (.options os) t) := by
  obtain ⟨name, hname, hlong⟩ := Option.map_eq_some_iff.1 hl.2
  rw [behindItem_options he, hg.item_eq_longOption hs he hl]
  rw [List.append_assoc] at hs
  exact (hg.longOption_eq_ok_iff hs).2
    ⟨d, name, s, os, t, hl.1, hname, by rw [hlong], hend, hv, hfresh, rfl⟩

/-- An item that is spelled and may come next is read. -/
theorem Checked.item_of_spelled (hg : g.Checked) {i : Item} {s t : List Char}
    (hs : p.cursor.rest = s) (h : Spelled g special p.optionsEnabled i s t)
    (hadmits : Admits g p i) : g.item special p = .ok (behindItem p i t) := by
  -- a value is read for the next positional
  have hpositional : ∀ {d v}, IsValue special d v s t → i = .positional ⟨d, v⟩ →
      (p.optionsEnabled = true → ¬g.LooksLikeOption s) →
      g.item special p = .ok (behindItem p i t) := by
    intro d v hv hi hlook
    subst hi
    have hb : p.cursor.atBoundary = false := by rw [Cursor.atBoundary, hs, hv.starts]
    rw [hg.item_eq_positional hs hlook]
    exact (positional_eq_ok_iff hb).2 ⟨d, v, t, hadmits, hs ▸ hv, rfl⟩
  generalize he : p.optionsEnabled = enabled at h hpositional
  cases h with
  | cluster hcluster => exact hg.item_of_cluster hs he hcluster hadmits
  | longFlag hl hd ht =>
      exact hg.item_of_longValue hs he hl (atNameEnd_of_atBoundary ht)
        (.flag hd (head?_ne_assignment ht)) hadmits
  | longAttached hl hd hv =>
      exact hg.item_of_longValue hs he hl (by simp [atNameEnd]) (.attached (by simp [hd]) hv)
        hadmits
  | @longSpaced long d b v s t hl hd hb hne hv =>
      have hboundary := Text.atBoundary_append_of_ne_nil (s := s) hb hne
      have hvalue := isValue_skipBlanks_iff.2 ⟨b, s, hb, rfl, hv⟩
      exact hg.item_of_longValue hs he hl (atNameEnd_of_atBoundary hboundary)
        (.spaced (by simp [hd]) (head?_ne_assignment hboundary) hvalue) hadmits
  | mark ht =>
      have hmark := marksEndOfOptions_iff.2 ⟨t, rfl, ht⟩
      rw [← mark_eq_behindItem hs, item, hs]
      simp only [doubleDash, List.cons_append, List.nil_append] at hmark ⊢
      simp [he, hmark]
  | value hv ho => exact hpositional hv rfl fun _ => ho
  | valueBehindMark hv => exact hpositional hv rfl fun h => absurd h Bool.false_ne_true

/-! ## extent of an item -/

/-- An item starts with a character other than a blank. -/
theorem Spelled.starts {enabled : Bool} {i : Item} {s t : List Char}
    (h : Spelled g special enabled i s t) : Text.atBoundary s = false := by
  have hdash : Text.isBlank dash = false := by decide
  cases h with
  | cluster => exact hdash
  | longFlag => exact hdash
  | longAttached => exact hdash
  | longSpaced => exact hdash
  | mark => exact hdash
  | value hv => exact hv.starts
  | valueBehindMark hv => exact hv.starts

/-- What follows an item is shorter than what it starts. -/
theorem Spelled.suffix {enabled : Bool} {i : Item} {s t : List Char}
    (h : Spelled g special enabled i s t) : t <:+ s ∧ t.length < s.length := by
  -- behind a prefix that is not empty, any suffix is shorter
  have hbehind : ∀ {u v : List Char}, u ≠ [] → t <:+ v →
      t <:+ u ++ v ∧ t.length < (u ++ v).length :=
    fun {u v} hu hv => ⟨hv.trans (List.suffix_append u v), by
      have := List.length_pos_iff.2 hu
      have := hv.length_le
      rw [List.length_append]
      omega⟩
  have hne : ∀ {long : List Char}, doubleDash ++ long ≠ [] := by simp [doubleDash]
  cases h with
  | cluster hc => exact hbehind (u := [dash]) (by simp) hc.suffix
  | longFlag => exact hbehind hne (List.suffix_refl t)
  | longAttached _ _ hv => exact hbehind hne (hv.suffix.trans (List.suffix_cons _ _))
  | longSpaced _ _ _ _ hv => exact hbehind hne (hv.suffix.trans (List.suffix_append _ _))
  | mark => exact hbehind (by simp [doubleDash]) (List.suffix_refl t)
  | value hv => exact ⟨hv.suffix, hv.length_lt⟩
  | valueBehindMark hv => exact ⟨hv.suffix, hv.length_lt⟩

/-- Options supply switches and flags. -/
theorem Cluster.mem_switches {os : List Supply} {s t : List Char} (h : Cluster g special os s t) :
    ∀ o ∈ os, o.parameter ∈ g.switches := by
  induction h with
  | flag hc | attached hc | spaced hc =>
      intro o ho
      rw [List.mem_singleton.1 ho]
      exact hc.1
  | merged hc _ _ ih =>
      intro o ho
      rcases List.mem_cons.1 ho with rfl | ho
      · exact hc.1
      · exact ih o ho

theorem Spelled.mem_switches {enabled : Bool} {os : List Supply} {s t : List Char}
    (h : Spelled g special enabled (.options os) s t) : ∀ o ∈ os, o.parameter ∈ g.switches := by
  cases h with
  | cluster hc => exact hc.mem_switches
  | longFlag hl | longAttached hl | longSpaced hl =>
      intro o ho
      rw [List.mem_singleton.1 ho]
      exact hl.1

end TypedConsole.Grammar
