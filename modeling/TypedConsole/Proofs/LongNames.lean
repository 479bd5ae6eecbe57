import TypedConsole.Proofs.Continuation

/-!
# TypedConsole.Proofs.LongNames

A long option is looked up by searching all switches for names that stand at the front of the text,
and taking the longest.  In a built grammar this is the same as looking up the one name that stands
there, up to a blank or an equals sign: the search never finds two names, so neither their lengths
nor the order of the declarations decide anything.
-/

namespace TypedConsole.Grammar

variable {g : Grammar} {d : Descriptor} {w t : List Char}

/-! ## candidates -/

/-- The switches and flags whose long names stand at the front of the text and end there. -/
def longCandidates (g : Grammar) (s : List Char) : List (Descriptor × String) :=
  (g.switches.filterMap fun d => d.long.map fun long => (d, long)).filter
    fun d => startsWithLong d.2 s

/-- The longest of the candidates is chosen. -/
theorem matchLong_eq_foldl_longer (g : Grammar) (s : List Char) :
    g.matchLong s = (g.longCandidates s).foldl longer none := rfl

/-- If the members of a list share no names, those with a given name are what looking it up
finds. -/
theorem filter_named_eq_toList [DecidableEq α] {name : Descriptor → Option α}
    {ds : List Descriptor} (h : ds.Pairwise fun d e => ∀ a ∈ name d, a ∉ name e) (a : α) :
    (ds.filterMap fun d => (name d).map fun b => (d, b)).filter (fun d => d.2 = a) =
      ((ds.find? (name · = some a)).map fun d => (d, a)).toList := by
  induction ds with
  | nil => rfl
  | cons d ds ih =>
      obtain ⟨hd, hds⟩ := List.pairwise_cons.1 h
      cases hname : name d with
      | none => simpa [hname] using ih hds
      | some b =>
          by_cases hb : b = a
          · -- the name has its owner, and no further one
            subst hb
            have hrest : (ds.find? fun e => name e = some b) = none :=
              List.find?_eq_none.2 fun e he => by simpa using hd e he b hname
            have hfilter := ih hds
            rw [hrest] at hfilter
            simp only [List.filterMap_cons, List.find?_cons, hname, Option.map_some,
              List.filter_cons, decide_true, if_true, hfilter]
            rfl
          · simpa [hname, hb] using ih hds

/-- A long name stands at the front of a text exactly if it is the whole name there. -/
theorem Checked.startsWithLong_append (hg : g.Checked) (hd : d ∈ g.parameters) {long : String}
    (hl : d.long = some long) (hw : ∀ c ∈ w, isNameChar c = true) (ht : atNameEnd t = true) :
    startsWithLong long (w ++ t) = decide (long = String.ofList w) := by
  rw [Bool.eq_iff_iff, startsWithLong_iff, decide_eq_true_iff]
  constructor
  · rintro ⟨u, hu, hend⟩
    rw [← String.ofList_toList (s := long), ← nameAt_append (hg.isNameChar_long hd hl) hend, ← hu,
      nameAt_append hw ht]
  · rintro rfl
    exact ⟨t, by rw [String.toList_ofList], ht⟩

/-- **The only candidate is the owner of the name at the front of the text.** -/
theorem Checked.longCandidates_append (hg : g.Checked) (hw : ∀ c ∈ w, isNameChar c = true)
    (ht : atNameEnd t = true) :
    g.longCandidates (w ++ t) =
      ((g.findLong (String.ofList w)).map fun d => (d, String.ofList w)).toList := by
  have hlongs : g.switches.Pairwise fun d e => ∀ a ∈ d.long, a ∉ e.long := hg.longs.filter _
  rw [findLong, ← filter_named_eq_toList hlongs, longCandidates]
  refine List.filter_congr fun x hx => ?_
  obtain ⟨d, hd, hx⟩ := List.mem_filterMap.1 hx
  obtain ⟨long, hl, rfl⟩ := Option.map_eq_some_iff.1 hx
  exact hg.startsWithLong_append (mem_switches.1 hd).1 hl hw ht

/-- The choice among the candidates is the look-up of the name. -/
theorem Checked.matchLong_append_eq_findLong (hg : g.Checked)
    (hw : ∀ c ∈ w, isNameChar c = true) (ht : atNameEnd t = true) :
    g.matchLong (w ++ t) =
      (g.findLong (String.ofList w)).map fun d => (d, String.ofList w) := by
  rw [matchLong_eq_foldl_longer, hg.longCandidates_append hw ht]
  cases g.findLong (String.ofList w) with
  | none => rfl
  | some d => rfl

/-! ## long options -/

/-- Reading a long option by the look-up of its name. -/
theorem Checked.longOption_eq_findLong (hg : g.Checked) {special : SpecialSet} {p : Progress}
    (hp : p.cursor.rest = doubleDash ++ (w ++ t)) (hw : ∀ c ∈ w, isNameChar c = true)
    (ht : atNameEnd t = true) :
    g.longOption special p =
      (match g.findLong (String.ofList w) with
      | none => .error (.unknownOption (String.ofList (doubleDash ++ w)) p.cursor.offset)
      | some d => do
        checkFresh p d p.cursor.offset
        longValue special d { p with cursor := p.cursor.leaving t }) := by
  have hnamed : (p.cursor.advance doubleDash.length).rest = w ++ t := by
    rw [Cursor.rest_advance, hp, List.drop_left]
  have hbehind : (p.cursor.advance doubleDash.length).advance (String.ofList w).length =
      p.cursor.leaving t := by
    refine eq_leaving rfl ?_
    rw [Cursor.rest_advance, hnamed, ← String.length_toList, String.toList_ofList, List.drop_left]
  simp only [longOption, hnamed, nameAt_append hw ht, hg.matchLong_append_eq_findLong hw ht]
  cases g.findLong (String.ofList w) with
  | none => rfl
  | some d => simp only [Option.map_some, hbehind]

/-- Where options are recognised, two dashes that do not end them start a long option. -/
theorem item_eq_longOption {special : SpecialSet} {p : Progress} {s : List Char}
    (hp : p.cursor.rest = doubleDash ++ s) (henabled : p.optionsEnabled = true)
    (hs : Text.atBoundary s = false) : g.item special p = g.longOption special p := by
  have hmark : marksEndOfOptions (dash :: dash :: s) = false := by simp [marksEndOfOptions, hs]
  have hrest : p.cursor.rest = dash :: dash :: s := hp
  simp [item, hrest, henabled, hmark]

/-- **Long options resolve by exact name.**  Let `w` be the name behind two dashes, up to a blank,
an equals sign or the end of the line.  The option selects a parameter exactly if looking up `w`
finds it, that is, if `w` is its whole long name.  The search for names at the front of the text
never finds more than this one, and if it finds none, the option is unknown as `--w`.  Parsers from
outside keep the contract of `CustomParser`. -/
theorem long_option_resolves_exactly {ps : List Parameter} {r : Registry}
    (hps : ∀ p ∈ ps, p.Declared) (hb : (build ps r).1 = .ok g) (special : SpecialSet)
    {p : Progress} (hp : p.cursor.rest = doubleDash ++ (w ++ t))
    (hw : ∀ c ∈ w, Text.isBlank c = false ∧ c ≠ assignment)
    (ht : ∀ c ∈ t.head?, Text.isBlank c = true ∨ c = assignment) :
    (∀ d long, g.matchLong (w ++ t) = some (d, long) ↔
      g.findLong (String.ofList w) = some d ∧ long = String.ofList w) ∧
    (∀ d, g.findLong (String.ofList w) = some d ↔
      d ∈ g.switches ∧ d.long = some (String.ofList w)) ∧
    (g.longCandidates (w ++ t)).length ≤ 1 ∧
    (p.optionsEnabled = true → Text.atBoundary (w ++ t) = false →
      g.item special p = g.longOption special p) ∧
    g.longOption special p =
      (match g.findLong (String.ofList w) with
      | none => .error (.unknownOption (String.ofList (doubleDash ++ w)) p.cursor.offset)
      | some d => do
        checkFresh p d p.cursor.offset
        longValue special d { p with cursor := p.cursor.leaving t }) := by
  have hg := checked_of_build hps hb
  have hname : ∀ c ∈ w, isNameChar c = true := fun c hc => by simpa [isNameChar] using hw c hc
  have hend : atNameEnd t = true := atNameEnd_iff.2 fun c hc => by
    simpa [isNameChar, or_iff_not_imp_left] using ht c hc
  refine ⟨fun d long => ?_, fun d => hg.findLong_eq_some_iff, ?_,
    fun henabled hs => item_eq_longOption hp henabled hs,
    hg.longOption_eq_findLong hp hname hend⟩
  · rw [hg.matchLong_append_eq_findLong hname hend, Option.map_eq_some_iff]
    constructor
    · rintro ⟨e, he, hpair⟩
      obtain ⟨rfl, rfl⟩ := Prod.mk.inj hpair
      exact ⟨he, rfl⟩
    · rintro ⟨hd, rfl⟩
      exact ⟨d, hd, rfl⟩
  · rw [hg.longCandidates_append hname hend]
    exact Option.length_toList_le

/-! ## a name that starts with another -/

/-- Two switches, where one long name is the beginning of the other. -/
def sizes : List Parameter :=
  [(Parameter.switch (.integer .u8) 'a').withLong "size",
    (Parameter.switch (.integer .u8) 'b').withLong "size-max"]

theorem declared_sizes : ∀ p ∈ sizes, p.Declared := by
  intro p hp
  rcases List.mem_cons.1 hp with rfl | hp
  · exact .withLong _ (.optional (.requiredSwitch _ _))
  · obtain rfl := List.mem_singleton.1 hp
    exact .withLong _ (.optional (.requiredSwitch _ _))

/-- The descriptors of the two. -/
def sizeDescriptors : List Descriptor :=
  [describe 0 ((Parameter.switch (.integer .u8) 'a').withLong "size") (.integer .u8) (.integer 0),
    describe 1 ((Parameter.switch (.integer .u8) 'b').withLong "size-max") (.integer .u8)
      (.integer 0)]

theorem build_sizes : (build sizes (.empty fun _ _ => none)).1 = .ok ⟨sizeDescriptors⟩ := rfl

/-- The shorter of the two names, with a value attached. -/
theorem long_option_size :
    (begin ⟨sizeDescriptors⟩ "--size=1".toList).cursor.rest =
      doubleDash ++ ("size".toList ++ "=1".toList) ∧
    (longCandidates ⟨sizeDescriptors⟩ ("size".toList ++ "=1".toList)).length ≤ 1 ∧
    ∃ d, findLong ⟨sizeDescriptors⟩ "size" = some d ∧ d.index = 0 := by
  have hrest : (begin ⟨sizeDescriptors⟩ "--size=1".toList).cursor.rest =
      doubleDash ++ ("size".toList ++ "=1".toList) := by decide
  have hname : ∀ c ∈ "size".toList, Text.isBlank c = false ∧ c ≠ assignment := by
    rw [show "size".toList = ['s', 'i', 'z', 'e'] from rfl]
    simp only [List.forall_mem_cons]
    exact ⟨by decide, by decide, by decide, by decide, by simp⟩
  obtain ⟨-, hfind, hone, -⟩ := long_option_resolves_exactly declared_sizes build_sizes .builtIn
    hrest hname fun c hc => .inr (Option.some.inj hc).symm
  exact ⟨hrest, hone, _, (hfind _).2 ⟨List.mem_cons_self, rfl⟩, rfl⟩

end TypedConsole.Grammar
