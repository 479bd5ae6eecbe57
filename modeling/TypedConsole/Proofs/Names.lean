import TypedConsole.Proofs.Building
import TypedConsole.Proofs.CommandLine
import Mathlib.Data.List.Pairwise

/-!
# TypedConsole.Proofs.Names

Looking up options by their names.  In a checked grammar a short name has at most one owner, and
the long name at the front of a text is the run of characters up to a blank or an equals sign, so
that at most one long name can be found there.
-/

namespace TypedConsole.Grammar

variable {g : Grammar} {d e : Descriptor} {c : Char}

/-! ## owners -/

theorem mem_switches : d ∈ g.switches ↔ d ∈ g.parameters ∧ d.kind ≠ .positional := by
  simp [switches]

/-- A name that the members of a list do not share has one owner. -/
theorem eq_of_name_eq {name : Descriptor → Option α} {ds : List Descriptor} {a : α}
    (h : ds.Pairwise fun d e => ∀ a ∈ name d, a ∉ name e) (hd : d ∈ ds) (he : e ∈ ds)
    (hda : name d = some a) (hea : name e = some a) : d = e := by
  have hsymm : Std.Symm fun d e : Descriptor => ∀ a ∈ name d, a ∉ name e :=
    ⟨fun _ _ h a ha ha' => h a ha' ha⟩
  by_contra hne
  exact h.forall hd he hne a hda hea

/-- Looking up a name that the members of a list do not share finds its owner. -/
theorem find?_name_eq_some_iff [DecidableEq α] {name : Descriptor → Option α}
    {ds : List Descriptor} {a : α} (h : ds.Pairwise fun d e => ∀ a ∈ name d, a ∉ name e) :
    ds.find? (name · = some a) = some d ↔ d ∈ ds ∧ name d = some a := by
  constructor
  · intro h
    exact ⟨List.mem_of_find?_eq_some h, by simpa using List.find?_some h⟩
  · intro hd
    cases hf : ds.find? (name · = some a) with
    | none => exact absurd hd.2 (by simpa using List.find?_eq_none.1 hf d hd.1)
    | some e =>
        have he : name e = some a := by simpa using List.find?_some hf
        rw [eq_of_name_eq h hd.1 (List.mem_of_find?_eq_some hf) hd.2 he]

/-- Looking up a short name finds its owner. -/
theorem Checked.findShort_eq_some_iff (hg : g.Checked) :
    g.findShort c = some d ↔ g.HasShort c d := find?_name_eq_some_iff (hg.shorts.filter _)

/-- Looking up a long name finds its owner. -/
theorem Checked.findLong_eq_some_iff (hg : g.Checked) {long : String} :
    g.findLong long = some d ↔ d ∈ g.switches ∧ d.long = some long :=
  find?_name_eq_some_iff (hg.longs.filter _)

/-- A short name can be typed. -/
theorem Checked.validShort_of_hasShort (hg : g.Checked) (h : g.HasShort c d) :
    Text.isBlank c = false ∧ c ≠ dash ∧ c ≠ assignment := by
  have hvalid := hg.short d (mem_switches.1 h.1).1 c h.2
  simpa [validShort, and_assoc, not_or] using hvalid

/-! ## long names at the front of a text -/

/-- A character that ends no name. -/
def isNameChar (c : Char) : Bool := !(Text.isBlank c || c = assignment)

/-- The text is at the end of a name if no character of a name comes next. -/
theorem atNameEnd_iff {s : List Char} :
    atNameEnd s = true ↔ ∀ a ∈ s.head?, isNameChar a = false := by
  cases s with
  | nil => simp [atNameEnd]
  | cons c s => simp [atNameEnd, isNameChar, or_iff_not_imp_left]

/-- A blank or the end of the line ends a name. -/
theorem atNameEnd_of_atBoundary {s : List Char} (h : Text.atBoundary s = true) :
    atNameEnd s = true := by
  cases s with
  | nil => rfl
  | cons c s => simpa [atNameEnd] using .inl h

theorem head?_ne_assignment {s : List Char} (h : Text.atBoundary s = true) :
    s.head? ≠ some assignment := by
  intro hs
  obtain ⟨r, rfl⟩ := List.head?_eq_some_iff.1 hs
  exact absurd (Text.atBoundary_cons.symm.trans h) (by decide)

theorem nameAt_append {long t : List Char} (hl : ∀ a ∈ long, isNameChar a = true)
    (ht : atNameEnd t = true) : nameAt (long ++ t) = long :=
  takeWhile_append_eq_left hl (atNameEnd_iff.1 ht)

/-- A long name stands at the front of a text exactly if it is the name there. -/
theorem startsWithLong_iff {long : String} {s : List Char} :
    startsWithLong long s = true ↔
      ∃ t, s = long.toList ++ t ∧ atNameEnd t = true := by
  simp only [startsWithLong, Bool.and_eq_true, List.isPrefixOf_iff_prefix]
  constructor
  · intro h
    obtain ⟨⟨t, rfl⟩, hend⟩ := h
    refine ⟨t, rfl, ?_⟩
    rwa [← String.length_toList, List.drop_left] at hend
  · intro h
    obtain ⟨t, rfl, hend⟩ := h
    refine ⟨List.prefix_append _ _, ?_⟩
    rwa [← String.length_toList, List.drop_left]

/-- The characters of a long name. -/
theorem Checked.isNameChar_long (hg : g.Checked) {long : String} (hd : d ∈ g.parameters)
    (hl : d.long = some long) : ∀ a ∈ long.toList, isNameChar a = true := by
  intro a ha
  obtain ⟨hvalid, hblank⟩ := hg.long d hd long hl
  have hne : a ≠ assignment := fun h => by
    subst h
    simp [validLong, ha] at hvalid
  simp [isNameChar, hblank a ha, hne]

/-- A long name starts with a character other than a dash. -/
theorem Checked.long_eq_cons (hg : g.Checked) {long : String} (hd : d ∈ g.parameters)
    (hl : d.long = some long) :
    ∃ a r, long.toList = a :: r ∧ a ≠ dash ∧ Text.isBlank a = false := by
  obtain ⟨hvalid, hblank⟩ := hg.long d hd long hl
  cases hlong : long.toList with
  | nil => simp [validLong, hlong] at hvalid
  | cons a r =>
      refine ⟨a, r, rfl, fun h => ?_, hblank a (hlong ▸ List.mem_cons_self)⟩
      subst h
      simp [validLong, hlong] at hvalid

/-! ## the choice of a long name -/

theorem mem_of_foldl_longer {best : Option (Descriptor × String)}
    {ds : List (Descriptor × String)} {x : Descriptor × String}
    (h : ds.foldl longer best = some x) : best = some x ∨ x ∈ ds := by
  induction ds generalizing best with
  | nil => exact .inl h
  | cons y ds ih =>
      rcases ih h with hbest | hmem
      · rw [longer.eq_def] at hbest
        split at hbest
        · exact .inr (Option.some.inj hbest ▸ List.mem_cons_self)
        · split at hbest
          · exact .inr (Option.some.inj hbest ▸ List.mem_cons_self)
          · exact .inl hbest
      · exact .inr (List.mem_cons_of_mem y hmem)

theorem isSome_foldl_longer (best : Option (Descriptor × String))
    {ds : List (Descriptor × String)} (h : best.isSome = true ∨ ds ≠ []) :
    (ds.foldl longer best).isSome = true := by
  induction ds generalizing best with
  | nil => simpa using h
  | cons y ds ih =>
      refine ih _ (.inl ?_)
      rw [longer.eq_def]
      split
      · rfl
      · split <;> rfl

/-- **The long option at the front of a text is the one whose long name is the name there.** -/
theorem Checked.matchLong_eq_some_iff (hg : g.Checked) {long : String} {s : List Char} :
    g.matchLong s = some (d, long) ↔
      d ∈ g.switches ∧ d.long = some long ∧ ∃ t, s = long.toList ++ t ∧ atNameEnd t = true := by
  have hcandidate : ∀ x : Descriptor × String,
      x ∈ (g.switches.filterMap fun d => d.long.map fun long => (d, long)).filter
        (fun d => startsWithLong d.2 s) ↔
      x.1 ∈ g.switches ∧ x.1.long = some x.2 ∧
        ∃ t, s = x.2.toList ++ t ∧ atNameEnd t = true := by
    intro h
    obtain ⟨e, l⟩ := h
    simp only [List.mem_filter, List.mem_filterMap, Option.map_eq_some_iff, Prod.mk.injEq]
    constructor
    · intro h
      obtain ⟨⟨_, hd, _, hl, rfl, rfl⟩, hs⟩ := h
      exact ⟨hd, hl, startsWithLong_iff.1 hs⟩
    · intro h
      obtain ⟨hd, hl, hs⟩ := h
      exact ⟨⟨e, hd, l, hl, rfl, rfl⟩,
        startsWithLong_iff.2 hs⟩
  simp only [matchLong]
  constructor
  · intro h
    rcases mem_of_foldl_longer h with hnone | hmem
    · contradiction
    · exact (hcandidate _).1 hmem
  · intro h
    have hmem := (hcandidate (d, long)).2 h
    obtain ⟨⟨e, l⟩, hfound⟩ := Option.isSome_iff_exists.1
      (isSome_foldl_longer none (.inr (List.ne_nil_of_mem hmem)))
    rcases mem_of_foldl_longer hfound with hnone | hother
    · contradiction
    · -- both names are the name at the front of the text
      obtain ⟨hd, hdl, t, hst, ht⟩ := h
      obtain ⟨he, hel, u, hsu, hu⟩ := (hcandidate _).1 hother
      have hnames : l.toList = long.toList := by
        rw [← nameAt_append (hg.isNameChar_long (mem_switches.1 he).1 hel) hu, ← hsu, hst,
          nameAt_append (hg.isNameChar_long (mem_switches.1 hd).1 hdl) ht]
      obtain rfl := String.toList_inj.1 hnames
      obtain rfl := eq_of_name_eq hg.longs (mem_switches.1 he).1 (mem_switches.1 hd).1 hel hdl
      exact hfound

end TypedConsole.Grammar
