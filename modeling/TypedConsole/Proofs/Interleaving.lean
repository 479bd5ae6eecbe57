import TypedConsole.Proofs.Alike
import TypedConsole.Proofs.Lookahead
import Mathlib.Data.List.Perm.Basic

/-!
# TypedConsole.Proofs.Interleaving

The order of options does not matter, nor where they stand between the positional values.

An option that is read alone is read the same with a blank and anything else behind it, since
parsers look one character ahead (`Spelled.append`).  So a line that is put together from
options and positional values consists of the items that these are alone (`line_of_shuffle`), and
what the items note does not depend on their order, as they supply different parameters
(`note_eq_of_perm`).
-/

namespace TypedConsole.Grammar

/-! ## lines that are put together -/

/-- `Shuffle as bs cs`: the list `cs` consists of the members of `as` and of `bs`, those of each in
their order. -/
inductive Shuffle : List α → List α → List α → Prop
  | nil : Shuffle [] [] []
  | left (h : Shuffle as bs cs) : Shuffle (a :: as) bs (a :: cs)
  | right (h : Shuffle as bs cs) : Shuffle as (b :: bs) (b :: cs)

/-- `Separated ws s`: the text `s` consists of the words `ws`, with a blank or the end of the text
behind each of them, and perhaps blanks at the ends. -/
inductive Separated : List (List Char) → List Char → Prop
  | blank (hb : Text.Blank b) : Separated [] b
  | word (hb : Text.Blank b) (hs : Text.atBoundary s = true) (rest : Separated ws s) :
      Separated (w :: ws) (b ++ (w ++ s))

/-- The text consists of the options in any order, and the literals in their order between them. -/
def Interleaved (options literals : List (List Char)) (text : List Char) : Prop :=
  ∃ permuted words, permuted.Perm options ∧ Shuffle permuted literals words ∧ Separated words text

/-- The text is an option, or several merged ones: when it is read alone it is claimed whole
without a fault, and then the reading stands at `p`. -/
structure ReadAlone (g : Grammar) (special : SpecialSet) (s : List Char) (p : Progress) :
    Prop where
  option : g.LooksLikeOption s
  notMark : s ≠ doubleDash
  item : g.item special (g.begin s) = .ok p
  whole : p.cursor.rest = []

/-- Something has been supplied under the index. -/
def Supplied (p : Progress) (k : Nat) : Prop := (p.supplied[k]?.join).isSome = true

/-- The text is a value of the parameter: its parser claims it whole, its number of elements is
permitted, and it starts neither with a blank nor like an option. -/
def IsLiteral (g : Grammar) (special : SpecialSet) (d : Descriptor) (s : List Char) : Prop :=
  (∃ v, IsValue special d v s []) ∧ ¬g.LooksLikeOption s

variable {g : Grammar} {special : SpecialSet} {d : Descriptor} {p : Progress}

/-! ## items with something behind them -/

/-- A value is the same with a blank behind it. -/
theorem IsValue.append (hd : d.parser.Synthesized) {v : Value} {s z : List Char}
    (h : IsValue special d v s []) (hz : Text.atBoundary z = true) :
    IsValue special d v (s ++ z) z := by
  obtain ⟨c, r, rfl, hc⟩ := Text.atBoundary_eq_false_iff.1 h.starts
  have hstops : special.Stops z := by
    intro a ha
    obtain ⟨u, rfl⟩ := List.head?_eq_some_iff.1 (Option.mem_def.1 ha)
    exact .inl hz
  have hread := hd.carries (y := []) (.inr hstops) (c :: r) v
  rw [List.append_nil] at hread
  exact ⟨hc, hread h.read, hz, h.permitted⟩

theorem IsValue.ne_nil {v : Value} {s t : List Char} (h : IsValue special d v s t) : s ≠ [] := by
  obtain ⟨c, r, rfl, -⟩ := Text.atBoundary_eq_false_iff.1 h.starts
  exact List.cons_ne_nil c r

theorem Cluster.append (hd : ∀ d ∈ g.parameters, d.parser.Synthesized) {os : List Supply}
    {s t z : List Char} (h : Cluster g special os s t) (ht : t = [])
    (hz : Text.atBoundary z = true) : Cluster g special os (s ++ z) z := by
  induction h with
  | flag hc hk _ =>
      subst ht
      exact .flag hc hk hz
  | merged hc hk _ ih => exact .merged hc hk (ih ht)
  | attached hc hk hv =>
      subst ht
      exact .attached hc hk (hv.append (hd _ (Grammar.mem_switches.1 hc.1).1) hz)
  | spaced hc hk hb hne hv =>
      subst ht
      rw [List.cons_append, List.append_assoc]
      exact .spaced hc hk hb hne (hv.append (hd _ (Grammar.mem_switches.1 hc.1).1) hz)

/-- What does not look like an option does not with a blank behind it. -/
theorem Checked.not_looksLikeOption_append (hg : g.Checked) {s z : List Char} (hs : s ≠ [])
    (h : ¬g.LooksLikeOption s) (hz : Text.atBoundary z = true) : ¬g.LooksLikeOption (s ++ z) := by
  obtain ⟨c, r, rfl⟩ := List.exists_cons_of_ne_nil hs
  by_cases hc : c = dash
  · subst hc
    rw [hg.looksLikeOption_iff, not_or] at h
    rw [List.cons_append, hg.looksLikeOption_iff, not_or]
    cases r with
    | cons => exact h
    | nil =>
        cases z with
        | nil => exact h
        | cons a z =>
            have ha : Text.isBlank a = true := hz
            have hne : a ≠ dash := fun h => by subst h; exact absurd ha (by decide)
            simp [startsShortOption, ha, hne]
  · exact not_looksLikeOption hc

/-- **An item that is a whole text is the same with a blank behind it.** -/
theorem Spelled.append (hsynth : ∀ d ∈ g.parameters, d.parser.Synthesized) {os : List Supply}
    {s z : List Char} (h : Spelled g special true (.options os) s [])
    (hz : Text.atBoundary z = true) :
    Spelled g special true (.options os) (s ++ z) z := by
  generalize ht : ([] : List Char) = t at h
  cases h with
  | cluster hc => exact .cluster (hc.append hsynth ht.symm hz)
  | longFlag hl hk _ =>
      subst ht
      rw [List.append_nil]
      exact .longFlag hl hk hz
  | longAttached hl hk hv =>
      subst ht
      rw [List.append_assoc]
      exact .longAttached hl hk (hv.append (hsynth _ (Grammar.mem_switches.1 hl.1).1) hz)
  | longSpaced hl hk hb hne hv =>
      subst ht
      rw [List.append_assoc _ _ z, List.append_assoc _ _ z]
      exact .longSpaced hl hk hb hne (hv.append (hsynth _ (Grammar.mem_switches.1 hl.1).1) hz)

/-! ## from words to items -/

/-- The members of a shuffle, in the order of the two lists. -/
theorem Shuffle.perm {as bs cs : List α} (h : Shuffle as bs cs) : cs.Perm (as ++ bs) := by
  induction h with
  | nil => exact .refl _
  | left _ ih => exact .cons _ ih
  | right _ ih => exact (ih.cons _).trans List.perm_middle.symm

/-- A text that is an option when it is read alone spells options, and supplies their
parameters. -/
theorem Checked.spelled_of_readAlone (hg : g.Checked) {s : List Char}
    (h : g.ReadAlone special s p) :
    ∃ os, Spelled g special true (.options os) s [] ∧ (os.map (·.parameter.index)).Nodup ∧
      ∀ k, Supplied p k ↔ k ∈ os.map (·.parameter.index) := by
  obtain ⟨hlook, hmark, hitem, hwhole⟩ := h
  have hdash : Text.isBlank dash = false := by decide
  have hstart : Text.atBoundary s = false := by
    rcases hlook with ⟨u, rfl⟩ | ⟨c, r, rfl, -⟩
    · exact hdash
    · exact hdash
  have hrest : (g.begin s).cursor.rest = s := Cursor.rest_start s
  obtain ⟨i, t, hspelled, hadmits, rfl⟩ := hg.spelled_of_item hrest hstart hitem
  obtain rfl : t = [] := by
    rw [← hwhole]
    exact (Cursor.rest_leaving (hrest ▸ hspelled.suffix.1)).symm
  cases i with
  | mark =>
      cases hspelled
      exact absurd rfl hmark
  | positional o =>
      cases hspelled with
      | value _ hno => exact absurd hlook hno
  | options os =>
      have hlength : ∀ o ∈ os, o.parameter.index < (g.begin s).supplied.length := fun o ho => by
        have := hg.index_lt (mem_switches.1 (hspelled.mem_switches o ho)).1
        simpa [begin] using this
      refine ⟨os, hspelled, ((fresh_iff hlength).1 hadmits).1, fun k => ?_⟩
      have hempty : (g.begin s).supplied[k]?.join = none := join_begin g k
      have hnone := join_note_eq_none_iff (k := k) hlength
      rw [Supplied, Option.isSome_iff_ne_none, ne_eq]
      change ¬(note (g.begin s).supplied os)[k]?.join = none ↔ _
      rw [hnone, hempty]
      simp

/-- **A line that is put together from options and values consists of their items.** -/
theorem Checked.line_of_shuffle (hg : g.Checked)
    (hsynth : ∀ d ∈ g.parameters, d.parser.Synthesized)
    {options literals words : List (List Char)} {f : List Char → List Supply} {os : List Supply}
    (hoptions : ∀ s ∈ options, Spelled g special true (.options (f s)) s [])
    (hparameters : ∀ o ∈ os, o.parameter ∈ g.parameters)
    (hliterals : List.Forall₂ (fun o s => IsValue special o.parameter o.value s [] ∧
      ¬g.LooksLikeOption s) os literals)
    (h : Shuffle options literals words) {text : List Char} (htext : Separated words text) :
    ∃ is, Line g special true is text ∧
      Shuffle (options.map fun s => .options (f s)) (os.map .positional) is := by
  induction h generalizing os text with
  | nil =>
      cases htext with
      | blank hb =>
          cases hliterals
          exact ⟨[], .done hb, .nil⟩
  | left _ ih =>
      obtain ⟨hoption, hoptions⟩ := List.forall_mem_cons.1 hoptions
      cases htext with
      | word hb hs rest =>
          obtain ⟨is, hline, hshuffle⟩ := ih hoptions hparameters hliterals rest
          exact ⟨_ :: is, .item hb (hoption.append hsynth hs) hline, .left hshuffle⟩
  | right _ ih =>
      cases hliterals with
      | cons hliteral hliterals =>
          obtain ⟨hparameter, hparameters⟩ := List.forall_mem_cons.1 hparameters
          obtain ⟨hvalue, hlook⟩ := hliteral
          cases htext with
          | word hb hs rest =>
              obtain ⟨is, hline, hshuffle⟩ := ih hoptions hparameters hliterals rest
              have hlook' := hg.not_looksLikeOption_append hvalue.ne_nil hlook hs
              have hvalue' := hvalue.append (hsynth _ hparameter) hs
              exact ⟨_ :: is, .item hb (.value hvalue' hlook') hline, .right hshuffle⟩

/-! ## what the items supply -/

/-- What is noted does not depend on the order of supplies of different parameters. -/
theorem note_eq_of_perm {l : List (Option TypedValue)} {os us : List Supply} (h : os.Perm us)
    (hnodup : (os.map (·.parameter.index)).Nodup) : note l os = note l us := by
  refine h.foldl_eq' (fun o ho u hu l => ?_) l
  by_cases hindex : o.parameter.index = u.parameter.index
  · rw [List.inj_on_of_nodup_map hnodup ho hu hindex]
  · exact List.set_comm _ _ hindex

/-- The supplies of options and values are those of different parameters. -/
theorem Checked.nodup_supplies (hg : g.Checked) {options : List (List Char)}
    {f : List Char → List Supply} {os : List Supply}
    (hswitches : ∀ s ∈ options, ∀ o ∈ f s, o.parameter ∈ g.switches)
    (hnodup : ∀ s ∈ options, ((f s).map (·.parameter.index)).Nodup)
    (hdisjoint : options.Pairwise fun s s' =>
      ((f s).map (·.parameter.index)).Disjoint ((f s').map (·.parameter.index)))
    (hpositionals : os.map (·.parameter) <+: g.positionals) :
    ((options.flatMap f ++ os).map (·.parameter.index)).Nodup := by
  have hparameters : ∀ o ∈ os, o.parameter ∈ g.positionals := fun o ho =>
    hpositionals.subset (List.mem_map_of_mem ho)
  rw [List.map_append, List.nodup_append']
  refine ⟨?_, ?_, fun k hk hk' => ?_⟩
  · rw [List.map_flatMap, List.nodup_flatMap]
    exact ⟨hnodup, hdisjoint⟩
  · have hinj : ∀ d ∈ g.positionals, ∀ e ∈ g.positionals, d.index = e.index → d = e :=
      fun d hd e he => hg.eq_of_index_eq (mem_positionals.1 hd).1 (mem_positionals.1 he).1
    have hindices := (hg.nodup_positionals.map_on hinj).sublist (hpositionals.sublist.map (·.index))
    rwa [List.map_map] at hindices
  · obtain ⟨o, ho, rfl⟩ := List.mem_map.1 hk
    obtain ⟨u, hu, hindex⟩ := List.mem_map.1 hk'
    obtain ⟨s, hs, ho⟩ := List.mem_flatMap.1 ho
    obtain ⟨hparameter, hkind⟩ := mem_switches.1 (hswitches s hs o ho)
    obtain ⟨hparameter', hkind'⟩ := mem_positionals.1 (hparameters u hu)
    rw [hg.eq_of_index_eq hparameter' hparameter hindex] at hkind'
    exact hkind hkind'

/-- The values of a shuffle of options and values. -/
theorem Shuffle.filterMap_positional? {as bs cs : List Item} (h : Shuffle as bs cs)
    (has : ∀ i ∈ as, i.positional? = none) :
    cs.filterMap Item.positional? = bs.filterMap Item.positional? := by
  induction h with
  | nil => rfl
  | left _ ih =>
      obtain ⟨hi, has⟩ := List.forall_mem_cons.1 has
      rw [List.filterMap_cons_none hi, ih has]
  | right _ ih => rw [List.filterMap_cons, List.filterMap_cons, ih has]

/-- The items of a line that is put together from options and values supply what these do. -/
theorem Shuffle.supplies_perm {options : List (List Char)} {f : List Char → List Supply}
    {os : List Supply} {is : List Item}
    (h : Shuffle (options.map fun s => .options (f s)) (os.map .positional) is) :
    (is.flatMap Item.supplies).Perm (options.flatMap f ++ os) := by
  have hvalues : (os.map Item.positional).flatMap Item.supplies = os := by
    rw [List.flatMap_map]
    exact List.flatMap_singleton' os
  have hperm := h.perm.flatMap_right Item.supplies
  rwa [List.flatMap_append, List.flatMap_map, hvalues] at hperm

/-- The items of a line that is put together from options and values are as a line asks. -/
theorem Shuffle.orderly {options : List (List Char)} {f : List Char → List Supply}
    {os : List Supply} {is : List Item}
    (h : Shuffle (options.map fun s => .options (f s)) (os.map .positional) is)
    (hswitches : ∀ s ∈ options, ∀ o ∈ f s, o.parameter ∈ g.switches)
    (hpositionals : os.map (·.parameter) <+: g.positionals)
    (hnodup : ((options.flatMap f ++ os).map (·.parameter.index)).Nodup) : Orderly g is where
  options us hus := by
    rcases List.mem_append.1 (h.perm.subset hus) with hmem | hmem
    · obtain ⟨s, hs, hu⟩ := List.mem_map.1 hmem
      obtain rfl := Item.options.inj hu
      exact hswitches s hs
    · obtain ⟨o, -, ho⟩ := List.mem_map.1 hmem
      contradiction
  inOrder := by
    have hnone : ∀ i ∈ options.map fun s => Item.options (f s), i.positional? = none := by
      simp [Item.positional?]
    have hsome : (Item.positional? ∘ Item.positional) = some ∘ Supply.parameter := rfl
    rw [h.filterMap_positional? hnone, List.filterMap_map, hsome, List.filterMap_eq_map]
    exact hpositionals
  once := (h.supplies_perm.map _).nodup_iff.2 hnodup

/-- The literals are values of the parameters. -/
theorem exists_supplies {ds : List Descriptor} {literals : List (List Char)}
    (h : List.Forall₂ (g.IsLiteral special) ds literals) :
    ∃ os : List Supply, os.map (·.parameter) = ds ∧
      List.Forall₂ (fun o s => IsValue special o.parameter o.value s [] ∧ ¬g.LooksLikeOption s)
        os literals := by
  induction h with
  | nil => exact ⟨[], rfl, .nil⟩
  | cons hliteral _ ih =>
      obtain ⟨⟨v, hv⟩, hlook⟩ := hliteral
      obtain ⟨os, rfl, hos⟩ := ih
      exact ⟨⟨_, v⟩ :: os, rfl, .cons ⟨hv, hlook⟩ hos⟩

/-! ## the theorem -/

/-- **The order of options does not matter.**  Let all parsers be made by resolution.  Take options
that are each claimed whole when they are read alone and that supply different parameters, and
literals of the first positionals.  All lines that are put together from them, the literals in
their order, give the same arguments, or all of them lack the same parameter. -/
theorem parse_interleaved {ps : List Parameter} {r : Registry} {g : Grammar}
    (hps : ∀ p ∈ ps, p.Declared) (hb : (build ps r).1 = .ok g)
    (hsynth : ∀ d ∈ g.parameters, d.parser.Synthesized) (special : SpecialSet)
    (options literals : List (List Char))
    (hoptions : ∀ s ∈ options, ∃ p, g.ReadAlone special s p)
    (hdisjoint : options.Pairwise fun s s' => ∀ p p', g.ReadAlone special s p →
      g.ReadAlone special s' p' → ∀ k, Supplied p k → ¬Supplied p' k)
    (hliterals : List.Forall₂ (g.IsLiteral special) (g.positionals.take literals.length) literals) :
    (∃ args, ∀ text, Interleaved options literals text → g.parse special text = .ok args) ∨
      ∃ d ∈ g.parameters, ∀ text, Interleaved options literals text →
        ∃ offset, g.parse special text = .error (.missingRequired d.label offset) := by
  have hg := checked_of_build hps hb
  have : Nonempty Progress := ⟨g.begin []⟩
  -- what the options and the literals supply
  choose! p hp using hoptions
  choose! f hspelled hnodup hsupplied using fun s hs => hg.spelled_of_readAlone (hp s hs)
  have hswitches : ∀ s ∈ options, ∀ o ∈ f s, o.parameter ∈ g.switches :=
    fun s hs => (hspelled s hs).mem_switches
  have hapart : options.Pairwise fun s s' =>
      ((f s).map (·.parameter.index)).Disjoint ((f s').map (·.parameter.index)) :=
    hdisjoint.imp_of_mem fun hs hs' h k hk hk' =>
      h _ _ (hp _ hs) (hp _ hs') k ((hsupplied _ hs k).2 hk) ((hsupplied _ hs' k).2 hk')
  obtain ⟨os, hos, hvalues⟩ := exists_supplies hliterals
  have hpositionals : os.map (·.parameter) <+: g.positionals := hos ▸ List.take_prefix _ _
  have hparameters : ∀ o ∈ os, o.parameter ∈ g.parameters := fun o ho =>
    (mem_positionals.1 (hpositionals.subset (List.mem_map_of_mem ho))).1
  have hall := hg.nodup_supplies hswitches hnodup hapart hpositionals
  -- behind all items the same values are noted
  let noted := note (g.parameters.map fun _ => none) (options.flatMap f ++ os)
  have hparse : ∀ text, Interleaved options literals text → ∃ offset, g.parse special text =
      settle special offset g.parameters noted >>= fun values => pure ⟨values.map some⟩ := by
    intro text htext
    obtain ⟨permuted, words, hperm, hshuffle, hseparated⟩ := htext
    have hmem : ∀ s ∈ permuted, s ∈ options := fun s hs => hperm.subset hs
    obtain ⟨is, hline, hshuffle'⟩ := hg.line_of_shuffle hsynth
      (fun s hs => hspelled s (hmem s hs)) hparameters hvalues hshuffle hseparated
    have hsupplies : (permuted.flatMap f ++ os).Perm (options.flatMap f ++ os) :=
      (hperm.flatMap_right f).append_right os
    have horderly : Orderly g is := hshuffle'.orderly (fun s hs => hswitches s (hmem s hs))
      hpositionals ((hsupplies.map _).nodup_iff.2 hall)
    have hnoted : (behindItems (g.begin text) is).supplied = noted :=
      (note_eq_of_perm ((hshuffle'.supplies_perm.trans hsupplies).symm) hall).symm
    refine ⟨(behindItems (g.begin text) is).cursor.offset, ?_⟩
    rw [← hnoted, parse_eq_resume, resume,
      hg.items_of_line hline (noted_begin g text) rfl rfl horderly]
    rfl
  -- so they are settled in the same way
  rcases (settles_settle special g.parameters noted).map fun values =>
    (⟨values.map some⟩ : Arguments) with ⟨args, h⟩ | ⟨d, hd, h⟩
  · refine .inl ⟨args, fun text htext => ?_⟩
    obtain ⟨offset, hoffset⟩ := hparse text htext
    exact hoffset.trans (h offset)
  · refine .inr ⟨d, hd, fun text htext => ?_⟩
    obtain ⟨offset, hoffset⟩ := hparse text htext
    exact ⟨offset, hoffset.trans (h offset)⟩

/-- The flag before the word and behind it. -/
theorem parse_interleaved_wordAndFlag :
    (∀ p ∈ wordAndFlag, p.Declared) ∧
    (build wordAndFlag (.empty fun _ _ => none)).1 = .ok ⟨[word, flag]⟩ ∧
    (∀ d ∈ [word, flag], d.parser.Synthesized) ∧
    (∃ p, ReadAlone ⟨[word, flag]⟩ .builtIn ['-', 'v'] p) ∧
    IsLiteral ⟨[word, flag]⟩ .builtIn word ['a'] ∧
    Interleaved [['-', 'v']] [['a']] ['-', 'v', ' ', 'a'] ∧
    Interleaved [['-', 'v']] [['a']] ['a', ' ', '-', 'v'] ∧
    ((∃ args, ∀ text ∈ [['-', 'v', ' ', 'a'], ['a', ' ', '-', 'v']],
      parse ⟨[word, flag]⟩ .builtIn text = .ok args) ∨
    ∃ d ∈ [word, flag], ∀ text ∈ [['-', 'v', ' ', 'a'], ['a', ' ', '-', 'v']],
      ∃ offset, parse ⟨[word, flag]⟩ .builtIn text = .error (.missingRequired d.label offset)) := by
  have hparsers : ∀ p ∈ wordAndFlag, p.parser = none := by
    intro p hp
    rcases List.mem_cons.1 hp with rfl | hp
    · rfl
    · obtain rfl := List.mem_singleton.1 hp
      rfl
  have hsynth := Parser.synthesized_of_build (.empty _) hparsers build_wordAndFlag
  have hg := checked_of_build declared_wordAndFlag build_wordAndFlag
  have hshort : HasShort ⟨[word, flag]⟩ 'v' flag := ⟨List.mem_cons_self, rfl⟩
  have hitem : item ⟨[word, flag]⟩ .builtIn (begin ⟨[word, flag]⟩ ['-', 'v']) = .ok _ :=
    hg.item_of_cluster rfl rfl (.flag hshort rfl (t := []) rfl) ⟨rfl, trivial⟩
  have hoption : ∃ p, ReadAlone ⟨[word, flag]⟩ .builtIn ['-', 'v'] p :=
    ⟨_, .inr ⟨'v', [], rfl, .inr ⟨flag, hshort⟩⟩, by decide, hitem,
      Cursor.rest_leaving List.nil_suffix⟩
  have hliteral : IsLiteral ⟨[word, flag]⟩ .builtIn word ['a'] :=
    ⟨⟨.string "a", by decide, rfl, by decide, fun _ h => nomatch h⟩,
      not_looksLikeOption (by decide)⟩
  have hblank : Text.Blank [' '] := Text.blank_cons.2 ⟨by decide, Text.blank_nil⟩
  have hfront : Interleaved [['-', 'v']] [['a']] ['-', 'v', ' ', 'a'] :=
    ⟨_, _, .refl _, .left (.right .nil), .word (b := []) Text.blank_nil (s := [' ', 'a'])
      (by decide) (.word hblank (s := []) rfl (.blank Text.blank_nil))⟩
  have hbehind : Interleaved [['-', 'v']] [['a']] ['a', ' ', '-', 'v'] :=
    ⟨_, _, .refl _, .right (.left .nil), .word (b := []) Text.blank_nil (s := [' ', '-', 'v'])
      (by decide) (.word hblank (s := []) rfl (.blank Text.blank_nil))⟩
  have htexts : ∀ text ∈ [['-', 'v', ' ', 'a'], ['a', ' ', '-', 'v']],
      Interleaved [['-', 'v']] [['a']] text := by simp [hfront, hbehind]
  refine ⟨declared_wordAndFlag, build_wordAndFlag, hsynth, hoption, hliteral, hfront, hbehind, ?_⟩
  rcases parse_interleaved declared_wordAndFlag build_wordAndFlag hsynth .builtIn [['-', 'v']]
    [['a']] (by simpa using hoption) (List.pairwise_singleton _ _) (.cons hliteral .nil) with
    ⟨args, h⟩ | ⟨d, hd, h⟩
  · exact .inl ⟨args, fun text htext => h text (htexts text htext)⟩
  · exact .inr ⟨d, hd, fun text htext => h text (htexts text htext)⟩

/-! ## literals that start with a blank -/

/-- A record of one byte.  Its opening character is a blank. -/
def blankByte : RecordSpec where
  slots := [⟨.integer .u8, none⟩]
  groupings := ⟨⟨' ', ')'⟩, []⟩
  name := fun _ => "Byte"

/-- The record under a name. -/
def blankTypes : Declarations := fun path _ =>
  if path = "Byte" then some ⟨.record blankByte, fun _ => .list [.integer 0]⟩ else none

/-- One such record. -/
def blankParameters : List Parameter := [.positional (.declared "Byte" []) "x"]

/-- The descriptor of the record. -/
def blank : Descriptor :=
  describe 0 (.positional (.declared "Byte" []) "x")
    (blankByte.parser [⟨.integer .u8, .integer .u8, none⟩]) (.list [.integer 0])

/-- **A literal that starts with a blank is not read on a line**, although its parser claims it
whole: the reader of lines skips the blank first. -/
theorem parse_blankByte :
    (∀ p ∈ blankParameters, p.Declared) ∧
    (build blankParameters (.empty blankTypes)).1 = .ok ⟨[blank]⟩ ∧
    (∀ d ∈ [blank], d.parser.Synthesized) ∧
    positionals ⟨[blank]⟩ = [blank] ∧
    blank.parser.read .builtIn [' ', '1', ')'] = (some (.list [.integer 1]), []) ∧
    countOf blank (.list [.integer 1]) = none ∧
    ¬LooksLikeOption ⟨[blank]⟩ [' ', '1', ')'] ∧
    Interleaved [] [[' ', '1', ')']] [' ', '1', ')'] ∧
    parse ⟨[blank]⟩ .builtIn [' ', '1', ')'] = .error (.invalidValue "x" 1) := by
  have hsynth : ∀ d ∈ [blank], d.parser.Synthesized := by
    intro d hd
    obtain rfl := List.mem_singleton.1 hd
    exact .record _ _ fun slot hslot => by
      obtain rfl := List.mem_singleton.1 hslot
      exact .integer .u8
  refine ⟨?_, rfl, hsynth, rfl, ?_, rfl, not_looksLikeOption (by decide), ?_, ?_⟩
  · intro p hp
    obtain rfl := List.mem_singleton.1 hp
    exact .positional _ _
  · have hmembers : Reader.Members ')' ',' (Parser.slotReader .builtIn
        [⟨.integer .u8, .integer .u8, none⟩]) 0 false ['1', ')'] [.integer 1] [] :=
      .adjacent (c := '1') (r := [')']) (t := [')']) (d := ')') (u := []) rfl (by decide)
        (by decide) rfl (by decide) rfl (by decide) (.close rfl)
    have hgroup := Reader.group_eq_some_iff.2 ⟨' ', ['1', ')'], ⟨' ', ')'⟩, rfl,
      (rfl : blankByte.groupings.openedBy ' ' = _), hmembers⟩
    rw [blank, describe, RecordSpec.parser, Parser.read_record]
    exact Reader.mapOption_eq_some_iff.2 ⟨_, hgroup, rfl⟩
  · exact ⟨[], _, .refl _, .right .nil, .word (b := []) Text.blank_nil (s := []) rfl
      (.blank Text.blank_nil)⟩
  · rw [parse, items]
    rfl

end TypedConsole.Grammar
