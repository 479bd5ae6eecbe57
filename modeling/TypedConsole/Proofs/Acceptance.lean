import TypedConsole.Proofs.Lines
import Mathlib.Data.List.Nodup

/-!
# TypedConsole.Proofs.Acceptance

The reader of lines accepts exactly the lines of `TypedConsole.Proofs.CommandLine`.

The items read so far say all there is to know about the progress: `Noted` ties the values noted
and the number of positionals filled to them, and `Noted.admits_iff` turns the checks made for one
item into what a line asks of all items.  `Checked.items_eq_ok_iff` carries both through the line.
-/

namespace TypedConsole.Grammar

variable {g : Grammar} {special : SpecialSet} {d : Descriptor} {p p' : Progress}

/-! ## gaps between items -/

theorem Cluster.ends {os : List Supply} {s t : List Char} (h : Cluster g special os s t) :
    Text.atBoundary t = true := by
  induction h with
  | flag _ _ ht => exact ht
  | merged _ _ _ ih => exact ih
  | attached _ _ hv => exact hv.ends
  | spaced _ _ _ _ hv => exact hv.ends

/-- A blank or the end of the line follows an item. -/
theorem Spelled.ends {enabled : Bool} {i : Item} {s t : List Char}
    (h : Spelled g special enabled i s t) : Text.atBoundary t = true := by
  cases h with
  | cluster hc => exact hc.ends
  | longFlag _ _ ht => exact ht
  | longAttached _ _ hv => exact hv.ends
  | longSpaced _ _ _ _ hv => exact hv.ends
  | mark ht => exact ht
  | value hv => exact hv.ends
  | valueBehindMark hv => exact hv.ends

/-- There is a blank between two items of a line. -/
theorem Line.separated {enabled enabled' : Bool} {i j : Item} {is : List Item} {s t : List Char}
    (hi : Spelled g special enabled i s t) (h : Line g special enabled' (j :: is) t) :
    ∃ b u v, t = b ++ u ∧ Text.Blank b ∧ b ≠ [] ∧ Spelled g special enabled' j u v ∧
      Line g special (enabled' && !j.isMark) is v := by
  cases h with
  | item hb hj rest =>
      refine ⟨_, _, _, rfl, hb, fun h => ?_, hj, rest⟩
      have hends := hi.ends
      rw [h, List.nil_append, hj.starts] at hends
      contradiction

/-! ## what has been noted -/

section Notes

variable {l : List (Option TypedValue)} {os : List Supply} {k : Nat}

@[simp] theorem length_note : (note l os).length = l.length := by
  induction os generalizing l with
  | nil => rfl
  | cons o os ih => exact (ih (l := l.set _ _)).trans List.length_set

theorem note_append {us : List Supply} : note l (os ++ us) = note (note l os) us :=
  List.foldl_append

/-- A place is filled by the supply that has its index. -/
theorem getElem?_note (h : (os.map (·.parameter.index)).Nodup) :
    (note l os)[k]? = l[k]?.map fun old =>
      match os.find? (·.parameter.index = k) with
      | some o => some ⟨o.parameter.type, o.value⟩
      | none => old := by
  induction os generalizing l with
  | nil => simp [note]
  | cons o os ih =>
      obtain ⟨hnew, hrest⟩ := List.nodup_cons.1 h
      show (note (l.set _ _) os)[k]? = _
      rw [ih hrest, List.getElem?_set]
      by_cases hk : o.parameter.index = k
      · have hnone : os.find? (·.parameter.index = k) = none :=
          List.find?_eq_none.2 fun u hu => by
            simpa [← hk] using fun he => hnew (List.mem_map.2 ⟨u, hu, he⟩)
        simp only [hnone, List.find?_cons, hk, decide_true]
        by_cases hlt : k < l.length
        · simp [hlt]
        · simp [hlt]
      · simp [hk]

/-- A place stays empty if no supply has its index. -/
theorem join_note_eq_none_iff (hos : ∀ o ∈ os, o.parameter.index < l.length) :
    (note l os)[k]?.join = none ↔ l[k]?.join = none ∧ k ∉ os.map (·.parameter.index) := by
  induction os generalizing l with
  | nil => simp [note]
  | cons o os ih =>
      have ho : o.parameter.index < l.length := hos o List.mem_cons_self
      show (note (l.set _ _) os)[k]?.join = none ↔ _
      rw [ih (by simpa using fun u hu => hos u (List.mem_cons_of_mem o hu)), List.getElem?_set]
      by_cases hk : o.parameter.index = k
      · subst hk
        simp [ho]
      · simp [hk, show k ≠ o.parameter.index from Ne.symm hk]

/-- Supplies are fresh if their indices differ from one another and from those before. -/
theorem fresh_iff (hos : ∀ o ∈ os, o.parameter.index < l.length) :
    Fresh l os ↔ (os.map (·.parameter.index)).Nodup ∧
      ∀ o ∈ os, l[o.parameter.index]?.join = none := by
  induction os generalizing l with
  | nil => simp [Fresh]
  | cons o os ih =>
      have ho : ∀ u ∈ [o], u.parameter.index < l.length := fun u hu => by
        rw [List.mem_singleton.1 hu]
        exact hos o List.mem_cons_self
      have hrest : ∀ u ∈ os, u.parameter.index < (note l [o]).length := fun u hu => by
        rw [length_note]
        exact hos u (List.mem_cons_of_mem o hu)
      simp only [Fresh, ih hrest, join_note_eq_none_iff ho, List.map_cons, List.map_nil,
        List.nodup_cons, List.mem_singleton, List.forall_mem_cons, List.mem_map, not_exists,
        not_and]
      constructor
      · intro h
        obtain ⟨hnone, hnodup, hall⟩ := h
        exact ⟨⟨fun u hu => (hall u hu).2, hnodup⟩, hnone, fun u hu => (hall u hu).1⟩
      · intro h
        obtain ⟨⟨hnew, hnodup⟩, hnone, hall⟩ := h
        exact ⟨hnone, hnodup, fun u hu => ⟨hall u hu, hnew u hu⟩⟩

end Notes

/-! ## parameters by index -/

theorem Checked.index_lt (hg : g.Checked) (hd : d ∈ g.parameters) :
    d.index < g.parameters.length := by
  have hmem := List.mem_map_of_mem (f := (·.index)) hd
  rwa [hg.index, List.mem_range] at hmem

/-- The parameter at a place has the place as its index. -/
theorem Checked.index_eq (hg : g.Checked) {k : Nat} (hd : g.parameters[k]? = some d) :
    d.index = k := by
  have hmap : (g.parameters.map (·.index))[k]? = some d.index := by
    rw [List.getElem?_map, hd]
    rfl
  have hk := (List.getElem?_eq_some_iff.1 hd).1
  rw [hg.index, List.getElem?_range hk] at hmap
  exact (Option.some.inj hmap).symm

/-- What is listed for each parameter stands at its index. -/
theorem Checked.getElem?_map_index (hg : g.Checked) (hd : d ∈ g.parameters) (f : Descriptor → α) :
    (g.parameters.map f)[d.index]? = some (f d) := by
  obtain ⟨i, hi⟩ := List.mem_iff_getElem?.1 hd
  rw [hg.index_eq hi, List.getElem?_map, hi]
  rfl

theorem Checked.eq_of_index_eq (hg : g.Checked) {e : Descriptor} (hd : d ∈ g.parameters)
    (he : e ∈ g.parameters) (h : d.index = e.index) : d = e := by
  have hnodup : (g.parameters.map (·.index)).Nodup := hg.index ▸ List.nodup_range
  exact List.inj_on_of_nodup_map hnodup hd he h

theorem Checked.nodup_positionals (hg : g.Checked) : g.positionals.Nodup := by
  have hnodup : (g.parameters.map (·.index)).Nodup := hg.index ▸ List.nodup_range
  exact (List.Nodup.of_map _ hnodup).filter _

/-! ## what a line asks of its items -/

/-- The options are those of the grammar, the positional values are those of the first positionals
in order, and no parameter is supplied twice. -/
structure Orderly (g : Grammar) (is : List Item) : Prop where
  options : ∀ os, .options os ∈ is → ∀ o ∈ os, o.parameter ∈ g.switches
  inOrder : is.filterMap Item.positional? <+: g.positionals
  once : ((is.flatMap Item.supplies).map (·.parameter.index)).Nodup

theorem Orderly.nil : Orderly g [] := ⟨by simp, List.nil_prefix, List.nodup_nil⟩

/-- What a line asks holds of its first items as well. -/
theorem Orderly.of_append {is js : List Item} (h : Orderly g (is ++ js)) : Orderly g is := by
  obtain ⟨ho, hi, hn⟩ := h
  rw [List.filterMap_append] at hi
  rw [List.flatMap_append, List.map_append] at hn
  exact ⟨fun os hos => ho os (List.mem_append_left js hos),
    (List.prefix_append _ _).trans hi, List.Nodup.of_append_left hn⟩

/-- A supply of the items is that of an option or of a positional value. -/
theorem Orderly.mem_supplies {is : List Item} (h : Orderly g is) {o : Supply}
    (ho : o ∈ is.flatMap Item.supplies) :
    o.parameter ∈ g.switches ∨ o.parameter ∈ is.filterMap Item.positional? := by
  obtain ⟨i, hi, hoi⟩ := List.mem_flatMap.1 ho
  cases i with
  | options os => exact .inl (h.options os hi o hoi)
  | mark => contradiction
  | positional u =>
      obtain rfl : o = u := List.mem_singleton.1 hoi
      exact .inr (List.mem_filterMap.2 ⟨_, hi, rfl⟩)

theorem mem_positionals : d ∈ g.positionals ↔ d ∈ g.parameters ∧ d.kind = .positional := by
  simp [positionals]

theorem Orderly.mem_parameters {is : List Item} (h : Orderly g is) {o : Supply}
    (ho : o ∈ is.flatMap Item.supplies) : o.parameter ∈ g.parameters := by
  rcases h.mem_supplies ho with hs | hp
  · exact (mem_switches.1 hs).1
  · exact (mem_positionals.1 (h.inOrder.subset hp)).1

/-- One more element extends a prefix exactly if it is the one that follows. -/
theorem concat_prefix_iff {α : Type} {l L : List α} {a : α} (h : l <+: L) :
    l ++ [a] <+: L ↔ L[l.length]? = some a := by
  obtain ⟨r, rfl⟩ := h
  rw [List.prefix_append_right_inj]
  cases r with
  | nil => simp
  | cons b r => simp [@eq_comm _ a]

/-! ## progress and history -/

/-- Nothing is noted at first. -/
theorem join_begin (g : Grammar) (k : Nat) :
    (g.parameters.map fun _ => (none : Option TypedValue))[k]?.join = none := by
  cases hk : g.parameters[k]? <;> simp only [List.getElem?_map, hk] <;> rfl

/-- The progress is that behind the items. -/
structure Noted (g : Grammar) (is : List Item) (p : Progress) : Prop where
  supplied : p.supplied = note (g.parameters.map fun _ => none) (is.flatMap Item.supplies)
  filled : p.filled = (is.filterMap Item.positional?).length
  orderly : Orderly g is

theorem noted_begin (g : Grammar) (text : List Char) : Noted g [] (g.begin text) :=
  ⟨rfl, rfl, .nil⟩

theorem Noted.behindItem {is : List Item} {i : Item} (h : Noted g is p)
    (hi : Orderly g (is ++ [i])) (t : List Char) : Noted g (is ++ [i]) (behindItem p i t) := by
  refine ⟨?_, ?_, hi⟩
  · simp only [Grammar.behindItem, h.supplied, List.flatMap_append, List.flatMap_cons,
      List.flatMap_nil, List.append_nil, note_append]
  · cases hp : i.positional? <;> simp [Grammar.behindItem, h.filled, hp]

/-- Options are new exactly if they may follow the items so far. -/
theorem Noted.fresh_iff (hg : g.Checked) {is : List Item} {os : List Supply} (h : Noted g is p)
    (hos : ∀ o ∈ os, o.parameter ∈ g.switches) :
    Fresh p.supplied os ↔
      (((is ++ [Item.options os]).flatMap Item.supplies).map (·.parameter.index)).Nodup := by
  have hlen : ∀ o : Supply, o.parameter ∈ g.parameters →
      o.parameter.index < (g.parameters.map fun _ => (none : Option TypedValue)).length :=
    fun o ho => by
      rw [List.length_map]
      exact hg.index_lt ho
  rw [h.supplied, Grammar.fresh_iff fun o ho => by
    rw [length_note]
    exact hlen o (mem_switches.1 (hos o ho)).1]
  simp only [join_note_eq_none_iff fun o ho => hlen o (h.orderly.mem_parameters ho), join_begin,
    true_and, List.flatMap_append, List.flatMap_cons, List.flatMap_nil, List.append_nil,
    Item.supplies, List.map_append, List.nodup_append']
  constructor
  · intro h
    obtain ⟨hnodup, hnew⟩ := h
    refine ⟨h.orderly.once, hnodup, fun k hk hkos => ?_⟩
    obtain ⟨o, ho, rfl⟩ := List.mem_map.1 hkos
    exact hnew o ho hk
  · intro h
    obtain ⟨-, hnodup, hdisjoint⟩ := h
    exact ⟨hnodup, fun o ho hk => hdisjoint hk (List.mem_map.2 ⟨o, ho, rfl⟩)⟩

/-- The next positional has not been supplied before. -/
theorem Orderly.index_notMem (hg : g.Checked) {is : List Item} (h : Orderly g is)
    (hd : is.filterMap Item.positional? ++ [d] <+: g.positionals) :
    d.index ∉ (is.flatMap Item.supplies).map (·.parameter.index) := by
  have hmem : d ∈ g.positionals := hd.subset (by simp)
  intro hk
  obtain ⟨o, ho, hindex⟩ := List.mem_map.1 hk
  obtain rfl := hg.eq_of_index_eq (h.mem_parameters ho) (mem_positionals.1 hmem).1 hindex
  rcases h.mem_supplies ho with hs | hp
  · exact (mem_switches.1 hs).2 (mem_positionals.1 hmem).2
  · have hnodup := hg.nodup_positionals.sublist hd.sublist
    exact List.disjoint_of_nodup_append hnodup hp (List.mem_singleton.2 rfl)

/-- **An item may come next exactly if the line up to it is as a line must be.** -/
theorem Noted.admits_iff (hg : g.Checked) {is : List Item} {i : Item} (h : Noted g is p)
    (hi : ∀ os, i = .options os → ∀ o ∈ os, o.parameter ∈ g.switches) :
    Admits g p i ↔ Orderly g (is ++ [i]) := by
  obtain ⟨hoptions, hinOrder, honce⟩ := h.orderly
  have hoptions' : ∀ os, .options os ∈ is ++ [i] → ∀ o ∈ os, o.parameter ∈ g.switches := by
    intro os hos
    rcases List.mem_append.1 hos with hos | hos
    · exact hoptions os hos
    · exact hi os (List.mem_singleton.1 hos).symm
  cases i with
  | options os =>
      refine (h.fresh_iff hg (hi os rfl)).trans ⟨fun hnodup => ⟨hoptions', ?_, hnodup⟩, (·.once)⟩
      simpa [List.filterMap_cons, Item.positional?] using hinOrder
  | mark =>
      refine ⟨fun _ => ⟨hoptions', ?_, ?_⟩, fun _ => trivial⟩
      · simpa [List.filterMap_cons, Item.positional?] using hinOrder
      · simpa [Item.supplies] using honce
  | positional o =>
      have hnext : Admits g p (.positional o) ↔
          is.filterMap Item.positional? ++ [o.parameter] <+: g.positionals := by
        rw [concat_prefix_iff hinOrder, ← h.filled]
        rfl
      rw [hnext]
      constructor
      · intro hprefix
        refine ⟨hoptions', by simpa [Item.positional?] using hprefix, ?_⟩
        simp only [List.flatMap_append, List.flatMap_cons, List.flatMap_nil, List.append_nil,
          Item.supplies, List.map_append, List.nodup_append', List.map_cons, List.map_nil]
        refine ⟨honce, by simp, ?_⟩
        rw [List.disjoint_singleton]
        exact h.orderly.index_notMem hg hprefix
      · intro horderly
        simpa [Item.positional?] using horderly.inOrder

/-! ## the loop over items -/

/-- Only blanks are left. -/
theorem items_of_blank (h : Text.skipBlanks p.cursor.rest = []) :
    g.items special p = .ok { p with cursor := p.cursor.leaving [] } := by
  have hend : p.cursor.skipBlanks.atEnd = true := by
    rw [Cursor.atEnd_iff, Cursor.rest_skipBlanks, h]
  rw [items, if_pos hend, Cursor.skipBlanks, h]

/-- Behind an item the reading stands in the same line, with less of it left. -/
theorem Checked.item_advances (hg : g.Checked) {c : Char} {r : List Char} {q : Progress}
    (hs : Text.skipBlanks p.cursor.rest = c :: r)
    (hq : g.item special { p with cursor := p.cursor.skipBlanks } = .ok q) :
    q.cursor.text = p.cursor.text ∧ q.cursor.rest.length < p.cursor.skipBlanks.rest.length := by
  have hrest : p.cursor.skipBlanks.rest = c :: r := by rw [Cursor.rest_skipBlanks, hs]
  obtain ⟨i, t, hspelled, -, rfl⟩ := hg.spelled_of_item hrest
    (Text.atBoundary_cons.trans (Text.isBlank_of_skipBlanks_eq_cons hs)) hq
  obtain ⟨hsuffix, hlength⟩ := hspelled.suffix
  have hbehind : (p.cursor.skipBlanks.leaving t).rest = t := Cursor.rest_leaving (hrest ▸ hsuffix)
  rw [hrest]
  exact ⟨rfl, (congrArg List.length hbehind).trans_lt hlength⟩

/-- Items are read one after the other: each one takes away from the line. -/
theorem Checked.items_of_item (hg : g.Checked) {c : Char} {r : List Char}
    (h : Text.skipBlanks p.cursor.rest = c :: r) :
    g.items special p =
      g.item special { p with cursor := p.cursor.skipBlanks } >>= g.items special := by
  have hend : p.cursor.skipBlanks.atEnd = false := by
    rw [Bool.eq_false_iff, ne_eq, Cursor.atEnd_iff, Cursor.rest_skipBlanks, h]
    exact List.cons_ne_nil c r
  rw [items, if_neg (by simp [hend])]
  cases hitem : g.item special { p with cursor := p.cursor.skipBlanks } with
  | error e => rfl
  | ok q =>
      have hlt : q.cursor.skipBlanks.remaining < p.cursor.skipBlanks.remaining := by
        rw [← Cursor.length_rest, ← Cursor.length_rest, q.cursor.rest_skipBlanks]
        exact (Text.length_skipBlanks_le _).trans_lt (hg.item_advances h hitem).2
      exact if_pos hlt

/-- What holds where only blanks are left, and in front of an item if it holds behind it, holds at
every point of a line. -/
theorem Checked.items_induction (hg : g.Checked) (special : SpecialSet)
    {motive : Progress → Prop}
    (blank : ∀ p, Text.skipBlanks p.cursor.rest = [] → motive p)
    (item : ∀ p c r, Text.skipBlanks p.cursor.rest = c :: r →
      (∀ q, g.item special { p with cursor := p.cursor.skipBlanks } = .ok q → motive q) →
      motive p)
    (p : Progress) : motive p := by
  induction hn : p.cursor.rest.length using Nat.strongRecOn generalizing p with
  | ind n ih =>
    cases hs : Text.skipBlanks p.cursor.rest with
    | nil => exact blank p hs
    | cons c r =>
        have hskip : p.cursor.skipBlanks.rest.length ≤ n := by
          rw [← hn, Cursor.rest_skipBlanks]
          exact Text.length_skipBlanks_le _
        exact item p c r hs fun q hq => ih _ ((hg.item_advances hs hq).2.trans_le hskip) q rfl

/-- The progress behind all items of a line. -/
def behindItems (p : Progress) (is : List Item) : Progress where
  cursor := p.cursor.leaving []
  supplied := note p.supplied (is.flatMap Item.supplies)
  filled := p.filled + (is.filterMap Item.positional?).length
  optionsEnabled := p.optionsEnabled && is.all fun i => !i.isMark

theorem behindItems_nil (p : Progress) :
    behindItems p [] = { p with cursor := p.cursor.leaving [] } := by
  simp [behindItems, note]

theorem behindItems_cons (p : Progress) (i : Item) (is : List Item) (t : List Char) :
    behindItems (behindItem p i t) is = behindItems p (i :: is) := by
  have hcount : (List.filterMap Item.positional? (i :: is)).length =
      i.positional?.toList.length + (is.filterMap Item.positional?).length := by
    cases h : i.positional? <;> simp [h, Nat.add_comm]
  simp only [behindItems, behindItem, hcount, List.flatMap_cons, note_append, List.all_cons,
    Bool.and_assoc, Nat.add_assoc]
  rfl

/-- What is read as a line consists of items as a line asks for them. -/
theorem Checked.line_of_items (hg : g.Checked) {his : List Item} (hp : Noted g his p)
    (h : g.items special p = .ok p') :
    ∃ is, Line g special p.optionsEnabled is p.cursor.rest ∧ Orderly g (his ++ is) ∧
      p' = behindItems p is := by
  induction p using hg.items_induction special generalizing his with
  | blank p hs =>
      rw [items_of_blank hs] at h
      refine ⟨[], .done (Text.skipBlanks_eq_nil_iff.1 hs), ?_, ?_⟩
      · rw [List.append_nil]
        exact hp.orderly
      · rw [behindItems_nil]
        exact (Except.ok.inj h).symm
  | item p c r hs ih =>
      rw [hg.items_of_item hs] at h
      obtain ⟨q, hitem, hitems⟩ := bind_eq_ok_iff.1 h
      have hrest : p.cursor.skipBlanks.rest = c :: r := by rw [Cursor.rest_skipBlanks, hs]
      obtain ⟨i, t, hspelled, hadmits, rfl⟩ := hg.spelled_of_item hrest
        (Text.atBoundary_cons.trans (Text.isBlank_of_skipBlanks_eq_cons hs)) hitem
      obtain ⟨b, hb, hsplit, -⟩ := Text.skipBlanks_eq_cons_iff.1 hs
      have hbehind : (p.cursor.leaving t).rest = t :=
        Cursor.rest_leaving (hsplit ▸ hspelled.suffix.1.trans (List.suffix_append b _))
      have horderly : Orderly g (his ++ [i]) := by
        refine (Noted.admits_iff hg hp fun os ho => ?_).1 hadmits
        subst ho
        exact hspelled.mem_switches
      obtain ⟨is, hline, hall, rfl⟩ := ih _ hitem (hp.behindItem horderly t) hitems
      refine ⟨i :: is, ?_, ?_, behindItems_cons p i is t⟩
      · rw [hsplit]
        refine .item hb hspelled ?_
        exact hbehind ▸ hline
      · rwa [List.append_assoc] at hall

/-- Items as a line asks for them are read. -/
theorem Checked.items_of_line (hg : g.Checked) {enabled : Bool} {his is : List Item}
    {s : List Char} (hline : Line g special enabled is s) (hp : Noted g his p)
    (he : p.optionsEnabled = enabled) (hs : p.cursor.rest = s) (hall : Orderly g (his ++ is)) :
    g.items special p = .ok (behindItems p is) := by
  induction hline generalizing p his with
  | done hb =>
      rw [items_of_blank (by rw [hs, Text.skipBlanks_eq_nil_iff.2 hb]), behindItems_nil]
  | @item b enabled i s t is hb hi _ ih =>
      rw [List.append_cons] at hall
      have horderly : Orderly g (his ++ [i]) := hall.of_append
      obtain ⟨c, r, rfl, hc⟩ := Text.atBoundary_eq_false_iff.1 hi.starts
      have hskip : Text.skipBlanks p.cursor.rest = c :: r := by
        rw [hs, Text.skipBlanks_append_cons hb hc]
      have hadmits : Admits g p i := (Noted.admits_iff hg hp fun os ho => by
        subst ho
        exact hi.mem_switches).2 horderly
      have hitem : g.item special { p with cursor := p.cursor.skipBlanks } =
          .ok (behindItem p i t) :=
        hg.item_of_spelled (p := { p with cursor := p.cursor.skipBlanks })
          (by rw [Cursor.rest_skipBlanks, hskip]) (he ▸ hi) hadmits
      have hbehind : (behindItem p i t).cursor.rest = t :=
        Cursor.rest_leaving (hs ▸ hi.suffix.1.trans (List.suffix_append b _))
      rw [hg.items_of_item hskip, hitem, ← behindItems_cons p i is t]
      exact ih (hp.behindItem horderly t) (by rw [← he]; rfl) hbehind hall

/-- **The loop over items succeeds exactly on the lines of the grammar.** -/
theorem Checked.items_eq_ok_iff (hg : g.Checked) {his : List Item} (hp : Noted g his p) :
    g.items special p = .ok p' ↔
      ∃ is, Line g special p.optionsEnabled is p.cursor.rest ∧ Orderly g (his ++ is) ∧
        p' = behindItems p is := by
  constructor
  · exact hg.line_of_items hp
  · intro h
    obtain ⟨is, hline, hall, rfl⟩ := h
    exact hg.items_of_line hline hp rfl rfl hall

/-! ## parameters that were not supplied -/

/-- The value of a parameter for which `v` is noted. -/
def settledOr (special : SpecialSet) (d : Descriptor) (v : Option TypedValue) : TypedValue :=
  v.getD ⟨d.type, fallbackValue special d (d.fallback.getD .zero)⟩

/-- Settling stops at the first required parameter without a value. -/
theorem settle_eq_find? {offset : Nat} {ds : List Descriptor}
    {noted : Descriptor → Option TypedValue} (hds : ∀ d ∈ ds, d.fallback.isSome = !d.required) :
    settle special offset ds (ds.map noted) =
      match ds.find? fun d => d.required && (noted d).isNone with
      | some d => .error (.missingRequired d.label offset)
      | none => .ok (ds.map fun d => settledOr special d (noted d)) := by
  induction ds with
  | nil => rfl
  | cons d ds ih =>
      have hrest := ih fun e he => hds e (List.mem_cons_of_mem d he)
      rw [List.map_cons, List.find?_cons]
      cases hnoted : noted d with
      | some v =>
          rw [settle, hrest, Option.isNone_some, Bool.and_false]
          cases ds.find? fun d => d.required && (noted d).isNone with
          | some e => rfl
          | none => simp [settledOr, hnoted]
      | none =>
          have hd := hds d List.mem_cons_self
          cases hrequired : d.required with
          | true => simp [settle, hrequired]
          | false =>
              rw [hrequired, Bool.not_false, Option.isSome_iff_exists] at hd
              obtain ⟨f, hf⟩ := hd
              simp only [settle, hrequired, hf, hrest, Bool.false_and]
              cases ds.find? fun d => d.required && (noted d).isNone with
              | some e => rfl
              | none => simp [settledOr, hf, hnoted]

/-- Settling succeeds exactly if every required parameter has a value. -/
theorem settle_eq_ok_iff {offset : Nat} {ds : List Descriptor}
    {noted : Descriptor → Option TypedValue} {values : List TypedValue}
    (hds : ∀ d ∈ ds, d.fallback.isSome = !d.required) :
    settle special offset ds (ds.map noted) = .ok values ↔
      (∀ d ∈ ds, d.required = true → (noted d).isSome = true) ∧
        values = ds.map fun d => settledOr special d (noted d) := by
  have hnone : ds.find? (fun d => d.required && (noted d).isNone) = none ↔
      ∀ d ∈ ds, d.required = true → (noted d).isSome = true := by
    simp only [List.find?_eq_none, Bool.and_eq_true, Option.isNone_iff_eq_none, not_and,
      Option.isSome_iff_ne_none, ne_eq]
  rw [settle_eq_find? hds, ← hnone]
  cases ds.find? fun d => d.required && (noted d).isNone with
  | some d => simp
  | none => simp [eq_comm]

/-- What is noted behind the items, by parameter. -/
theorem Orderly.note_eq (hg : g.Checked) {is : List Item} (h : Orderly g is) :
    note (g.parameters.map fun _ => none) (is.flatMap Item.supplies) =
      g.parameters.map fun d => ((is.flatMap Item.supplies).find?
        (·.parameter.index = d.index)).map fun o => ⟨d.type, o.value⟩ := by
  refine List.ext_getElem? fun k => ?_
  rw [getElem?_note h.once, List.getElem?_map, List.getElem?_map, Option.map_map]
  cases hd : g.parameters[k]? with
  | none => rfl
  | some d =>
      simp only [Option.map_some, Function.comp_apply, hg.index_eq hd]
      cases ho : (is.flatMap Item.supplies).find? (·.parameter.index = k) with
      | none => rfl
      | some o =>
          have hindex : o.parameter.index = d.index := by
            rw [hg.index_eq hd]
            simpa using List.find?_some ho
          obtain rfl := hg.eq_of_index_eq (h.mem_parameters (List.mem_of_find?_eq_some ho))
            (List.mem_of_getElem? hd) hindex
          rfl

/-- A parameter is supplied exactly if something is found under its index. -/
theorem Orderly.isSome_find?_iff (hg : g.Checked) {is : List Item} (h : Orderly g is)
    (hd : d ∈ g.parameters) :
    ((is.flatMap Item.supplies).find? (·.parameter.index = d.index)).isSome = true ↔
      ∃ o ∈ is.flatMap Item.supplies, o.parameter = d := by
  simp only [List.find?_isSome, decide_eq_true_eq]
  constructor
  · intro h
    obtain ⟨o, ho, hindex⟩ := h
    exact ⟨o, ho, hg.eq_of_index_eq (h.mem_parameters ho) hd hindex⟩
  · intro h
    obtain ⟨o, ho, rfl⟩ := h
    exact ⟨o, ho, rfl⟩

/-! ## whole lines -/

theorem Line.mem_switches {enabled : Bool} {is : List Item} {s : List Char}
    (h : Line g special enabled is s) :
    ∀ os, .options os ∈ is → ∀ o ∈ os, o.parameter ∈ g.switches := by
  induction h with
  | done => simp
  | item _ hi _ ih =>
      intro os hos
      rcases List.mem_cons.1 hos with rfl | hos
      · exact hi.mem_switches
      · exact ih os hos

theorem Accepts.orderly {is : List Item} {text : List Char} (h : g.Accepts special is text) :
    Orderly g is := ⟨h.line.mem_switches, h.inOrder, h.once⟩

/-- **Behind orderly items the values are settled exactly if no required parameter is missing.** -/
theorem Orderly.settle_eq_ok_iff (hg : g.Checked) {is : List Item} (h : Orderly g is)
    {offset : Nat} {values : List TypedValue} :
    settle special offset g.parameters
        (note (g.parameters.map fun _ => none) (is.flatMap Item.supplies)) = .ok values ↔
      (∀ d ∈ g.parameters, d.required = true →
        ∃ o ∈ is.flatMap Item.supplies, o.parameter = d) ∧
      values = g.parameters.map (settled special (is.flatMap Item.supplies)) := by
  have hvalue : ∀ d ∈ g.parameters, settledOr special d (((is.flatMap Item.supplies).find?
      (·.parameter.index = d.index)).map fun o => ⟨d.type, o.value⟩) =
      settled special (is.flatMap Item.supplies) d := fun d _ => by
    rw [settled, settledOr]
    cases (is.flatMap Item.supplies).find? (·.parameter.index = d.index) <;> rfl
  rw [h.note_eq hg, Grammar.settle_eq_ok_iff hg.fallback, List.map_congr_left hvalue]
  refine and_congr_left fun _ => forall₂_congr fun d hd => ?_
  rw [Option.isSome_map, h.isSome_find?_iff hg hd]

/-- **A line is read exactly if it is spelled as the grammar asks**, and the arguments are what
its items supply.  Parsers from outside keep the contract of `CustomParser`. -/
theorem parse_eq_ok_iff {ps : List Parameter} {r : Registry} {g : Grammar}
    (hps : ∀ p ∈ ps, p.Declared) (hb : (build ps r).1 = .ok g) (special : SpecialSet)
    (text : List Char) (args : Arguments) :
    g.parse special text = .ok args ↔
      ∃ is, g.Accepts special is text ∧ args = g.argumentsOf special is := by
  have hg := checked_of_build hps hb
  have hitems : ∀ p', g.items special (g.begin text) = .ok p' ↔
      ∃ is, Line g special true is text ∧ Orderly g is ∧ p' = behindItems (g.begin text) is :=
    fun _ => hg.items_eq_ok_iff (noted_begin g text)
  simp only [parse, bind_eq_ok_iff, hitems]
  constructor
  · intro h
    obtain ⟨_, ⟨is, hline, horderly, rfl⟩, values, hsettle, hargs⟩ := h
    obtain ⟨hcomplete, rfl⟩ := (horderly.settle_eq_ok_iff hg).1 hsettle
    refine ⟨is, ⟨hline, horderly.inOrder, horderly.once, hcomplete⟩, ?_⟩
    rw [← Except.ok.inj hargs, List.map_map]
    rfl
  · intro h
    obtain ⟨is, h, rfl⟩ := h
    refine ⟨_, ⟨is, h.line, h.orderly, rfl⟩, _,
      (h.orderly.settle_eq_ok_iff hg).2 ⟨h.complete, rfl⟩, ?_⟩
    rw [List.map_map]
    rfl

/-- The flag and the word on one line. -/
theorem parse_wordAndFlag :
    (∀ p ∈ wordAndFlag, p.Declared) ∧
    (build wordAndFlag (.empty fun _ _ => none)).1 = .ok ⟨[word, flag]⟩ ∧
    parse ⟨[word, flag]⟩ .builtIn ['-', 'v', ' ', 'a'] =
      .ok ⟨[some ⟨.string, .string "a"⟩, some ⟨.bool, .bool true⟩]⟩ := by
  refine ⟨declared_wordAndFlag, build_wordAndFlag, ?_⟩
  refine (parse_eq_ok_iff declared_wordAndFlag build_wordAndFlag .builtIn _ _).2
    ⟨[.options [flagged flag], .positional ⟨word, .string "a"⟩], ?_, rfl⟩
  have hvalue : IsValue .builtIn word (.string "a") ['a'] [] :=
    ⟨by decide, rfl, by decide, fun _ h => nomatch h⟩
  have hlook : ¬LooksLikeOption ⟨[word, flag]⟩ ['a'] := not_looksLikeOption (by decide)
  have hshort : HasShort ⟨[word, flag]⟩ 'v' flag := ⟨List.mem_cons_self, rfl⟩
  refine ⟨?_, List.prefix_refl [word], by decide, ?_⟩
  · exact .item Text.blank_nil (.cluster (.flag hshort rfl (by decide)))
      (.item (b := [' ']) (by simp; decide) (.value hvalue hlook) (.done Text.blank_nil))
  · intro d hd hrequired
    rcases List.mem_cons.1 hd with rfl | hd
    · exact ⟨_, List.mem_cons_of_mem _ List.mem_cons_self, rfl⟩
    · obtain rfl := List.mem_singleton.1 hd
      contradiction

end TypedConsole.Grammar
