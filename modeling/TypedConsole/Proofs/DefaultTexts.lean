import TypedConsole.Proofs.Interleaving

/-!
# TypedConsole.Proofs.DefaultTexts

A default that is written as a text acts as if it had been typed.

The text is read by the parser of its parameter alone, apart from the line and when the line is at
its end.  A line on which the option and the text are typed last has the same items in front of
them as the line without: each item is read the same when what follows behind its blanks is taken
away (`Spelled.trim`), since parsers look one character ahead.  And the value typed there is what
the parser reads when it is given the text alone.
-/

namespace TypedConsole.Grammar

/-! ## readings on their way -/

/-- The reading of a line that stands at `p` comes by `q`, with some items between them. -/
inductive Reaches (g : Grammar) (special : SpecialSet) : Progress → Progress → Prop
  | refl (p : Progress) : Reaches g special p p
  | next (hs : Text.skipBlanks p.cursor.rest = c :: r)
      (hitem : g.item special { p with cursor := p.cursor.skipBlanks } = .ok p')
      (rest : Reaches g special p' q) : Reaches g special p q

/-- `Lead g special enabled is s t`: the text `s` starts with the items `is`, with blanks in front
of them, and `t` follows them. -/
inductive Lead (g : Grammar) (special : SpecialSet) :
    Bool → List Item → List Char → List Char → Prop
  | nil : Lead g special enabled [] s s
  | item (hb : Text.Blank b) (hi : Spelled g special enabled i s t)
      (rest : Lead g special (enabled && !i.isMark) is t u) :
      Lead g special enabled (i :: is) (b ++ s) u

variable {g : Grammar} {special : SpecialSet} {d x : Descriptor} {p q : Progress} {c : Char}
  {s t z : List Char}

theorem Lead.suffix {enabled : Bool} {is : List Item} (h : Lead g special enabled is s t) :
    t <:+ s := by
  induction h with
  | nil => exact List.suffix_refl _
  | item _ hi _ ih => exact ih.trans (hi.suffix.1.trans (List.suffix_append _ _))

/-- A blank or the end of the line follows the items. -/
theorem Lead.ends {enabled : Bool} {is : List Item} (h : Lead g special enabled is s t) :
    s = t ∨ Text.atBoundary t = true := by
  induction h with
  | nil => exact .inl rfl
  | item _ hi _ ih =>
      rcases ih with rfl | hend
      · exact .inr hi.ends
      · exact .inr hend

/-- Items with nothing but blanks behind them are a line. -/
theorem Lead.line {enabled : Bool} {is : List Item} (h : Lead g special enabled is s t)
    (ht : Text.Blank t) : Line g special enabled is s := by
  induction h with
  | nil => exact .done ht
  | item hb hi _ ih => exact .item hb hi (ih ht)

/-- What has been read on the way are items as a line asks for them. -/
theorem Checked.lead_of_reaches (hg : g.Checked) {his : List Item} (h : Reaches g special p q)
    (hp : Noted g his p) :
    ∃ is, Lead g special p.optionsEnabled is p.cursor.rest q.cursor.rest ∧
      Noted g (his ++ is) q ∧ g.items special p = g.items special q := by
  induction h generalizing his with
  | refl p => exact ⟨[], .nil, by rwa [List.append_nil], rfl⟩
  | @next c r p p' q hs hitem _ ih =>
      have hrest : p.cursor.skipBlanks.rest = c :: r := by rw [Cursor.rest_skipBlanks, hs]
      obtain ⟨i, t, hspelled, hadmits, hp'⟩ := hg.spelled_of_item hrest
        (Text.atBoundary_cons.trans (Text.isBlank_of_skipBlanks_eq_cons hs)) hitem
      obtain ⟨b, hb, hsplit, -⟩ := Text.skipBlanks_eq_cons_iff.1 hs
      have hbehind : p'.cursor.rest = t := by
        rw [hp']
        exact Cursor.rest_leaving (hrest ▸ hspelled.suffix.1)
      have hnoted : Noted g (his ++ [i]) p' := by
        have horderly := (Noted.admits_iff hg hp fun os ho => by
          subst ho
          exact hspelled.mem_switches).1 hadmits
        rw [hp']
        exact hp.behindItem horderly t
      obtain ⟨is, hlead, hq, hitems⟩ := ih hnoted
      refine ⟨i :: is, ?_, by rwa [List.append_assoc] at hq, ?_⟩
      · rw [hsplit]
        refine .item hb hspelled ?_
        have henabled : p'.optionsEnabled = (p.optionsEnabled && !i.isMark) := by rw [hp']; rfl
        rwa [hbehind, henabled] at hlead
      · rw [hg.items_of_item hs, hitem, ← hitems]
        rfl

/-! ## taking away what follows -/

theorem eq_append_of_append_eq {w : List Char} (h : s ++ z = w ++ (t ++ z)) : s = w ++ t := by
  rw [← List.append_assoc] at h
  exact List.append_cancel_right h

theorem atBoundary_of_append (h : Text.atBoundary (t ++ z) = true) : Text.atBoundary t = true := by
  cases t with
  | nil => rfl
  | cons c t => exact h

/-- A value in front of `t ++ z` is the same in front of `t`. -/
theorem IsValue.trim (hd : d.parser.Synthesized) {v : Value}
    (h : IsValue special d v (s ++ z) (t ++ z)) : IsValue special d v s t := by
  obtain ⟨w, hw⟩ := h.suffix
  obtain rfl := eq_append_of_append_eq hw.symm
  have hreplaces : special.Replaces (t ++ z) t := by
    cases t with
    | nil => exact .inr fun c hc => nomatch hc
    | cons c t => exact special.replaces_cons c _ _
  obtain ⟨c, r, rfl⟩ : ∃ c r, w = c :: r := List.exists_cons_of_ne_nil fun hnil => by
    have hlength := h.length_lt
    rw [hnil, List.nil_append] at hlength
    exact Nat.lt_irrefl _ hlength
  refine ⟨h.starts, hd.carries hreplaces _ _ ?_, atBoundary_of_append h.ends, h.permitted⟩
  rw [hw, h.read]

theorem Cluster.trim (hsynth : ∀ d ∈ g.parameters, d.parser.Synthesized) {os : List Supply}
    {s' t' : List Char} (h : Cluster g special os s' t') (hs : s ++ z = s') (ht : t ++ z = t') :
    Cluster g special os s t := by
  induction h generalizing s with
  | @flag c d t' hc hd hend =>
      subst ht
      obtain rfl : s = [c] ++ t := eq_append_of_append_eq hs
      exact .flag hc hd (atBoundary_of_append hend)
  | @merged c d os s' t' hc hd hrest ih =>
      subst ht
      obtain ⟨w, rfl⟩ := hrest.suffix
      obtain rfl : s = (c :: w) ++ t := eq_append_of_append_eq hs
      exact .merged hc hd (ih (List.append_assoc _ _ _) rfl)
  | @attached c d v s' t' hc hd hv =>
      subst ht
      obtain ⟨w, rfl⟩ := hv.suffix
      obtain rfl : s = (c :: w) ++ t := eq_append_of_append_eq hs
      rw [← List.append_assoc] at hv
      exact .attached hc hd (hv.trim (hsynth d (Grammar.mem_switches.1 hc.1).1))
  | @spaced c d b v s' t' hc hd hb hne hv =>
      subst ht
      obtain ⟨w, rfl⟩ := hv.suffix
      rw [← List.append_assoc, ← List.cons_append] at hs
      obtain rfl := eq_append_of_append_eq hs
      rw [← List.append_assoc] at hv
      rw [List.cons_append, List.append_assoc]
      exact .spaced hc hd hb hne (hv.trim (hsynth d (Grammar.mem_switches.1 hc.1).1))

theorem LooksLikeOption.append (h : g.LooksLikeOption s) (z : List Char) :
    g.LooksLikeOption (s ++ z) := by
  rcases h with hd | ⟨c, r, rfl, hc⟩
  · exact .inl (hd.trans (List.prefix_append _ _))
  · exact .inr ⟨c, r ++ z, rfl, hc⟩

/-- **An item in front of `t ++ z` is the same in front of `t`.** -/
theorem Spelled.trim (hsynth : ∀ d ∈ g.parameters, d.parser.Synthesized) {enabled : Bool}
    {i : Item} {s' t' : List Char} (h : Spelled g special enabled i s' t')
    (hi : ∀ o ∈ i.supplies, o.parameter ∈ g.parameters) (hs : s ++ z = s') (ht : t ++ z = t') :
    Spelled g special enabled i s t := by
  have hsupply : ∀ {d : Descriptor} {v : Value}, i.supplies = [⟨d, v⟩] →
      d.parser.Synthesized := fun {d v} h => hsynth d (hi ⟨d, v⟩ (by simp [h]))
  cases h with
  | @cluster os s' t' hc =>
      subst ht
      obtain ⟨w, rfl⟩ := hc.suffix
      obtain rfl : s = (dash :: w) ++ t := eq_append_of_append_eq hs
      exact .cluster (hc.trim hsynth (List.append_assoc _ _ _) rfl)
  | longFlag hl hd hend =>
      subst ht
      obtain rfl := eq_append_of_append_eq hs
      exact .longFlag hl hd (atBoundary_of_append hend)
  | @longAttached long d v s' t' hl hd hv =>
      subst ht
      obtain ⟨w, rfl⟩ := hv.suffix
      rw [← List.cons_append, ← List.append_assoc] at hs
      obtain rfl := eq_append_of_append_eq hs
      rw [← List.append_assoc] at hv
      rw [List.append_assoc, List.cons_append]
      exact .longAttached hl hd (hv.trim (hsupply rfl))
  | @longSpaced long d b v s' t' hl hd hb hne hv =>
      subst ht
      obtain ⟨w, rfl⟩ := hv.suffix
      rw [← List.append_assoc b, ← List.append_assoc] at hs
      obtain rfl := eq_append_of_append_eq hs
      rw [← List.append_assoc] at hv
      rw [List.append_assoc, List.append_assoc b]
      exact .longSpaced hl hd hb hne (hv.trim (hsupply rfl))
  | mark hend =>
      subst ht
      obtain rfl := eq_append_of_append_eq hs
      exact .mark (atBoundary_of_append hend)
  | value hv ho =>
      subst hs ht
      exact .value (hv.trim (hsupply rfl)) fun h => ho (h.append z)
  | valueBehindMark hv =>
      subst hs ht
      exact .valueBehindMark (hv.trim (hsupply rfl))

/-- Items in front of `t ++ z` are the same in front of `t`. -/
theorem Lead.trim (hsynth : ∀ d ∈ g.parameters, d.parser.Synthesized) {enabled : Bool}
    {is : List Item} {s' t' : List Char} (h : Lead g special enabled is s' t')
    (his : ∀ o ∈ is.flatMap Item.supplies, o.parameter ∈ g.parameters) (hs : s ++ z = s')
    (ht : t ++ z = t') : Lead g special enabled is s t := by
  induction h generalizing s with
  | nil =>
      subst ht
      rw [List.append_cancel_right hs]
      exact .nil
  | @item b enabled i s' u is t' hb hi hrest ih =>
      subst ht
      obtain ⟨w, rfl⟩ := hrest.suffix
      obtain ⟨v, rfl⟩ := hi.suffix.1
      rw [← List.append_assoc, ← List.append_assoc] at hs
      obtain rfl := eq_append_of_append_eq hs
      have hmem : ∀ o ∈ i.supplies ++ is.flatMap Item.supplies, o.parameter ∈ g.parameters := his
      rw [List.append_assoc, List.append_assoc]
      exact .item hb (hi.trim hsynth (fun o ho => hmem o (List.mem_append_left _ ho))
        (by simp only [List.append_assoc]) (List.append_assoc _ _ _))
        (ih (fun o ho => hmem o (List.mem_append_right _ ho)) (List.append_assoc _ _ _) rfl)

/-! ## the text typed last -/

/-- Behind the short name of a switch and a blank stands its value. -/
theorem Checked.spelled_spaced (hg : g.Checked) (hc : g.HasShort c x) (hk : x.kind = .switch)
    (hs : Text.atBoundary s = true) {i : Item}
    (h : Spelled g special true i (dash :: c :: s) t) :
    ∃ v, i = .options [⟨x, v⟩] ∧ IsValue special x v (Text.skipBlanks s) t := by
  obtain ⟨-, hdash, -⟩ := hg.validShort_of_hasShort hc
  have howner : ∀ {d}, g.HasShort c d → d = x := fun hd =>
    Option.some.inj ((hg.findShort_eq_some_iff.2 hd).symm.trans (hg.findShort_eq_some_iff.2 hc))
  -- a second dash would be the short name
  have hlong : ∀ {u}, dash :: c :: s ≠ doubleDash ++ u := fun he =>
    hdash (List.cons.inj (List.cons.inj he).2).1
  generalize hw : dash :: c :: s = w at h
  cases h with
  | cluster hcluster =>
      obtain rfl := (List.cons.inj hw).2
      cases hcluster with
      | flag hd hflag =>
          rw [howner hd, hk] at hflag
          contradiction
      | merged hd hflag =>
          rw [howner hd, hk] at hflag
          contradiction
      | attached hd _ hv =>
          rw [hv.starts] at hs
          contradiction
      | spaced hd _ hb _ hv =>
          obtain rfl := howner hd
          exact ⟨_, rfl, isValue_skipBlanks_iff.2 ⟨_, _, hb, rfl, hv⟩⟩
  | longFlag =>
      rw [List.append_assoc] at hw
      exact absurd hw hlong
  | longAttached =>
      rw [List.append_assoc] at hw
      exact absurd hw hlong
  | longSpaced =>
      rw [List.append_assoc] at hw
      exact absurd hw hlong
  | mark => exact absurd hw hlong
  | value _ ho =>
      subst hw
      exact absurd (.inr ⟨c, s, rfl, .inr ⟨x, hc⟩⟩) ho

/-- A word typed behind a line and a blank stands behind the line's items and blanks. -/
theorem Lead.eq_append_of_word {enabled : Bool} {is : List Item} {b w : List Char}
    (h : Lead g special enabled is (s ++ ' ' :: w) (b ++ w)) (hb : Text.Blank b)
    (hw : Text.atBoundary w = false) : ∃ b', Text.Blank b' ∧ b ++ w = b' ++ ' ' :: w := by
  obtain ⟨v, hv⟩ := h.suffix
  have hsplit : s ++ [' '] = v ++ b := by
    have h' : (s ++ [' ']) ++ w = (v ++ b) ++ w := by
      rw [List.append_assoc, List.append_assoc, hv]
      rfl
    exact List.append_cancel_right h'
  rcases List.eq_nil_or_concat b with rfl | ⟨b', a, rfl⟩
  · -- without a blank in between, no item would have ended there
    rcases h.ends with he | hend
    · have hlength := congrArg List.length he
      simp only [List.length_append, List.length_cons, List.nil_append] at hlength
      omega
    · rw [List.nil_append, hw] at hend
      contradiction
  · rw [List.concat_eq_append, ← List.append_assoc] at hsplit
    obtain ⟨-, ha⟩ := List.append_inj' hsplit rfl
    obtain rfl := (List.cons.inj ha).1
    rw [List.concat_eq_append] at hb ⊢
    exact ⟨b', fun c hc => hb c (List.mem_append_left _ hc), List.append_assoc _ _ _⟩

/-- What is in front of a word typed last is a line of its own. -/
theorem Checked.line_of_reaches (hg : g.Checked)
    (hsynth : ∀ d ∈ g.parameters, d.parser.Synthesized) {w : List Char}
    (h : g.Reaches special (g.begin (s ++ ' ' :: w)) q) (hq : Text.skipBlanks q.cursor.rest = w)
    (hw : Text.atBoundary w = false) :
    ∃ is, Line g special true is s ∧ Noted g is q ∧
      g.items special (g.begin (s ++ ' ' :: w)) = g.items special q := by
  obtain ⟨is, hlead, hnoted, hitems⟩ := hg.lead_of_reaches h (noted_begin g _)
  rw [List.nil_append] at hnoted
  have hrest : (g.begin (s ++ ' ' :: w)).cursor.rest = s ++ ' ' :: w := Cursor.rest_start _
  obtain ⟨c, r, rfl, -⟩ := Text.atBoundary_eq_false_iff.1 hw
  obtain ⟨b, hb, hsplit, -⟩ := Text.skipBlanks_eq_cons_iff.1 hq
  rw [hrest, hsplit] at hlead
  obtain ⟨b', hb', hsplit'⟩ := hlead.eq_append_of_word hb hw
  rw [hsplit'] at hlead
  exact ⟨is, (hlead.trim hsynth (fun _ => hnoted.orderly.mem_parameters) rfl rfl).line hb',
    hnoted, hitems⟩

/-- A switch typed last supplies its value. -/
theorem Noted.items_of_typed_last (hg : g.Checked) {is : List Item} (h : Noted g is q)
    (hc : g.HasShort c x) (hk : x.kind = .switch) (henabled : q.optionsEnabled = true)
    (hs : Text.atBoundary s = true) (hq : Text.skipBlanks q.cursor.rest = dash :: c :: s)
    (hitem : g.item special { q with cursor := q.cursor.skipBlanks } = .ok p)
    (hp : Text.Blank p.cursor.rest) :
    ∃ v t, IsValue special x v (Text.skipBlanks s) t ∧
      Noted g (is ++ [.options [⟨x, v⟩]]) p ∧
      g.items special q = .ok { p with cursor := p.cursor.leaving [] } := by
  let q₀ : Progress := { q with cursor := q.cursor.skipBlanks }
  have hrest : q₀.cursor.rest = dash :: c :: s := by rw [Cursor.rest_skipBlanks, hq]
  have hnoted : Noted g is q₀ := ⟨h.supplied, h.filled, h.orderly⟩
  obtain ⟨i, t, hspelled, hadmits, hbehind⟩ := hg.spelled_of_item hrest rfl hitem
  rw [henabled] at hspelled
  obtain ⟨v, rfl, hv⟩ := hg.spelled_spaced hc hk hs hspelled
  have horderly : Orderly g (is ++ [.options [⟨x, v⟩]]) := by
    refine (Noted.admits_iff hg hnoted fun os ho => ?_).1 hadmits
    rw [← Item.options.inj ho]
    exact hspelled.mem_switches
  refine ⟨v, t, hv, ?_, ?_⟩
  · rw [hbehind]
    exact hnoted.behindItem horderly t
  · rw [hg.items_of_item hq, hitem]
    exact items_of_blank (Text.skipBlanks_eq_nil_iff.2 hp)

/-! ## settling with and without it -/

/-- Behind orderly items the arguments are theirs, if no required parameter is missing. -/
theorem Noted.finish_eq_ok_iff (hg : g.Checked) {is : List Item} (h : Noted g is p)
    {args : Arguments} :
    g.finish special p = .ok args ↔
      (∀ d ∈ g.parameters, d.required = true →
        ∃ o ∈ is.flatMap Item.supplies, o.parameter = d) ∧
      args = g.argumentsOf special is := by
  rw [finish, h.supplied, bind_eq_ok_iff]
  constructor
  · rintro ⟨values, hsettle, hargs⟩
    obtain ⟨hcomplete, rfl⟩ := (h.orderly.settle_eq_ok_iff hg).1 hsettle
    refine ⟨hcomplete, (Except.ok.inj hargs).symm.trans ?_⟩
    rw [List.map_map]
    rfl
  · rintro ⟨hcomplete, rfl⟩
    refine ⟨_, (h.orderly.settle_eq_ok_iff hg).2 ⟨hcomplete, rfl⟩, ?_⟩
    rw [List.map_map]
    rfl

theorem find?_index_eq_none {os : List Supply} {k : Nat}
    (h : k ∉ os.map (·.parameter.index)) : os.find? (·.parameter.index = k) = none :=
  List.find?_eq_none.2 fun o ho => by
    simpa using fun he : o.parameter.index = k => h (List.mem_map.2 ⟨o, ho, he⟩)

/-- What a parameter takes whose default is a text. -/
theorem settled_of_text {os : List Supply} {literal : String}
    (hx : x.fallback = some (.text literal)) (hos : x.index ∉ os.map (·.parameter.index)) :
    settled special os x =
      ⟨x.type, ((x.parser.read special (Text.skipBlanks literal.toList)).1).getD x.zero⟩ := by
  rw [settled, find?_index_eq_none hos, hx]
  rfl

/-- Supplying the value that a default text is read as changes nothing. -/
theorem Checked.settled_append_text (hg : g.Checked) {os : List Supply} {literal : String}
    {v : Value} (hx : x ∈ g.parameters) (hfallback : x.fallback = some (.text literal))
    (hv : IsValue special x v (Text.skipBlanks literal.toList) t)
    (hos : x.index ∉ os.map (·.parameter.index)) (hd : d ∈ g.parameters) :
    settled special (os ++ [⟨x, v⟩]) d = settled special os d := by
  by_cases hindex : x.index = d.index
  · obtain rfl := hg.eq_of_index_eq hx hd hindex
    rw [settled_of_text hfallback hos, settled, List.find?_append, find?_index_eq_none hos,
      hv.read]
    simp
  · simp [settled, List.find?_append, hindex]

/-- **A default text acts as if typed.**  If the reading of a line comes by the option and the
default text of its parameter, and nothing but blanks is left behind the value, the line without
them gives the same arguments. -/
theorem Checked.parse_without_typed_text (hg : g.Checked)
    (hsynth : ∀ d ∈ g.parameters, d.parser.Synthesized) (hc : g.HasShort c x)
    (hk : x.kind = .switch) {literal : String} (hfallback : x.fallback = some (.text literal))
    {args : Arguments}
    (h : g.parse special (s ++ ' ' :: dash :: c :: ' ' :: literal.toList) = .ok args)
    (hreach : g.Reaches special (g.begin (s ++ ' ' :: dash :: c :: ' ' :: literal.toList)) q)
    (henabled : q.optionsEnabled = true)
    (hq : Text.skipBlanks q.cursor.rest = dash :: c :: ' ' :: literal.toList)
    (hitem : g.item special { q with cursor := q.cursor.skipBlanks } = .ok p)
    (hwhole : Text.Blank p.cursor.rest) : g.parse special s = .ok args := by
  have hx := (mem_switches.1 hc.1).1
  obtain ⟨is, hline, hnoted, hitems⟩ := hg.line_of_reaches hsynth hreach hq rfl
  obtain ⟨v, t, hv, hlast, hrest⟩ :=
    hnoted.items_of_typed_last hg hc hk henabled rfl hq hitem hwhole
  have hsupplies : (is ++ [Item.options [⟨x, v⟩]]).flatMap Item.supplies =
      is.flatMap Item.supplies ++ [⟨x, v⟩] := by simp [Item.supplies]
  have hos : x.index ∉ (is.flatMap Item.supplies).map (·.parameter.index) := fun hmem => by
    have honce := hlast.orderly.once
    rw [hsupplies, List.map_append, List.nodup_append'] at honce
    exact honce.2.2 hmem (List.mem_singleton.2 rfl)
  -- the line with the option is settled by the items in front of it and its value
  rw [parse_eq_resume, resume, hitems, hrest] at h
  have hlast' : Noted g (is ++ [.options [⟨x, v⟩]]) { p with cursor := p.cursor.leaving [] } :=
    ⟨hlast.supplied, hlast.filled, hlast.orderly⟩
  obtain ⟨hcomplete, rfl⟩ := (hlast'.finish_eq_ok_iff hg).1 h
  have hargs : g.argumentsOf special (is ++ [.options [⟨x, v⟩]]) = g.argumentsOf special is := by
    rw [argumentsOf, hsupplies]
    exact congrArg Arguments.mk (List.map_congr_left fun d hd =>
      congrArg some (hg.settled_append_text hx hfallback hv hos hd))
  -- and so is the one without
  have hcomplete' : ∀ d ∈ g.parameters, d.required = true →
      ∃ o ∈ is.flatMap Item.supplies, o.parameter = d := fun d hd hrequired => by
    obtain ⟨o, ho, rfl⟩ := hcomplete d hd hrequired
    rw [hsupplies, List.mem_append, List.mem_singleton] at ho
    rcases ho with ho | rfl
    · exact ⟨o, ho, rfl⟩
    · have hoptional := hg.fallback x hx
      rw [hfallback, hrequired] at hoptional
      contradiction
  have hbehind : Noted g is (behindItems (g.begin s) is) := ⟨rfl, Nat.zero_add _, hnoted.orderly⟩
  rw [hargs, parse_eq_resume, resume,
    hg.items_of_line hline (noted_begin g s) rfl (Cursor.rest_start s) hnoted.orderly]
  exact (hbehind.finish_eq_ok_iff hg).2 ⟨hcomplete', rfl⟩

/-! ## the value of the text -/

/-- The initial value of a parameter is that of its type. -/
theorem zero_of_build {ps : List Parameter} {r : Registry} (hb : (build ps r).1 = .ok g)
    (hd : d ∈ g.parameters) : d.zero = d.type.zero r.types := by
  have htypes : ∀ (r' : Registry) t, r'.types = r.types → (r'.resolve t).2.types = r.types :=
    fun r' t h => (r'.types_resolve t).trans h
  obtain ⟨p, -, r', index, parser, hr', -, rfl⟩ :=
    exists_described (describes_of_build (Q := (·.types = r.types)) htypes rfl hb) hd
  show p.type.zero (parserFor p r').2.types = p.type.zero r.types
  rw [parserFor_keeps (Q := (·.types = r.types)) htypes p hr']

/-- On a line without the parameter it has the value of its default text. -/
theorem Checked.value_of_text (hg : g.Checked) (hx : x ∈ g.parameters) {literal : String}
    (hfallback : x.fallback = some (.text literal)) {args : Arguments}
    (hp : g.items special (g.begin s) = .ok p) (hnot : ¬Supplied p x.index)
    (h : g.parse special s = .ok args) :
    args.values[x.index]? = some (some
      ⟨x.type, ((x.parser.read special (Text.skipBlanks literal.toList)).1).getD x.zero⟩) := by
  obtain ⟨is, -, horderly, rfl⟩ := hg.line_of_items (noted_begin g s) hp
  rw [List.nil_append] at horderly
  have hbehind : Noted g is (behindItems (g.begin s) is) := ⟨rfl, Nat.zero_add _, horderly⟩
  rw [parse_eq_resume, resume, hp] at h
  obtain ⟨-, rfl⟩ := (hbehind.finish_eq_ok_iff hg).1 h
  have hos : x.index ∉ (is.flatMap Item.supplies).map (·.parameter.index) := fun hmem => by
    have hlength : ∀ o ∈ is.flatMap Item.supplies,
        o.parameter.index < (g.parameters.map fun _ => (none : Option TypedValue)).length :=
      fun o ho => by
        rw [List.length_map]
        exact hg.index_lt (horderly.mem_parameters ho)
    refine hnot (Option.isSome_iff_ne_none.2 fun hnone => ?_)
    exact ((join_note_eq_none_iff hlength).1 hnone).2 hmem
  rw [argumentsOf, hg.getElem?_map_index hx, settled_of_text hfallback hos]

/-- **A default text acts as if typed.**  Let all parsers be made by resolution, and let an
optional switch fall back to a text.

If the reading of a line comes by the switch's short name, behind a blank and with options still
recognised, and the value read there is the default text up to blanks at its ends, then the line
without the option gives the same arguments.  On every line that does not supply the switch, its
value is the initial one of its type exactly if its parser rejects the text behind its leading
blanks, or reads it as that value. -/
theorem default_text_acts_as_typed {ps : List Parameter} {r : Registry}
    (hps : ∀ p ∈ ps, p.Declared) (hb : (build ps r).1 = .ok g)
    (hsynth : ∀ d ∈ g.parameters, d.parser.Synthesized) (special : SpecialSet)
    (hx : x ∈ g.switches) (hkind : x.kind = .switch) (hshort : x.short = some c)
    {literal : String} (hfallback : x.fallback = some (.text literal)) :
    (∀ s args q p,
      g.parse special (s ++ ' ' :: dash :: c :: ' ' :: literal.toList) = .ok args →
      g.Reaches special (g.begin (s ++ ' ' :: dash :: c :: ' ' :: literal.toList)) q →
      q.optionsEnabled = true →
      Text.skipBlanks q.cursor.rest = dash :: c :: ' ' :: literal.toList →
      g.item special { q with cursor := q.cursor.skipBlanks } = .ok p →
      Text.Blank p.cursor.rest →
      g.parse special s = .ok args) ∧
    ∀ s args p, g.items special (g.begin s) = .ok p → ¬Supplied p x.index →
      g.parse special s = .ok args →
      ∃ v, args.values[x.index]? = some (some ⟨x.type, v⟩) ∧
        (v = x.type.zero r.types ↔
          (x.parser.read special (Text.skipBlanks literal.toList)).1 = none ∨
          (x.parser.read special (Text.skipBlanks literal.toList)).1 =
            some (x.type.zero r.types)) := by
  have hg := checked_of_build hps hb
  have hmem := (mem_switches.1 hx).1
  refine ⟨fun s args q p h hreach henabled hq hitem hwhole =>
    hg.parse_without_typed_text hsynth ⟨hx, hshort⟩ hkind hfallback h hreach henabled hq hitem
      hwhole, fun s args p hp hnot h => ⟨_, hg.value_of_text hmem hfallback hp hnot h, ?_⟩⟩
  rw [zero_of_build hb hmem]
  cases (x.parser.read special (Text.skipBlanks literal.toList)).1 <;> simp

/-! ## a word and a level -/

/-- A word, and a switch that falls back to a text with a blank in it. -/
def wordAndLevel : List Parameter :=
  [.positional .string "word", (Parameter.switch (.integer .i32) 'n').withDefaultText " 5"]

theorem declared_wordAndLevel : ∀ p ∈ wordAndLevel, p.Declared := by
  intro p hp
  rcases List.mem_cons.1 hp with rfl | hp
  · exact .positional _ _
  · obtain rfl := List.mem_singleton.1 hp
    exact .withDefaultText _ (.optional (.requiredSwitch _ _))

/-- The descriptor of the switch. -/
def defaultLevel : Descriptor :=
  describe 1 ((Parameter.switch (.integer .i32) 'n').withDefaultText " 5") (.integer .i32)
    (.integer 0)

theorem build_wordAndLevel :
    (build wordAndLevel (.empty fun _ _ => none)).1 = .ok ⟨[word, defaultLevel]⟩ := rfl

/-- The word with the option and its default text behind it, and the word alone. -/
theorem parse_wordAndLevel :
    parse ⟨[word, defaultLevel]⟩ .builtIn ['a', ' ', '-', 'n', ' ', ' ', '5'] =
      .ok ⟨[some ⟨.string, .string "a"⟩, some ⟨.integer .i32, .integer 5⟩]⟩ ∧
    parse ⟨[word, defaultLevel]⟩ .builtIn ['a'] =
      .ok ⟨[some ⟨.string, .string "a"⟩, some ⟨.integer .i32, .integer 5⟩]⟩ := by
  have hparsers : ∀ p ∈ wordAndLevel, p.parser = none := by
    intro p hp
    rcases List.mem_cons.1 hp with rfl | hp
    · rfl
    · obtain rfl := List.mem_singleton.1 hp
      rfl
  have hsynth := Parser.synthesized_of_build (.empty _) hparsers build_wordAndLevel
  have hg := checked_of_build declared_wordAndLevel build_wordAndLevel
  have hshort : HasShort ⟨[word, defaultLevel]⟩ 'n' defaultLevel := ⟨List.mem_cons_self, rfl⟩
  have hblank : Text.Blank [' ', ' '] :=
    Text.blank_cons.2 ⟨by decide, Text.blank_cons.2 ⟨by decide, Text.blank_nil⟩⟩
  have hword : Spelled ⟨[word, defaultLevel]⟩ .builtIn true (.positional ⟨word, .string "a"⟩)
      ['a', ' ', '-', 'n', ' ', ' ', '5'] [' ', '-', 'n', ' ', ' ', '5'] :=
    .value ⟨by decide, rfl, by decide, fun _ h => nomatch h⟩ (not_looksLikeOption (by decide))
  have hlevel : Spelled ⟨[word, defaultLevel]⟩ .builtIn true
      (.options [⟨defaultLevel, .integer 5⟩]) ['-', 'n', ' ', ' ', '5'] [] :=
    .cluster (.spaced (b := [' ', ' ']) (s := ['5']) hshort rfl hblank (List.cons_ne_nil _ _)
      ⟨by decide, rfl, by decide, fun _ h => nomatch h⟩)
  let p := begin ⟨[word, defaultLevel]⟩ ['a', ' ', '-', 'n', ' ', ' ', '5']
  let q := behindItem p (.positional ⟨word, .string "a"⟩) [' ', '-', 'n', ' ', ' ', '5']
  have hfirst : item ⟨[word, defaultLevel]⟩ .builtIn { p with cursor := p.cursor.skipBlanks } =
      .ok q := hg.item_of_spelled rfl hword rfl
  have hsecond : item ⟨[word, defaultLevel]⟩ .builtIn { q with cursor := q.cursor.skipBlanks } =
      .ok _ := hg.item_of_spelled rfl hlevel ⟨rfl, trivial⟩
  have hparse : parse ⟨[word, defaultLevel]⟩ .builtIn ['a', ' ', '-', 'n', ' ', ' ', '5'] =
      .ok ⟨[some ⟨.string, .string "a"⟩, some ⟨.integer .i32, .integer 5⟩]⟩ := by
    have hgap : Text.Blank [' '] := Text.blank_cons.2 ⟨by decide, Text.blank_nil⟩
    have hline : Line ⟨[word, defaultLevel]⟩ .builtIn true _
        ['a', ' ', '-', 'n', ' ', ' ', '5'] :=
      .item Text.blank_nil hword (.item (b := [' ']) hgap hlevel (.done Text.blank_nil))
    rw [parse, hg.items_of_line hline (noted_begin _ _) rfl rfl
      ⟨hline.mem_switches, List.prefix_refl [word], by decide⟩]
    rfl
  refine ⟨hparse, ?_⟩
  exact (default_text_acts_as_typed declared_wordAndLevel build_wordAndLevel hsynth .builtIn
    (x := defaultLevel) List.mem_cons_self rfl rfl rfl).1 ['a'] _ q _ hparse
    (.next (c := 'a') rfl hfirst (.refl q)) rfl rfl hsecond
    (Text.skipBlanks_eq_nil_iff.1 rfl)

end TypedConsole.Grammar
