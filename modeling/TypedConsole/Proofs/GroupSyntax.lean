import TypedConsole.Proofs.Groups

/-!
# TypedConsole.Proofs.GroupSyntax

The syntax of a group, written down without the reader: an opening character, elements with gaps
between them, a closing character.  A gap is blanks, or one separator with blanks around it.

* `Row` — the elements and the gaps between them, each element being what its reader claims of
  the text from there on;
* `IsGroup` — the whole group, which the first pair with the opening character closes;
* `Spoiled` — what behind an opening character is no group: a separator too many, the wrong
  closing character, or none.

`groupIn_iff_isGroup` says that the reader of groups accepts exactly this syntax, whatever reads
the elements.
-/

namespace TypedConsole.Reader

open Text

/-! ## the syntax -/

/-- What may stand between two elements: blanks, or a separator with blanks around it. -/
def Between (separator : Char) (g : List Char) : Prop :=
  Blank g ∨ ∃ b b', Blank b ∧ Blank b' ∧ g = b ++ separator :: b'

/-- The characters `e` are the element number `i`, with value `a`, in front of `t`: its reader
claims exactly them, and they do not start like the end of a group, a separator or a blank. -/
structure Stands (closing separator : Char) (element : Nat → Reader α) (i : Nat) (a : α)
    (e t : List Char) : Prop where
  reads : element i (e ++ t) = (some a, t)
  starts : ∃ c e', e = c :: e' ∧ isBlank c = false ∧ c ≠ closing ∧ c ≠ separator

/-- `Row closing separator element i as s t`: the text `s` consists of the elements `as`, of
which there is at least one, numbered from `i` on and with gaps between them, and of `t`. -/
inductive Row (closing separator : Char) (element : Nat → Reader α) :
    Nat → List α → List Char → List Char → Prop
  | last (he : Stands closing separator element i a e t) :
      Row closing separator element i [a] (e ++ t) t
  | more (he : Stands closing separator element i a e (g ++ s)) (hg : Between separator g)
      (rest : Row closing separator element (i + 1) as s t) :
      Row closing separator element i (a :: as) (e ++ (g ++ s)) t

/-- The character `c` opens a group that ends with `closing`: the first pair that has it says so. -/
def Opens (pairs : List Grouping) (c closing : Char) : Prop :=
  ∃ before after, pairs = before ++ ⟨c, closing⟩ :: after ∧ ∀ p ∈ before, p.opening ≠ c

/-- `IsGroup pairs separator element as s r`: the text `s` is a group of the elements `as`,
followed by `r`. -/
inductive IsGroup (pairs : List Grouping) (separator : Char) (element : Nat → Reader α) :
    List α → List Char → List Char → Prop
  | empty (hopen : Opens pairs c closing) (hb : Blank b) :
      IsGroup pairs separator element [] (c :: (b ++ closing :: r)) r
  | elements (hopen : Opens pairs c closing) (hb : Blank b)
      (hrow : Row closing separator element 0 as s (b' ++ closing :: r)) (hb' : Blank b') :
      IsGroup pairs separator element as (c :: (b ++ s)) r

/-- `Spoiled closing separator element s`: behind an opening character, `s` is no group. -/
inductive Spoiled (closing separator : Char) (element : Nat → Reader α) : List Char → Prop
  /-- A separator before the first element, or in place of it. -/
  | leading (hb : Blank b) : Spoiled closing separator element (b ++ separator :: s)
  /-- A separator behind the last element. -/
  | trailing (hb : Blank b)
      (hrow : Row closing separator element 0 as s (b' ++ separator :: (b'' ++ closing :: r)))
      (hb' : Blank b') (hb'' : Blank b'') : Spoiled closing separator element (b ++ s)
  /-- Two separators with nothing but blanks between them. -/
  | doubled (hb : Blank b)
      (hrow : Row closing separator element 0 as s (b' ++ separator :: (b'' ++ separator :: r)))
      (hb' : Blank b') (hb'' : Blank b'') : Spoiled closing separator element (b ++ s)
  /-- Another character than the closing one in an empty group. -/
  | wrongFirst (hb : Blank b) (hd : isBlank d = false ∧ d ≠ closing)
      (he : (element 0 (d :: r)).1 = none) : Spoiled closing separator element (b ++ d :: r)
  /-- Another character than the closing one behind elements. -/
  | wrong (hb : Blank b) (hrow : Row closing separator element 0 as s (g ++ d :: r))
      (hg : Between separator g) (hd : isBlank d = false ∧ d ≠ closing ∧ d ≠ separator)
      (he : (element as.length (d :: r)).1 = none) : Spoiled closing separator element (b ++ s)
  /-- The text ends behind elements. -/
  | unfinished (hb : Blank b) (hrow : Row closing separator element 0 as s g)
      (hg : Between separator g) : Spoiled closing separator element (b ++ s)
  /-- There is no closing character anywhere. -/
  | unclosed (hs : closing ∉ s) : Spoiled closing separator element s

/-- Whenever it succeeds, claims characters at the front, at least one. -/
def Takes (r : Reader α) : Prop := ∀ s a t, r s = (some a, t) → ∃ e, e ≠ [] ∧ s = e ++ t

theorem Claims.takes {r : Reader α} (hr : r.Claims) (hconsumes : r.Consumes) : r.Takes := by
  intro s a t h
  obtain ⟨e, rfl⟩ : t <:+ s := by
    have := hr s
    rwa [h] at this
  refine ⟨e, ?_, rfl⟩
  rintro rfl
  exact Nat.lt_irrefl _ (hconsumes _ _ _ h)

variable {closing separator : Char} {element : Nat → Reader α}

/-! ## from members to a row -/

/-- What the reader of an element claims behind blanks stands there. -/
theorem exists_stands {i : Nat} {s r t : List Char} {c : Char} {a : α}
    (hs : skipBlanks s = c :: r) (hclose : c ≠ closing) (hsep : c ≠ separator)
    (he : element i (c :: r) = (some a, t)) (ht : t <:+ c :: r) (hlt : t.length < (c :: r).length) :
    ∃ b e, Blank b ∧ s = b ++ (e ++ t) ∧ Stands closing separator element i a e t := by
  obtain ⟨b, hb, rfl, hc⟩ := skipBlanks_eq_cons_iff.1 hs
  obtain ⟨e, htext⟩ := ht
  cases e with
  | nil =>
      rw [← htext, List.nil_append] at hlt
      exact absurd hlt (Nat.lt_irrefl _)
  | cons d e' =>
      obtain ⟨rfl, rfl⟩ := List.cons.inj htext
      exact ⟨b, d :: e', hb, rfl, he, d, e', rfl, hc, hclose, hsep⟩

/-- Members are a row, with blanks before it and behind it; without a separator in front there may
be none. -/
theorem Members.blank_or_row_of_suffix
    (helement : ∀ i s a t, element i s = (some a, t) → t <:+ s) {i : Nat} {b : Bool}
    {s r : List Char} {as : List α} (h : Members closing separator element i b s as r) :
    (b = false ∧ as = [] ∧ ∃ b', Blank b' ∧ s = b' ++ closing :: r) ∨
      ∃ b' s' b'', Blank b' ∧ s = b' ++ s' ∧
        Row closing separator element i as s' (b'' ++ closing :: r) ∧ Blank b'' := by
  induction h with
  | close hs =>
      obtain ⟨b, hb, rfl, -⟩ := skipBlanks_eq_cons_iff.1 hs
      exact .inl ⟨rfl, rfl, b, hb, rfl⟩
  | separated hs hclose hsep he hlt hu _ ih =>
      obtain ⟨b₀, e, hb₀, rfl, hstands⟩ :=
        exists_stands hs hclose hsep he (helement _ _ _ _ he) hlt
      obtain ⟨b₁, hb₁, rfl, -⟩ := skipBlanks_eq_cons_iff.1 hu
      -- behind a separator there is another element
      rcases ih with ⟨h, -⟩ | ⟨b₂, s', b'', hb₂, rfl, hrow, hb''⟩
      · contradiction
      · rw [← List.cons_append, ← List.append_assoc b₁] at hstands ⊢
        exact .inr ⟨b₀, _, b'', hb₀, rfl, .more hstands (.inr ⟨b₁, b₂, hb₁, hb₂, rfl⟩) hrow, hb''⟩
  | adjacent hs hclose hsep he hlt hu hd _ ih =>
      obtain ⟨b₀, e, hb₀, rfl, hstands⟩ :=
        exists_stands hs hclose hsep he (helement _ _ _ _ he) hlt
      obtain ⟨b₁, hb₁, rfl, -⟩ := skipBlanks_eq_cons_iff.1 hu
      rcases ih with ⟨-, rfl, b₂, hb₂, htail⟩ | ⟨b₂, s', b'', hb₂, htail, hrow, hb''⟩
      · rw [htail, ← List.append_assoc b₁] at hstands ⊢
        exact .inr ⟨b₀, _, b₁ ++ b₂, hb₀, rfl, .last hstands, hb₁.append hb₂⟩
      · rw [htail, ← List.append_assoc b₁] at hstands ⊢
        exact .inr ⟨b₀, _, b'', hb₀, rfl, .more hstands (.inl (hb₁.append hb₂)) hrow, hb''⟩

theorem Members.blank_or_row (helement : ∀ i, (element i).Takes) {i : Nat} {b : Bool}
    {s r : List Char} {as : List α} (h : Members closing separator element i b s as r) :
    (b = false ∧ as = [] ∧ ∃ b', Blank b' ∧ s = b' ++ closing :: r) ∨
      ∃ b' s' b'', Blank b' ∧ s = b' ++ s' ∧
        Row closing separator element i as s' (b'' ++ closing :: r) ∧ Blank b'' := by
  refine h.blank_or_row_of_suffix fun i s a t he => ?_
  obtain ⟨e, -, rfl⟩ := helement i s a t he
  exact List.suffix_append e t

/-! ## reading a row -/

/-- How the reader goes on behind an element, the next one having number `i`. -/
def behindElement (closing separator : Char) (element : Nat → Reader α) (i : Nat)
    (t : List Char) : Option (List α) × List Char :=
  match skipBlanks t with
  | [] => (none, [])
  | d :: u =>
    if d = separator then elements closing separator element i true u
    else elements closing separator element i false (d :: u)

theorem behindElement_blank {i : Nat} {b : List Char} (hb : Blank b) :
    behindElement closing separator element i b = (none, []) := by
  rw [behindElement, skipBlanks_eq_nil_iff.2 hb]

theorem behindElement_separator {i : Nat} {b u : List Char} (hb : Blank b)
    (hsep : isBlank separator = false) :
    behindElement closing separator element i (b ++ separator :: u) =
      elements closing separator element i true u := by
  rw [behindElement, skipBlanks_append_cons hb hsep]
  exact if_pos rfl

theorem behindElement_other {i : Nat} {b u : List Char} {d : Char} (hb : Blank b)
    (hd : isBlank d = false) (hne : d ≠ separator) :
    behindElement closing separator element i (b ++ d :: u) =
      elements closing separator element i false (d :: u) := by
  rw [behindElement, skipBlanks_append_cons hb hd]
  exact if_neg hne

/-- Behind a gap the reader goes on with the next element; it remembers whether the gap has a
separator, and may have left blanks. -/
theorem behindElement_gap {i : Nat} {g u : List Char} {d : Char} (hg : Between separator g)
    (hsep : isBlank separator = false) (hd : isBlank d = false) (hne : d ≠ separator) :
    ∃ b separated, Blank b ∧ behindElement closing separator element i (g ++ d :: u) =
      elements closing separator element i separated (b ++ d :: u) := by
  rcases hg with hb | ⟨b, b', hb, hb', rfl⟩
  · exact ⟨[], false, blank_nil, behindElement_other hb hd hne⟩
  · refine ⟨b', true, hb', ?_⟩
    rw [List.append_assoc, List.cons_append, behindElement_separator hb hsep]

/-- An element and what is read behind it. -/
theorem elements_of_stands {i : Nat} {b : Bool} {w e t : List Char} {a : α} (hw : Blank w)
    (he : Stands closing separator element i a e t) :
    elements closing separator element i b (w ++ (e ++ t)) =
      ((behindElement closing separator element (i + 1) t).1.map (a :: ·),
        (behindElement closing separator element (i + 1) t).2) := by
  obtain ⟨c, e', rfl, hc, hclose, hsep⟩ := he.starts
  have hs : skipBlanks (w ++ (c :: e' ++ t)) = c :: (e' ++ t) := skipBlanks_append_cons hw hc
  have hlt : t.length < (c :: (e' ++ t)).length := by
    rw [List.length_cons, List.length_append]
    omega
  rw [elements_of_element hs hclose hsep he.reads hlt, behindElement]
  cases skipBlanks t <;> rfl

/-- A row starts with its first element. -/
theorem Row.starts {i : Nat} {as : List α} {s t : List Char}
    (h : Row closing separator element i as s t) :
    ∃ c r, s = c :: r ∧ isBlank c = false ∧ c ≠ separator := by
  cases h with
  | last he | more he =>
      obtain ⟨c, e', rfl, hc, -, hsep⟩ := he.starts
      exact ⟨c, _, rfl, hc, hsep⟩

/-- The reader takes the elements of a row and goes on behind them. -/
theorem elements_of_row (hsep : isBlank separator = false) {i : Nat} {as : List α}
    {s t : List Char} (h : Row closing separator element i as s t) {b : Bool} {w : List Char}
    (hw : Blank w) :
    elements closing separator element i b (w ++ s) =
      ((behindElement closing separator element (i + as.length) t).1.map (as ++ ·),
        (behindElement closing separator element (i + as.length) t).2) := by
  induction h generalizing b w with
  | last he => exact elements_of_stands hw he
  | @more i a e g s as t he hg rest ih =>
      obtain ⟨d, u, rfl, hd, hne⟩ := rest.starts
      obtain ⟨b', separated, hb', hbehind⟩ := behindElement_gap hg hsep hd hne
      rw [elements_of_stands hw he, hbehind, ih hb', Option.map_map, List.length_cons,
        Nat.add_right_comm, Nat.add_assoc i]
      rfl

/-! ## the theorem -/

/-- The pair that the reader selects. -/
theorem find?_eq_some_iff_opens {pairs : List Grouping} {c : Char} {p : Grouping} :
    pairs.find? (·.opening = c) = some p ↔ p.opening = c ∧ Opens pairs c p.closing := by
  rw [List.find?_eq_some_iff_append]
  constructor
  · rintro ⟨hp, before, after, hpairs, hbefore⟩
    obtain rfl : p.opening = c := by simpa using hp
    exact ⟨rfl, before, after, hpairs, by simpa using hbefore⟩
  · rintro ⟨rfl, before, after, hpairs, hbefore⟩
    exact ⟨by simp, before, after, hpairs, by simpa using hbefore⟩

/-- Behind an opening character the reader reads elements. -/
theorem groupIn_of_opens {pairs : List Grouping} {c : Char} (h : Opens pairs c closing)
    (s : List Char) :
    groupIn pairs separator element (c :: s) = elements closing separator element 0 false s := by
  have hfind : pairs.find? (·.opening = c) = some ⟨c, closing⟩ :=
    find?_eq_some_iff_opens.2 ⟨rfl, h⟩
  rw [groupIn, hfind]

theorem Opens.mem {pairs : List Grouping} {c : Char} (h : Opens pairs c closing) :
    ⟨c, closing⟩ ∈ pairs := by
  obtain ⟨before, after, rfl, -⟩ := h
  simp

/-- A group contains its closing character. -/
theorem Members.closing_mem {i : Nat} {b : Bool} {s r : List Char} {as : List α}
    (helement : ∀ i, (element i).Takes)
    (h : Members closing separator element i b s as r) : closing ∈ s := by
  induction h with
  | close hs =>
      obtain ⟨b, -, rfl, -⟩ := skipBlanks_eq_cons_iff.1 hs
      simp
  | separated hs _ _ he _ hu _ ih | adjacent hs _ _ he _ hu _ _ ih =>
      obtain ⟨b, -, rfl, -⟩ := skipBlanks_eq_cons_iff.1 hs
      obtain ⟨b', -, rfl, -⟩ := skipBlanks_eq_cons_iff.1 hu
      obtain ⟨e, -, htext⟩ := helement _ _ _ _ he
      grind

/-- What is spoiled is not read. -/
theorem elements_of_spoiled (hclosing : isBlank closing = false)
    (hblank : isBlank separator = false) (hne : separator ≠ closing)
    (helement : ∀ i, (element i).Takes)
    {s : List Char} (h : Spoiled closing separator element s) :
    (elements closing separator element 0 false s).1 = none := by
  cases h with
  | leading hb => rw [elements_of_separator (skipBlanks_append_cons hb hblank) hne]
  | trailing hb hrow hb' hb'' =>
      rw [elements_of_row hblank hrow hb, behindElement_separator hb' hblank,
        elements_of_closing (skipBlanks_append_cons hb'' hclosing)]
      rfl
  | doubled hb hrow hb' hb'' =>
      rw [elements_of_row hblank hrow hb, behindElement_separator hb' hblank,
        elements_of_separator (skipBlanks_append_cons hb'' hblank) hne]
      rfl
  | @wrongFirst b d r hb hd he =>
      by_cases hsep : d = separator
      · subst hsep
        rw [elements_of_separator (skipBlanks_append_cons hb hblank) hne]
      · have hread : element 0 (d :: r) = (none, (element 0 (d :: r)).2) := by rw [← he]
        rw [elements_of_failure (skipBlanks_append_cons hb hd.1) hd.2 hsep hread]
  | @wrong b as s g d r hb hrow hg hd he =>
      obtain ⟨b', separated, hb', hbehind⟩ : ∃ b' separated, Blank b' ∧
          behindElement closing separator element (0 + as.length) (g ++ d :: r) =
            elements closing separator element (0 + as.length) separated (b' ++ d :: r) :=
        behindElement_gap hg hblank hd.1 hd.2.2
      have hread : element (0 + as.length) (d :: r) = (none, (element as.length (d :: r)).2) := by
        rw [← he, Nat.zero_add]
      rw [elements_of_row hblank hrow hb, hbehind,
        elements_of_failure (skipBlanks_append_cons hb' hd.1) hd.2.1 hd.2.2 hread]
      rfl
  | unfinished hb hrow hg =>
      rw [elements_of_row hblank hrow hb]
      rcases hg with hg | ⟨b', b'', hb', hb'', rfl⟩
      · rw [behindElement_blank hg]
        rfl
      · rw [behindElement_separator hb' hblank, elements_of_nil (skipBlanks_eq_nil_iff.2 hb'')]
        rfl
  | unclosed hs =>
      cases has : (elements closing separator element 0 false s).1 with
      | none => rfl
      | some as =>
          have hmembers := elements_eq_some_iff.1 (Prod.ext has rfl)
          exact absurd (hmembers.closing_mem helement) hs

/-- **The reader of groups accepts exactly the groups.**  Let no closing character be a blank, let
the separator be neither a blank nor a closing character, and let the readers of the elements claim
something whenever they succeed.  Then the reader gives the elements `as` and leaves `r` exactly on
an opening character, the elements with gaps between them and blanks at both ends, the closing
character of the first pair with that opening, and `r`; each element is given once, in its place.
Behind an opening character it fails on everything that is spoiled. -/
theorem groupIn_iff_isGroup (pairs : List Grouping) (separator : Char)
    (element : Nat → Reader α) (hclosing : ∀ p ∈ pairs, isBlank p.closing = false)
    (hblank : isBlank separator = false) (hsep : ∀ p ∈ pairs, separator ≠ p.closing)
    (helement : ∀ i s a t, element i s = (some a, t) → ∃ e, e ≠ [] ∧ s = e ++ t) :
    (∀ s as r, groupIn pairs separator element s = (some as, r) ↔
      IsGroup pairs separator element as s r) ∧
    (∀ c closing s, Opens pairs c closing → Spoiled closing separator element s →
      (groupIn pairs separator element (c :: s)).1 = none) := by
  refine ⟨fun s as r => ⟨fun h => ?_, fun h => ?_⟩, fun c closing s hopen h => ?_⟩
  · cases s with
    | nil => simp [groupIn] at h
    | cons c s =>
        cases hp : pairs.find? (·.opening = c) with
        | none => simp [groupIn, hp] at h
        | some p =>
            obtain ⟨-, hopen⟩ := find?_eq_some_iff_opens.1 hp
            rw [groupIn_of_opens hopen, elements_eq_some_iff] at h
            rcases h.blank_or_row helement with
              ⟨-, rfl, b, hb, rfl⟩ | ⟨b, s', b', hb, rfl, hrow, hb'⟩
            · exact .empty hopen hb
            · exact .elements hopen hb hrow hb'
  · cases h with
    | empty hopen hb =>
        have hc := hclosing _ hopen.mem
        rw [groupIn_of_opens hopen, elements_of_closing (skipBlanks_append_cons hb hc)]
        rfl
    | elements hopen hb hrow hb' =>
        have hc := hclosing _ hopen.mem
        have hne := hsep _ hopen.mem
        rw [groupIn_of_opens hopen, elements_of_row hblank hrow hb,
          behindElement_other hb' hc hne.symm, elements_of_closing (skipBlanks_cons hc)]
        simp
  · rw [groupIn_of_opens hopen]
    exact elements_of_spoiled (hclosing _ hopen.mem) hblank (hsep _ hopen.mem) helement h

/-- Parentheses with integers in them: two elements, and a separator too many. -/
theorem groupIn_parentheses :
    (∀ p ∈ Groupings.brackets.toList, isBlank p.closing = false) ∧ isBlank ',' = false ∧
    (∀ p ∈ Groupings.brackets.toList, ',' ≠ p.closing) ∧
    (∀ _ : Nat, (integer .i32 .builtIn).Takes) ∧
    groupIn Groupings.brackets.toList ',' (fun _ => integer .i32 .builtIn)
      ['(', '1', ' ', ',', '2', ')', 'x'] = (some [1, 2], ['x']) ∧
    Opens Groupings.brackets.toList '(' ')' ∧
    Spoiled ')' ',' (fun _ => integer .i32 .builtIn) ['1', ',', ')'] ∧
    (groupIn Groupings.brackets.toList ',' (fun _ => integer .i32 .builtIn)
      ['(', '1', ',', ')']).1 = none := by
  have hclosing : ∀ p ∈ Groupings.brackets.toList, isBlank p.closing = false := by decide
  have hsep : ∀ p ∈ Groupings.brackets.toList, ',' ≠ p.closing := by decide
  have helement : ∀ _ : Nat, (integer .i32 .builtIn).Takes := fun _ =>
    (claims_integer _ _).takes (consumes_integer _ _)
  obtain ⟨hiff, hspoiled⟩ := groupIn_iff_isGroup Groupings.brackets.toList ','
    (fun _ => integer .i32 .builtIn) hclosing (by decide) hsep helement
  have hopen : Opens Groupings.brackets.toList '(' ')' := ⟨[⟨'[', ']'⟩], [], rfl, by decide⟩
  have hone : Row ')' ',' (fun _ => integer .i32 .builtIn) 0 [1] ['1', ',', ')']
      ([] ++ ',' :: ([] ++ ')' :: [])) := .last (e := ['1']) ⟨by decide, '1', [], rfl, by decide⟩
  have htrailing : Spoiled ')' ',' (fun _ => integer .i32 .builtIn) ['1', ',', ')'] :=
    .trailing (b := []) blank_nil hone blank_nil blank_nil
  have htwo : Row ')' ',' (fun _ => integer .i32 .builtIn) 0 [1, 2]
      ['1', ' ', ',', '2', ')', 'x'] ([] ++ ')' :: ['x']) :=
    .more (g := [' ', ',']) (e := ['1']) ⟨by decide, '1', [], rfl, by decide⟩
      (.inr ⟨[' '], [], blank_cons.2 ⟨by decide, blank_nil⟩, blank_nil, rfl⟩)
      (.last (e := ['2']) ⟨by decide, '2', [], rfl, by decide⟩)
  exact ⟨hclosing, by decide, hsep, helement,
    (hiff _ _ _).2 (.elements (b := []) hopen blank_nil htwo blank_nil), hopen, htrailing,
    hspoiled _ _ _ hopen htrailing⟩

end TypedConsole.Reader
