import TypedConsole.Proofs.GroupSyntax

/-!
# TypedConsole.Proofs.Pieces

A group cut into pieces, before anything is said of what reads them.

`CutGroup` is the syntax of a group with a text in place of each element.  What is read of it is
decided piece by piece: if every piece is read whole by the reader in its place, then the group is
read as these elements (`CutGroup.groupIn_eq`), and if some piece is refused, then the group is
(`CutGroup.groupIn_refused`).  A piece that is read in part leaves the question open: the reader
has cut the group elsewhere.  Every group that is read can be cut into pieces that are read whole
(`groupIn_eq_some_iff_pieces`).

Nothing is assumed of the delimiters.  A blank may be declared a separator or a closing character,
and one character both of them; then there are just fewer groups.
-/

namespace TypedConsole.Reader

open Text

/-! ## the syntax -/

/-- A piece of a text, and what stands behind it. -/
structure Piece where
  text : List Char
  behind : List Char

/-- The text can be an element: it starts with something else than a blank, the end of a group or a
separator. -/
def Begins (closing separator : Char) (e : List Char) : Prop :=
  ∃ c e', e = c :: e' ∧ isBlank c = false ∧ c ≠ closing ∧ c ≠ separator

/-- `Pieces closing separator ps s t`: the text `s` consists of the pieces `ps`, of which there is
at least one, with gaps between them, and of `t`. -/
inductive Pieces (closing separator : Char) : List Piece → List Char → List Char → Prop
  | last (he : Begins closing separator e) : Pieces closing separator [⟨e, t⟩] (e ++ t) t
  | more (he : Begins closing separator e) (hg : Between separator g)
      (rest : Pieces closing separator ps s t) :
      Pieces closing separator (⟨e, g ++ s⟩ :: ps) (e ++ (g ++ s)) t

/-- `CutGroup pairs separator ps s r`: the text `s` is a group of the pieces `ps`, followed by
`r`. -/
inductive CutGroup (pairs : List Grouping) (separator : Char) :
    List Piece → List Char → List Char → Prop
  | empty (hopen : Opens pairs c closing) (hclosing : isBlank closing = false) (hb : Blank b) :
      CutGroup pairs separator [] (c :: (b ++ closing :: r)) r
  | pieces (hopen : Opens pairs c closing) (hclosing : isBlank closing = false)
      (hne : closing ≠ separator) (hb : Blank b)
      (hps : Pieces closing separator ps s (d ++ closing :: r)) (hd : Blank d) :
      CutGroup pairs separator ps (c :: (b ++ s)) r

/-! ## what is read of the pieces -/

/-- The reader reads the piece whole, as `a`. -/
def Piece.ReadAs (r : Reader α) (p : Piece) (a : α) : Prop :=
  r (p.text ++ p.behind) = (some a, p.behind)

/-- The reader reads the piece whole or refuses it. -/
def Piece.Undivided (r : Reader α) (p : Piece) : Prop :=
  ∀ a u, r (p.text ++ p.behind) = (some a, u) → u = p.behind

theorem Piece.ReadAs.undivided {r : Reader α} {p : Piece} {a : α} (h : p.ReadAs r a) :
    p.Undivided r := by
  intro a' u h'
  exact (Prod.mk.inj (h'.symm.trans h)).2

/-- `ReadAll element i ps as`: the pieces, numbered from `i` on, are read whole as the elements
`as`. -/
inductive ReadAll (element : Nat → Reader α) : Nat → List Piece → List α → Prop
  | nil : ReadAll element i [] []
  | cons (hp : p.ReadAs (element i) a) (rest : ReadAll element (i + 1) ps as) :
      ReadAll element i (p :: ps) (a :: as)

/-- No piece, numbered from `i` on, is read in part. -/
inductive NoneDivided (element : Nat → Reader α) : Nat → List Piece → Prop
  | nil : NoneDivided element i []
  | cons (hp : p.Undivided (element i)) (rest : NoneDivided element (i + 1) ps) :
      NoneDivided element i (p :: ps)

variable {closing separator : Char} {element : Nat → Reader α}

/-- One reader reads all pieces. -/
theorem readAll_const_iff {r : Reader α} {i : Nat} {ps : List Piece} {as : List α} :
    ReadAll (fun _ => r) i ps as ↔ List.Forall₂ (fun p a => p.ReadAs r a) ps as := by
  constructor
  · intro h
    induction h with
    | nil => exact .nil
    | cons hp _ ih => exact .cons hp ih
  · intro h
    induction h generalizing i with
    | nil => exact .nil
    | cons hp _ ih => exact .cons hp ih

/-! ## reading pieces -/

theorem Pieces.begins {ps : List Piece} {s t : List Char} (h : Pieces closing separator ps s t) :
    ∃ c r, s = c :: r ∧ isBlank c = false ∧ c ≠ separator := by
  cases h with
  | last he | more he =>
      obtain ⟨c, e', rfl, hc, -, hsep⟩ := he
      exact ⟨c, _, rfl, hc, hsep⟩

/-- Behind a gap the reader goes on with the next element, whatever the separator is. -/
theorem behindElement_between {i : Nat} {g u : List Char} {d : Char} (hg : Between separator g)
    (hd : isBlank d = false) (hne : d ≠ separator) :
    ∃ b separated, Blank b ∧ behindElement closing separator element i (g ++ d :: u) =
      elements closing separator element i separated (b ++ d :: u) := by
  cases hsep : isBlank separator with
  | false => exact behindElement_gap hg hsep hd hne
  | true =>
      -- such a separator is a blank among others
      have hblank : Blank g := by
        rcases hg with hg | ⟨b, b', hb, hb', rfl⟩
        · exact hg
        · exact hb.append (blank_cons.2 ⟨hsep, hb'⟩)
      exact ⟨[], false, blank_nil, behindElement_other hblank hd hne⟩

/-- The reader takes the pieces that are read whole, and goes on behind them. -/
theorem elements_of_readAll {i : Nat} {ps : List Piece} {as : List α} {s t w : List Char}
    {b : Bool} (hps : Pieces closing separator ps s t) (hread : ReadAll element i ps as)
    (hw : Blank w) :
    elements closing separator element i b (w ++ s) =
      ((behindElement closing separator element (i + as.length) t).1.map (as ++ ·),
        (behindElement closing separator element (i + as.length) t).2) := by
  induction hps generalizing i as b w with
  | last he =>
      cases hread with
      | cons hp rest =>
          cases rest
          exact elements_of_stands hw ⟨hp, he⟩
  | more he hg hrest ih =>
      cases hread with
      | cons hp rest =>
          obtain ⟨d, u, rfl, hd, hne⟩ := hrest.begins
          obtain ⟨b', separated, hb', hbehind⟩ := behindElement_between hg hd hne
          rw [elements_of_stands hw ⟨hp, he⟩, hbehind, ih rest hb', Option.map_map,
            List.length_cons, Nat.add_right_comm, Nat.add_assoc i]
          rfl

/-- An element that is refused is a failure. -/
theorem elements_of_refused {i : Nat} {b : Bool} {w e t : List Char} (hw : Blank w)
    (he : Begins closing separator e) (hread : (element i (e ++ t)).1 = none) :
    (elements closing separator element i b (w ++ (e ++ t))).1 = none := by
  obtain ⟨c, e', rfl, hc, hclose, hsep⟩ := he
  have hs : skipBlanks (w ++ (c :: e' ++ t)) = c :: (e' ++ t) := skipBlanks_append_cons hw hc
  have he : element i (c :: (e' ++ t)) = (none, (element i (c :: (e' ++ t))).2) :=
    Prod.ext hread rfl
  rw [elements_of_failure hs hclose hsep he]

/-- Of pieces that are not all read whole, although none is read in part, the reader refuses one. -/
theorem elements_of_noneDivided {i : Nat} {ps : List Piece} {s t w : List Char} {b : Bool}
    (hps : Pieces closing separator ps s t) (hwhole : NoneDivided element i ps)
    (hnot : ∀ as, ¬ReadAll element i ps as) (hw : Blank w) :
    (elements closing separator element i b (w ++ s)).1 = none := by
  induction hps generalizing i b w with
  | @last e t he =>
      cases hwhole with
      | cons hp _ =>
          refine elements_of_refused hw he ?_
          by_contra hread
          obtain ⟨a, ha⟩ := Option.ne_none_iff_exists'.1 hread
          have hbehind : (element i (e ++ t)).2 = t := hp a _ (Prod.ext ha rfl)
          exact hnot [a] (.cons (Prod.ext ha hbehind) .nil)
  | @more e g ps s t he hg hrest ih =>
      cases hwhole with
      | cons hp hwhole =>
          cases hread : (element i (e ++ (g ++ s))).1 with
          | none => exact elements_of_refused hw he hread
          | some a =>
              have hbehind : (element i (e ++ (g ++ s))).2 = g ++ s := hp a _ (Prod.ext hread rfl)
              have hreadAs : (⟨e, g ++ s⟩ : Piece).ReadAs (element i) a := Prod.ext hread hbehind
              obtain ⟨d, u, rfl, hd, hne⟩ := hrest.begins
              obtain ⟨b', separated, hb', hnext⟩ := behindElement_between hg hd hne
              rw [elements_of_stands hw ⟨hreadAs, he⟩, hnext,
                ih hwhole (fun as has => hnot (a :: as) (.cons hreadAs has)) hb']
              rfl

/-! ## reading a cut group -/

variable {pairs : List Grouping} {ps : List Piece} {as : List α} {s r : List Char}

/-- **A group whose pieces are read whole is read as these elements.** -/
theorem CutGroup.groupIn_eq (h : CutGroup pairs separator ps s r)
    (hread : ReadAll element 0 ps as) : groupIn pairs separator element s = (some as, r) := by
  cases h with
  | empty hopen hclosing hb =>
      cases hread
      rw [groupIn_of_opens hopen, elements_of_closing (skipBlanks_append_cons hb hclosing)]
      rfl
  | pieces hopen hclosing hne hb hps hd =>
      rw [groupIn_of_opens hopen, elements_of_readAll hps hread hb,
        behindElement_other hd hclosing hne, elements_of_closing (skipBlanks_cons hclosing)]
      simp

/-- **A group is refused with one of its pieces.** -/
theorem CutGroup.groupIn_refused (h : CutGroup pairs separator ps s r)
    (hwhole : NoneDivided element 0 ps) (hnot : ∀ as, ¬ReadAll element 0 ps as) :
    (groupIn pairs separator element s).1 = none := by
  cases h with
  | empty => exact absurd .nil (hnot [])
  | pieces hopen _ _ hb hps _ =>
      rw [groupIn_of_opens hopen]
      exact elements_of_noneDivided hps hwhole hnot hb

/-! ## every group is cut -/

/-- Elements in a row are pieces that are read whole. -/
theorem Row.exists_pieces {i : Nat} {t : List Char} (h : Row closing separator element i as s t) :
    ∃ ps, Pieces closing separator ps s t ∧ ReadAll element i ps as := by
  induction h with
  | last he => exact ⟨_, .last he.starts, .cons he.reads .nil⟩
  | more he hg _ ih =>
      obtain ⟨ps, hps, hread⟩ := ih
      exact ⟨_, .more he.starts hg hps, .cons he.reads hread⟩

/-- The closing character that is found is no blank, and behind an element or a separator it is not
the separator. -/
theorem Members.closing_spec {i : Nat} {b : Bool}
    (h : Members closing separator element i b s as r) :
    isBlank closing = false ∧ (as ≠ [] ∨ b = true → closing ≠ separator) := by
  induction h with
  | close hs =>
      obtain ⟨-, -, -, hblank⟩ := skipBlanks_eq_cons_iff.1 hs
      exact ⟨hblank, by simp⟩
  | separated _ _ _ _ _ _ _ ih => exact ⟨ih.1, fun _ => ih.2 (.inr rfl)⟩
  | @adjacent _ _ _ i _ _ _ u _ _ _ hs _ _ _ _ hu hd rest ih =>
      refine ⟨ih.1, fun _ => ?_⟩
      obtain ⟨-, -, -, hblank⟩ := skipBlanks_eq_cons_iff.1 hu
      cases rest with
      | close hclose =>
          rw [skipBlanks_cons hblank] at hclose
          exact (List.cons.inj hclose).1 ▸ hd
      | separated | adjacent => exact ih.2 (.inl (List.cons_ne_nil _ _))

/-- **A group is read exactly if it can be cut into pieces that are read whole**, provided that the
elements' readers leave an end of the text. -/
theorem groupIn_eq_some_iff_pieces
    (helement : ∀ i s a t, element i s = (some a, t) → t <:+ s) :
    groupIn pairs separator element s = (some as, r) ↔
      ∃ ps, CutGroup pairs separator ps s r ∧ ReadAll element 0 ps as := by
  refine ⟨fun h => ?_, fun ⟨ps, hps, hread⟩ => hps.groupIn_eq hread⟩
  cases s with
  | nil => simp [groupIn] at h
  | cons c s =>
      cases hp : pairs.find? (·.opening = c) with
      | none => simp [groupIn, hp] at h
      | some p =>
          obtain ⟨-, hopen⟩ := find?_eq_some_iff_opens.1 hp
          rw [groupIn_of_opens hopen, elements_eq_some_iff] at h
          obtain ⟨hblank, hne⟩ := h.closing_spec
          rcases h.blank_or_row_of_suffix helement with
            ⟨-, rfl, b, hb, rfl⟩ | ⟨b, s', b', hb, rfl, hrow, hb'⟩
          · exact ⟨[], .empty hopen hblank hb, .nil⟩
          · obtain ⟨ps, hps, hread⟩ := hrow.exists_pieces
            have has : as ≠ [] := by cases hrow <;> exact List.cons_ne_nil _ _
            exact ⟨ps, .pieces hopen hblank (hne (.inl has)) hb hps hb', hread⟩

end TypedConsole.Reader
