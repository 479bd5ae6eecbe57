import TypedConsole.Proofs.HelpSections
import TypedConsole.Proofs.Wrapping
import Mathlib.Data.List.Forall2

/-!
# TypedConsole.Proofs.HelpRows

How the rows of a help message are laid out.

`Aligned` says which characters the lines of a row have: the first one the name, a piece of the text
and the template in columns, and one for each further piece, which starts where the column of the
text does.  How long such lines can be is counted once (`Aligned.length_le`).  A layout has the
columns of its rows (`left_layout`, `besideMiddle_layout`) and leaves the text what the total width
allows, or the least width (`middle_fit_le`).  `AlignedSection` says all of that of the lines of a
section, and `help_rows_aligned` of the lines of a whole message, whose three sections share the
width of the names.
-/

namespace TypedConsole

/-! ## texts -/

namespace Text

variable {s t : List Char}

/-- Blanks at the end are dropped. -/
theorem dropTrailingBlanks_append_blanks (s : List Char) (h : ∀ c ∈ t, isBlank c = true) :
    dropTrailingBlanks (s ++ t) = dropTrailingBlanks s := by
  have hblank : ∀ c ∈ t.reverse, isBlank c = true := fun c hc => h c (List.mem_reverse.1 hc)
  rw [dropTrailingBlanks, List.reverse_append, skipBlanks, List.dropWhile_append_of_pos hblank]
  rfl

theorem dropTrailingBlanks_append_spaces (s : List Char) (n : Nat) :
    dropTrailingBlanks (s ++ spaces n) = dropTrailingBlanks s :=
  dropTrailingBlanks_append_blanks s fun c hc => by
    rw [List.eq_of_mem_replicate hc]
    decide

/-- Nothing is dropped behind a character that is no blank. -/
theorem dropTrailingBlanks_append_eq_self (s : List Char) (hne : t ≠ [])
    (h : ∀ c ∈ t.getLast?, isBlank c = false) : dropTrailingBlanks (s ++ t) = s ++ t := by
  obtain ⟨t, c, rfl⟩ := List.eq_nil_or_concat t |>.resolve_left hne
  have hc : isBlank c = false := h c (by simp)
  simp [dropTrailingBlanks, skipBlanks, hc]

/-- `Trimmed s t`: the text `t` is `s` without the blanks at its end. -/
structure Trimmed (s t : List Char) : Prop where
  blanks : ∃ blanks, s = t ++ blanks ∧ ∀ c ∈ blanks, isBlank c = true
  ends : ∀ c ∈ t.getLast?, isBlank c = false

theorem Trimmed.isPrefix (h : Trimmed s t) : t <+: s := by
  obtain ⟨blanks, hblanks, -⟩ := h.blanks
  exact ⟨blanks, hblanks.symm⟩

theorem trimmed_dropTrailingBlanks (s : List Char) : Trimmed s (dropTrailingBlanks s) where
  blanks := by
    refine ⟨(s.reverse.takeWhile isBlank).reverse, ?_, fun c hc => ?_⟩
    · rw [dropTrailingBlanks, skipBlanks, ← List.reverse_append, List.takeWhile_append_dropWhile,
        List.reverse_reverse]
    · exact List.mem_takeWhile_imp (List.mem_reverse.1 hc)
  ends c hc := by
    rw [dropTrailingBlanks, List.getLast?_reverse] at hc
    have hfirst := List.head?_dropWhile_not isBlank s.reverse
    rw [← skipBlanks, Option.mem_def.1 hc] at hfirst
    simpa using hfirst

theorem Trimmed.eq (h : Trimmed s t) : t = dropTrailingBlanks s := by
  obtain ⟨blanks, rfl, hblanks⟩ := h.blanks
  rw [dropTrailingBlanks_append_blanks t hblanks]
  by_cases hnil : t = []
  · subst hnil
    rfl
  · exact (dropTrailingBlanks_append_eq_self [] hnil h.ends).symm

/-- Words, each one behind a space, are at most one character longer than the text from the first
word on. -/
theorem length_spaced_words_le (s : List Char) :
    (spaced (words s)).length ≤ (skipBlanks s).length + 1 := by
  fun_induction words s with
  | case1 s hs => exact Nat.zero_le _
  | case2 s c r hs ih =>
      have hsplit := congrArg List.length
        (List.takeWhile_append_dropWhile (p := (!isBlank ·)) (l := c :: r))
      -- behind the first word, the blank that ends it counts for the space
      have hrest : (spaced (words (afterLeadingWord (c :: r)))).length ≤
          (afterLeadingWord (c :: r)).length := by
        cases hafter : afterLeadingWord (c :: r) with
        | nil => simp [words, skipBlanks, spaced]
        | cons b t =>
            have hb : isBlank b = true := by
              have := List.head?_dropWhile_not (!isBlank ·) (c :: r)
              rw [← afterLeadingWord, hafter] at this
              simpa using this
            have hskip : skipBlanks (b :: t) = skipBlanks t := List.dropWhile_cons_of_pos hb
            rw [hafter, hskip] at ih
            exact ih.trans (Nat.succ_le_succ (length_skipBlanks_le t))
      rw [List.length_append] at hsplit
      rw [hs, ← hsplit, spaced, List.flatMap_cons, List.length_append, List.length_cons]
      rw [spaced] at hrest
      simp only [leadingWord, afterLeadingWord] at hrest ⊢
      omega

/-- The words joined by single spaces are no longer than the text. -/
theorem length_intercalate_words_le (s : List Char) :
    ([' '].intercalate (words s)).length ≤ s.length := by
  cases hwords : words s with
  | nil => exact Nat.zero_le _
  | cons w ws =>
      have hle := (length_spaced_words_le s).trans (Nat.succ_le_succ (length_skipBlanks_le s))
      rw [hwords, spaced, List.flatMap_cons] at hle
      rw [intercalate_cons]
      exact Nat.le_of_succ_le_succ hle

end Text

/-! ## pieces of a text -/

namespace Help

open WrappedLine (rejoin Fits)

variable {width : Nat} {text piece : List Char} {l : WrappedLine} {ls : List WrappedLine} {c : Char}

/-- A piece of a wrapped text fits its column, does not end in a blank, and has no blanks but
spaces. -/
structure Piece (width : Nat) (piece : List Char) : Prop where
  ne_nil : piece ≠ []
  length_le : piece.length ≤ width
  ends : ∀ c ∈ piece.getLast?, Text.isBlank c = false
  spaces : ∀ c ∈ piece, Text.isBlank c = true → c = ' '

theorem mem_rejoin (hl : l ∈ ls) (hc : c ∈ l.content) : c ∈ rejoin ls := by
  induction ls with
  | nil => cases hl
  | cons k ls ih =>
      by_cases hnil : ls = []
      · subst hnil
        obtain rfl := List.mem_singleton.1 hl
        exact hc
      · rw [rejoin_cons hnil]
        rcases List.mem_cons.1 hl with rfl | hl
        · exact List.mem_append_left _ (List.mem_append_left _ hc)
        · exact List.mem_append_right _ (ih hl)

/-- What stands on a line is in the text, but for a hyphen. -/
theorem Wraps.mem_text (h : Wraps width text ls) (hl : l ∈ ls) (hc : c ∈ l.text) :
    c ∈ text ∨ c = '-' := by
  rw [← h.rejoins]
  cases hcut : l.cut with
  | false => exact .inl (mem_rejoin hl (by simpa [WrappedLine.content, hcut] using hc))
  | true =>
      obtain ⟨before, rest, rfl⟩ := List.append_of_mem hl
      obtain ⟨word, -, -, htext, -⟩ := (h.fits l rest (List.suffix_append _ _)).full hcut
      rw [htext, List.mem_append, List.mem_singleton] at hc
      refine hc.imp_left fun hc => mem_rejoin hl ?_
      simpa [WrappedLine.content, hcut, htext] using hc

/-- The words joined by single spaces have no other blanks. -/
theorem eq_space_of_mem_intercalate (hc : c ∈ [' '].intercalate (Text.words text))
    (hblank : Text.isBlank c = true) : c = ' ' := by
  have hmem : ∀ ws : List (List Char), (∀ w ∈ ws, Text.IsWord w) → c ∈ Text.spaced ws → c = ' ' :=
    fun ws hws hc => by
      obtain ⟨w, hw, hc⟩ := List.mem_flatMap.1 hc
      refine (List.mem_cons.1 hc).resolve_right fun hc => ?_
      rw [(hws w hw).solid c hc] at hblank
      contradiction
  refine hmem (Text.words text) (fun _ => Text.isWord_of_mem_words) ?_
  cases hwords : Text.words text with
  | nil => simp [hwords] at hc
  | cons w ws =>
      rw [hwords, Text.intercalate_cons] at hc
      exact List.mem_cons_of_mem _ hc

theorem wrap_eq_nil (h : Text.words text = []) : wrap width text = [] := by
  rw [wrap, h]
  rfl

theorem piece_of_mem_wrap (hwidth : 2 ≤ width) (h : piece ∈ wrap width text) :
    Piece width piece := by
  have hwords : Text.words text ≠ [] := fun hnil => by
    rw [wrap_eq_nil hnil] at h
    cases h
  obtain ⟨ls, hls, hwraps⟩ := wraps_wrap hwidth hwords
  rw [hls] at h
  obtain ⟨l, hl, rfl⟩ := List.mem_map.1 h
  obtain ⟨before, rest, heq⟩ := List.append_of_mem hl
  have hfits := hwraps.fits l rest (heq ▸ List.suffix_append _ _)
  refine ⟨hfits.ne_nil, hfits.length_le, hfits.ends, fun c hc hblank => ?_⟩
  rcases hwraps.mem_text hl hc with hc | rfl
  · exact eq_space_of_mem_intercalate hc hblank
  · exact absurd hblank (by decide)

/-- `Pieces width text pieces`: the text, its words joined by single spaces, stands on lines of the
width as these pieces.  A text without words has none. -/
structure Pieces (width : Nat) (text : List Char) (pieces : List (List Char)) : Prop where
  piece : ∀ piece ∈ pieces, Piece width piece
  wraps : (Text.words text = [] ∧ pieces = []) ∨ ∃ ls : List WrappedLine,
    pieces = ls.map (·.text) ∧ Wraps width ([' '].intercalate (Text.words text)) ls

theorem pieces_wrap (hwidth : 2 ≤ width) (text : List Char) :
    Pieces width text (wrap width text) where
  piece _ := piece_of_mem_wrap hwidth
  wraps := by
    by_cases hwords : Text.words text = []
    · exact .inl ⟨hwords, wrap_eq_nil hwords⟩
    · exact .inr (wraps_wrap hwidth hwords)

/-- A text that is no longer than a line is not broken. -/
theorem Wraps.length_le_one (h : Wraps width text ls) (hle : text.length ≤ width) :
    ls.length ≤ 1 := by
  match ls, h with
  | [], _ | [_], _ => simp
  | l :: k :: rest, h =>
      exfalso
      have hfits := h.fits l (k :: rest) (List.suffix_refl _)
      have hlength := congrArg List.length h.rejoins
      have hword : ∀ s : List Char, (Text.leadingWord s).length ≤ s.length := fun s =>
        (List.takeWhile_prefix _).length_le
      -- a second line needs a word that is too long, or one that the first has no room for
      cases hcut : l.cut with
      | true =>
          obtain ⟨word, rfl, hlong, -⟩ := hfits.full hcut
          have := hword (rejoin (l :: k :: rest))
          omega
      | false =>
          have hbroken := hfits.broken hcut (List.cons_ne_nil _ _)
          have := hword (rejoin (k :: rest))
          rw [rejoin_cons (List.cons_ne_nil _ _), WrappedLine.content, hcut] at hlength
          simp at hlength
          omega

theorem Pieces.length_le_one {pieces : List (List Char)} (hp : Pieces width text pieces)
    (h : text.length ≤ width) : pieces.length ≤ 1 := by
  rcases hp.wraps with ⟨-, rfl⟩ | ⟨ls, rfl, hwraps⟩
  · exact Nat.zero_le 1
  · rw [List.length_map]
    exact hwraps.length_le_one ((Text.length_intercalate_words_le text).trans h)

/-- The first piece, if there is one, fits its column. -/
theorem Pieces.length_headD_le {pieces : List (List Char)} (hp : Pieces width text pieces) :
    (pieces.headD []).length ≤ width := by
  cases pieces with
  | nil => exact Nat.zero_le _
  | cons piece _ => exact (hp.piece piece List.mem_cons_self).length_le

/-! ## rows -/

open Text (spaces widest Trimmed)

/-- What stands in a row: a name, a text, and a template, which is empty if there is none. -/
structure Cells where
  name : List Char
  text : List Char
  template : List Char := []

/-- The columns of the first line of a row: four spaces, the name, filled up with spaces to the
width `left`, eight spaces, a piece of the text, filled up to the width `middle`, eight spaces and
the template. -/
def columns (left middle : Nat) (name piece template : List Char) : List Char :=
  List.replicate 4 ' ' ++ name ++ List.replicate (left - name.length) ' ' ++
    List.replicate 8 ' ' ++ piece ++ List.replicate (middle - piece.length) ' ' ++
    List.replicate 8 ' ' ++ template

/-- The lines of a row with the name in a column of the width `left` and the text in one of the
width `middle`.  The first line has the name, the first piece of the text and the template, without
the blanks at its end.  The others have a piece of the text each, behind as many spaces as there are
characters in front of its column. -/
structure Aligned (left middle : Nat) (c : Cells) (ls : List (List Char)) : Prop where
  name : c.name.length ≤ left
  lines : ∃ pieces first, Pieces middle c.text pieces ∧
    Trimmed (columns left middle c.name (pieces.headD []) c.template) first ∧
    ls = first :: pieces.tail.map fun piece => List.replicate (4 + left + 8) ' ' ++ piece

/-- The width of everything but the column of the texts: the indentation, the names, the gap behind
them, and the widest template with the gap in front of it, if there is one. -/
def asideWidth (left : Nat) (templates : List (List Char)) : Nat :=
  4 + left + 8 + if widest templates = 0 then 0 else 8 + widest templates

variable {left middle : Nat} {cells : Cells} {line : List Char} {lines : List (List Char)}

/-- The lines that a layout makes are aligned.  Spaces behind the template do not matter. -/
theorem Layout.aligned_lines (l : Layout) (hname : cells.name.length ≤ l.left)
    (hmiddle : 2 ≤ l.middle) (n : Nat) :
    Aligned l.left l.middle cells (l.lines cells.name cells.text (cells.template ++ spaces n)) := by
  have hpieces := pieces_wrap hmiddle cells.text
  refine ⟨hname, wrap l.middle cells.text, _, hpieces, Text.trimmed_dropTrailingBlanks _, ?_⟩
  -- a further line ends in a piece of the text, so that nothing is dropped from it
  have hfurther : ∀ piece ∈ (wrap l.middle cells.text).tail,
      Text.dropTrailingBlanks (spaces indentation ++ spaces l.left ++ spaces gap ++ piece) =
        List.replicate (4 + l.left + 8) ' ' ++ piece := fun piece hpiece => by
    have hpiece := hpieces.piece piece (List.mem_of_mem_tail hpiece)
    rw [Text.dropTrailingBlanks_append_eq_self _ hpiece.ne_nil hpiece.ends]
    simp [spaces, List.replicate_add, indentation, gap]
  rw [Layout.lines, List.map_cons, List.map_map, ← List.append_assoc,
    Text.dropTrailingBlanks_append_spaces]
  refine congrArg₂ _ ?_ (List.map_congr_left hfurther)
  simp [columns, Text.padTo, spaces, indentation, gap]

namespace Aligned

/-- A text that fits its column takes one line. -/
theorem length_eq_one (h : Aligned left middle cells lines)
    (htext : cells.text.length ≤ middle) : lines.length = 1 := by
  obtain ⟨pieces, first, hpieces, -, rfl⟩ := h.lines
  have hone := hpieces.length_le_one htext
  rw [List.length_cons, List.length_map, List.length_tail]
  omega

/-- The lines of a row are no longer than its columns and the gaps between them. -/
theorem length_le (h : Aligned left middle cells lines) {templates : List (List Char)}
    (htemplate : cells.template ∈ templates) (hline : line ∈ lines) :
    line.length ≤ middle + asideWidth left templates := by
  obtain ⟨pieces, first, hpieces, htrimmed, rfl⟩ := h.lines
  rw [asideWidth]
  rcases List.mem_cons.1 hline with rfl | hline
  · have hname := h.name
    have hpiece := hpieces.length_headD_le
    have hwidest := Text.length_le_widest htemplate
    split
    · -- without templates the gap in front of them is dropped too
      next hzero =>
        have hnil : cells.template = [] := List.length_eq_zero_iff.1 (by omega)
        rw [columns, hnil, List.append_nil] at htrimmed
        rw [htrimmed.eq.trans (Text.dropTrailingBlanks_append_spaces _ 8)]
        refine (Text.trimmed_dropTrailingBlanks _).isPrefix.length_le.trans ?_
        simp only [List.length_append, List.length_replicate]
        omega
    · refine htrimmed.isPrefix.length_le.trans ?_
      simp only [columns, List.length_append, List.length_replicate]
      omega
  · obtain ⟨piece, hpiece, rfl⟩ := List.mem_map.1 hline
    have hpiece := (hpieces.piece piece (List.mem_of_mem_tail hpiece)).length_le
    simp only [List.length_append, List.length_replicate]
    omega

/-- The lines of a row have no line breaks, if its name and its template have none. -/
theorem not_mem (h : Aligned left middle cells lines) (hname : '\n' ∉ cells.name)
    (htemplate : '\n' ∉ cells.template) (hline : line ∈ lines) : '\n' ∉ line := by
  obtain ⟨pieces, first, hpieces, htrimmed, rfl⟩ := h.lines
  have hspaces : ∀ n, '\n' ∉ List.replicate n ' ' := fun n hmem =>
    absurd (List.eq_of_mem_replicate hmem) (by decide)
  have hpiece : ∀ piece ∈ pieces, '\n' ∉ piece := fun piece hpiece hmem =>
    absurd ((hpieces.piece piece hpiece).spaces _ hmem (by decide)) (by decide)
  rcases List.mem_cons.1 hline with rfl | hline
  · have hfirst : '\n' ∉ pieces.headD [] := by
      cases pieces with
      | nil => exact List.not_mem_nil
      | cons piece _ => exact hpiece piece List.mem_cons_self
    refine fun hmem => absurd (htrimmed.isPrefix.subset hmem) ?_
    simp only [columns, List.mem_append, hspaces, hname, hfirst, htemplate, or_self,
      not_false_eq_true]
  · obtain ⟨piece, hmem, rfl⟩ := List.mem_map.1 hline
    simp only [List.mem_append, hspaces, hpiece piece (List.mem_of_mem_tail hmem), or_self,
      not_false_eq_true]

end Aligned

/-! ## layouts -/

namespace Layout

/-- Fitting leaves the text what the total width allows, or the least width. -/
theorem middle_fit_le (l : Layout) (total : Nat) :
    (l.fit total).middle + l.besideMiddle ≤ max (targetWidth total) (l.besideMiddle + 17) := by
  simp only [fit, leastMiddle]
  split
  · omega
  · split <;> simp only <;> omega

/-- A missing template is as narrow as an empty one. -/
theorem widest_map_getD (rows : List (List Char × Option (List Char))) :
    widest (rows.map fun row => row.2.getD []) = widest (rows.filterMap (·.2)) := by
  induction rows with
  | nil => rfl
  | cons row rows ih =>
      rcases row with ⟨text, _ | template⟩
      · exact (Nat.zero_max _).trans ih
      · exact congrArg (max template.length) ih

/-- The columns beside the text are those of the rows. -/
theorem besideMiddle_ofRows (left : Nat) (rows : List (List Char × Option (List Char))) :
    (ofRows left rows).besideMiddle =
      asideWidth (max left 1) (rows.map fun row => row.2.getD []) := by
  rw [besideMiddle, right_ofRows, asideWidth, widest_map_getD]
  split <;> rfl

end Layout

end Help

namespace Printer

open Help (Aligned Cells Layout asideWidth targetWidth)
open Text (spaces widest)

/-! ## layouts of sections -/

/-- The layout of a printer for rows with these texts and templates: the column of the texts has
room for each of them, or what the width of the printer allows. -/
structure LayoutFor (p : Printer) (texts templates : List (List Char)) (l : Layout) : Prop where
  middle : 2 ≤ l.middle
  unbounded : p.width = none → ∀ text ∈ texts, text.length ≤ l.middle
  bounded : ∀ total ∈ p.width,
    l.middle + l.besideMiddle ≤ max (targetWidth total) (l.besideMiddle + 17)
  aside : l.besideMiddle = asideWidth l.left templates

variable {p : Printer} {g : Grammar}

theorem left_layout (p : Printer) (left : Nat) (rows : List (List Char × Option (List Char))) :
    (p.layout left rows).left = max left 1 := by
  obtain ⟨middle, h⟩ := p.exists_layout_eq left rows
  rw [h]
  rfl

theorem besideMiddle_layout (p : Printer) (left : Nat)
    (rows : List (List Char × Option (List Char))) :
    (p.layout left rows).besideMiddle = (Layout.ofRows left rows).besideMiddle := by
  obtain ⟨middle, h⟩ := p.exists_layout_eq left rows
  rw [h]
  rfl

theorem layoutFor_layout (p : Printer) (left : Nat)
    (rows : List (List Char × Option (List Char))) :
    p.LayoutFor (rows.map (·.1)) (rows.map fun row => row.2.getD []) (p.layout left rows) where
  middle := p.le_middle_layout left rows
  unbounded hwidth text htext := by
    have hne : rows.map (·.1) ≠ [] := List.ne_nil_of_mem htext
    have hmiddle : (p.layout left rows).middle = max (widest (rows.map (·.1))) 2 := by
      have hgreatest := Text.greatest?_map_length (rows.map (·.1))
      rw [if_neg hne, List.map_map] at hgreatest
      simp only [layout, hwidth, Layout.ofRows]
      exact congrArg (fun n : Option Nat => max (n.getD 2) 2) hgreatest
    rw [hmiddle]
    exact (Text.length_le_widest htext).trans (Nat.le_max_left _ _)
  bounded total htotal := by
    rw [besideMiddle_layout, layout, Option.mem_def.1 htotal]
    exact Layout.middle_fit_le _ total
  aside := by
    rw [besideMiddle_layout, Layout.besideMiddle_ofRows, left_layout]

/-! ## names -/

/-- What stands in a row about a type. -/
def FormatRow.cells (row : FormatRow) : Cells :=
  ⟨row.label, row.typeName.toList, (row.template.map String.toList).getD []⟩

/-- What stands in the rows about the types: the names of the parameters of a type, separated by
commas, the name of the type, and the template of the first of them. -/
def typeCells (g : Grammar) : List Cells :=
  (listed g.valued).map fun d =>
    { name := (", ".intercalate ((sharing d.typeName g.valued).map (·.metavar))).toList
      text := d.typeName.toList
      template := (d.template.map String.toList).getD [] }

/-- What stands in the rows about parameters: the name and the text of each one that has a text. -/
def parameterCells (ds : List Descriptor) : List Cells :=
  (ds.filter fun d => parameterText d ≠ "").map fun d =>
    { name := d.displayName.toList, text := (parameterText d).toList }

/-- The rows of all sections. -/
def allCells (g : Grammar) : List Cells := typeCells g ++ parameterCells g.parameters

theorem typeCells_eq (g : Grammar) : (formatRows g).map FormatRow.cells = typeCells g := by
  rw [formatRows_eq, List.map_map]
  rfl

theorem describedParameters_eq (g : Grammar) :
    describedParameters g = g.parameters.filter fun d => parameterText d ≠ "" := by
  refine List.filter_congr fun d _ => ?_
  rw [Bool.eq_iff_iff]
  simp

theorem parameterCells_eq (g : Grammar) : parameterCells g.parameters =
    (describedParameters g).map fun d => ⟨d.displayName.toList, (parameterText d).toList, []⟩ := by
  rw [parameterCells, describedParameters_eq]

/-- The rows of a section are those of its parameters. -/
theorem parameterCells_filter (g : Grammar) (required : Bool) :
    parameterCells (g.parameters.filter (·.required = required)) =
      ((describedParameters g).filter (·.required = required)).map fun d =>
        ⟨d.displayName.toList, (parameterText d).toList, []⟩ := by
  simp only [parameterCells, describedParameters_eq, List.filter_filter, Bool.and_comm]

/-- The width of the column of the names: that of the longest name over all sections, and at least
one. -/
def nameWidth (g : Grammar) : Nat := max (widest ((allCells g).map (·.name))) 1

theorem max_leftWidth (g : Grammar) : max (leftWidth g) 1 = nameWidth g := by
  have hwidths : leftWidth g =
      (Text.greatest? (((allCells g).map (·.name)).map List.length)).getD 1 := by
    rw [allCells, ← typeCells_eq, parameterCells_eq]
    simp [leftWidth, Function.comp_def, FormatRow.cells, String.length_toList]
  rw [hwidths, Text.greatest?_map_length, nameWidth]
  split
  · next hnil => simp [hnil, widest]
  · rfl

theorem name_le {c : Cells} (h : c ∈ allCells g) : c.name.length ≤ nameWidth g :=
  (Text.length_le_widest (List.mem_map_of_mem h)).trans (Nat.le_max_left _ _)

/-! ## sections -/

/-- The rows of a section are aligned: the names stand in a column of the width `left`, the texts in
another one that all rows share.  Without a width each row is one line.  With one no line is
longer than the width that rows are fitted to, or than `aside` and the least column of texts.  No
line is broken. -/
structure AlignedRows (p : Printer) (left aside : Nat) (cells : List Cells)
    (rows : List (List (List Char))) : Prop where
  aligned : ∃ middle, List.Forall₂ (Aligned left middle) cells rows
  unbounded : p.width = none → ∀ lines ∈ rows, lines.length = 1
  bounded : ∀ total ∈ p.width, ∀ lines ∈ rows, ∀ line ∈ lines,
    line.length ≤ max (targetWidth total) (aside + 17)
  unbroken : ∀ lines ∈ rows, ∀ line ∈ lines, '\n' ∉ line

/-- The lines of a section with aligned rows: a blank line, the title, and the lines of the rows,
one row after the other.  Without rows there are none. -/
def AlignedSection (p : Printer) (title : String) (left aside : Nat) (cells : List Cells)
    (lines : List String) : Prop :=
  ∃ rows, p.AlignedRows left aside cells rows ∧
    lines = if rows = [] then [] else "" :: title :: rows.flatten.map String.ofList

theorem AlignedRows.titled {left aside : Nat} {cells : List Cells}
    {rows : List (List (List Char))} (h : p.AlignedRows left aside cells rows) (title : String) :
    p.AlignedSection title left aside cells (titled title rows) :=
  ⟨rows, h, by simp [Printer.titled]⟩

/-- Rows that a layout lays out are aligned. -/
theorem LayoutFor.alignedRows {texts templates : List (List Char)} {l : Layout}
    (hl : p.LayoutFor texts templates l) {shown : List α} {cells : α → Cells}
    {lines : α → List (List Char)}
    (hlines : ∀ a, ∃ n, lines a =
      l.lines (cells a).name (cells a).text ((cells a).template ++ spaces n))
    (hname : ∀ a ∈ shown, (cells a).name.length ≤ l.left)
    (htext : ∀ a ∈ shown, (cells a).text ∈ texts)
    (htemplate : ∀ a ∈ shown, (cells a).template ∈ templates)
    (hsolid : ∀ a ∈ shown, '\n' ∉ (cells a).name ∧ '\n' ∉ (cells a).template) :
    p.AlignedRows l.left (asideWidth l.left templates) (shown.map cells) (shown.map lines) := by
  have haligned : ∀ a ∈ shown, Aligned l.left l.middle (cells a) (lines a) := fun a ha => by
    obtain ⟨n, hn⟩ := hlines a
    exact hn ▸ l.aligned_lines (hname a ha) hl.middle n
  refine ⟨⟨l.middle, ?_⟩, fun hwidth => ?_, fun total htotal => ?_, ?_⟩
  · rw [List.forall₂_map_left_iff, List.forall₂_map_right_iff, List.forall₂_same]
    exact haligned
  · refine List.forall_mem_map.2 fun a ha => ?_
    exact (haligned a ha).length_eq_one (hl.unbounded hwidth _ (htext a ha))
  · refine List.forall_mem_map.2 fun a ha line hline => ?_
    refine ((haligned a ha).length_le (htemplate a ha) hline).trans ?_
    rw [← hl.aside]
    exact hl.bounded total htotal
  · refine List.forall_mem_map.2 fun a ha line hline => ?_
    exact (haligned a ha).not_mem (hsolid a ha).1 (hsolid a ha).2 hline

/-! ## line breaks -/

theorem mem_commaSeparated {c : Char} {texts : List String}
    (h : c ∈ (commaSeparated texts).toList) :
    c ∈ [',', ' '] ∨ ∃ text ∈ texts, c ∈ text.toList := by
  rw [commaSeparated, String.toList_intercalate] at h
  induction texts with
  | nil => cases h
  | cons text texts ih =>
      cases texts with
      | nil => exact .inr ⟨text, List.mem_cons_self, by simpa [List.intercalate] using h⟩
      | cons next texts =>
          rw [List.map_cons, List.map_cons, List.intercalate_cons_cons, List.append_assoc,
            List.mem_append, List.mem_append] at h
          rcases h with h | h | h
          · exact .inr ⟨text, List.mem_cons_self, h⟩
          · exact .inl h
          · refine (ih h).imp_right ?_
            rintro ⟨found, hfound, hc⟩
            exact ⟨found, List.mem_cons_of_mem _ hfound, hc⟩

/-- The name in a listing has no line break, if the name of the value has none. -/
theorem not_mem_displayName (hg : g.Checked) {d : Descriptor} (hd : d ∈ g.parameters)
    (h : '\n' ∉ d.metavar.toList) : '\n' ∉ d.displayName.toList := by
  have hshort : ∀ c ∈ d.short, c ≠ '\n' := fun c hc hbreak => by
    have hvalid := (Grammar.validShort_iff.1 (hg.short d hd c hc)).1
    rw [hbreak] at hvalid
    exact absurd hvalid (by decide)
  have hlong : ∀ long ∈ d.long, '\n' ∉ long.toList := fun long hl hmem =>
    absurd ((hg.long d hd long hl).2 _ hmem) (by decide)
  rw [Descriptor.displayName]
  split
  · exact h
  · next c long hs hl _ =>
      simp [(hshort c hs).symm, hlong long hl, toString]
  · next c hs _ _ => simp [(hshort c hs).symm, toString]
  · next long _ hl _ => simp [hlong long hl, toString]
  · exact h

/-- The names and templates of the rows have no line breaks, if those of the values have none. -/
theorem not_mem_cells (hg : g.Checked) (hnames : ∀ d ∈ g.parameters, '\n' ∉ d.metavar.toList)
    (htemplates : ∀ d ∈ g.parameters, ∀ template ∈ d.template, '\n' ∉ template.toList) :
    ∀ c ∈ allCells g, '\n' ∉ c.name ∧ '\n' ∉ c.template := by
  rw [allCells, ← typeCells_eq]
  refine List.forall_mem_append.2 ⟨List.forall_mem_map.2 fun row hrow => ?_,
    List.forall_mem_map.2 fun d hd => ?_⟩
  · obtain ⟨d, hd, rfl⟩ := mem_formatRows.1 hrow
    have hvalued : ∀ d ∈ g.valued, d ∈ g.parameters := fun d hd => (List.mem_filter.1 hd).1
    refine ⟨fun hmem => ?_, ?_⟩
    · rcases mem_commaSeparated hmem with hmem | ⟨name, hname, hmem⟩
      · exact absurd hmem (by decide)
      · obtain ⟨e, he, rfl⟩ := List.mem_map.1 hname
        exact hnames e (hvalued e (List.mem_filter.1 he).1) hmem
    · have htemplate := htemplates d (hvalued d ((leaders_sublist _).subset hd))
      rw [FormatRow.cells, rowOf]
      cases ht : d.template with
      | none => simp
      | some template => simpa using htemplate template ht
  · have hd := (List.mem_filter.1 hd).1
    exact ⟨not_mem_displayName hg hd (hnames d hd), List.not_mem_nil⟩

/-! ## whole messages -/

/-- The section about the types is aligned. -/
theorem alignedSection_formats (p : Printer) (g : Grammar)
    (hsolid : ∀ c ∈ allCells g, '\n' ∉ c.name ∧ '\n' ∉ c.template) :
    p.AlignedSection "Format:" (nameWidth g)
      (asideWidth (nameWidth g) ((typeCells g).map (·.template))) (typeCells g)
      (titled "Format:" ((formatRows g).map (FormatRow.lines (p.formatLayout g)))) := by
  have hl : p.LayoutFor ((formatRows g).map (·.typeName.toList))
      ((formatRows g).map (·.cells.template)) (p.formatLayout g) := by
    simpa [formatLayout, FormatRow.cells, Function.comp_def] using p.layoutFor_layout (leftWidth g)
      ((formatRows g).map fun row => (row.typeName.toList, row.template.map String.toList))
  have hleft : (p.formatLayout g).left = nameWidth g :=
    (p.left_layout _ _).trans (max_leftWidth g)
  have hcells : ∀ row ∈ formatRows g, row.cells ∈ allCells g := fun row hrow =>
    List.mem_append_left _ (typeCells_eq g ▸ List.mem_map_of_mem hrow)
  rw [← hleft, ← typeCells_eq, List.map_map]
  refine AlignedRows.titled (hl.alignedRows (fun row => ?_) (fun row hrow => ?_)
    (fun row hrow => List.mem_map_of_mem hrow) (fun row hrow => List.mem_map_of_mem hrow)
    fun row hrow => hsolid _ (hcells row hrow)) _
  · rw [FormatRow.lines, FormatRow.cells, Layout.rightText]
    cases row.template with
    | none => exact ⟨0, rfl⟩
    | some template => exact ⟨_, rfl⟩
  · rw [hleft]
    exact name_le (hcells row hrow)

/-- The sections about the parameters are aligned. -/
theorem alignedSection_parameters (p : Printer) (g : Grammar) (title : String) (required : Bool)
    (hsolid : ∀ c ∈ allCells g, '\n' ∉ c.name ∧ '\n' ∉ c.template) :
    p.AlignedSection title (nameWidth g) (asideWidth (nameWidth g) [])
      (parameterCells (g.parameters.filter (·.required = required)))
      (p.parameterSection g title required) := by
  have hl : p.LayoutFor ((describedParameters g).map fun d => (parameterText d).toList)
      ((describedParameters g).map fun _ => []) (p.parameterLayout g) := by
    simpa [parameterLayout, Function.comp_def] using p.layoutFor_layout (leftWidth g)
      ((describedParameters g).map fun d => ((parameterText d).toList, none))
  have hleft : (p.parameterLayout g).left = nameWidth g :=
    (p.left_layout _ _).trans (max_leftWidth g)
  have haside : asideWidth (nameWidth g) [] =
      asideWidth (nameWidth g) ((describedParameters g).map fun _ => []) := by
    have hnone : widest ((describedParameters g).map fun _ => []) = 0 :=
      Text.widest_eq_zero_iff.2 (by simp)
    rw [asideWidth, asideWidth, hnone]
    rfl
  have hdescribed : ∀ d ∈ (describedParameters g).filter (·.required = required),
      d ∈ describedParameters g := fun d hd => (List.mem_filter.1 hd).1
  have hcells : ∀ d ∈ (describedParameters g).filter (·.required = required),
      ⟨d.displayName.toList, (parameterText d).toList, []⟩ ∈ allCells g := fun d hd =>
    List.mem_append_right _ (parameterCells_eq g ▸ List.mem_map_of_mem (hdescribed d hd))
  rw [haside, ← hleft, parameterCells_filter]
  refine AlignedRows.titled (hl.alignedRows (fun d => ⟨0, rfl⟩) (fun d hd => ?_)
    (fun d hd => List.mem_map_of_mem (hdescribed d hd))
    (fun d hd => List.mem_map_of_mem (hdescribed d hd)) fun d hd => hsolid _ (hcells d hd)) title
  rw [hleft]
  exact name_le (hcells d hd)

/-- **The rows of a help message are aligned.**  If no name and no template of a grammar has a line
break, and no template is empty, there is a help message at every width: the usage, the description,
and up to three sections, in order, each one a blank line, a title and the rows.  There is a row for
each type name of the parameters with values, and one for each parameter with a text.  The names of
all sections stand in one column, as wide as the longest of them and at least one character; the
texts stand in another one, in which their further lines start.  Printed without a width, each row
is one line.  Printed with one, no line is longer than what rows are fitted to, or than all columns
but that of the texts and 17 characters. -/
theorem help_rows_aligned (r : Registry) (ps : List Parameter) (g : Grammar)
    (hps : ∀ p ∈ ps, p.Declared) (hb : (Grammar.build ps r).1 = .ok g)
    (hnames : ∀ d ∈ g.parameters, '\n' ∉ d.metavar.toList)
    (htemplates : ∀ d ∈ g.parameters, ∀ template ∈ d.template,
      template ≠ "" ∧ '\n' ∉ template.toList)
    (p : Printer) (command : String) (description : Option String) :
    ∃ formats mandatory optional,
      p.help? command description g = some ("\n".intercalate ([usage command g] ++
        p.descriptionLines description ++ formats ++ mandatory ++ optional)) ∧
      p.AlignedSection "Format:" (nameWidth g)
        (asideWidth (nameWidth g) ((typeCells g).map (·.template))) (typeCells g) formats ∧
      p.AlignedSection "Mandatory Parameters:" (nameWidth g) (asideWidth (nameWidth g) [])
        (parameterCells (g.parameters.filter (·.required = true))) mandatory ∧
      p.AlignedSection "Optional Parameters:" (nameWidth g) (asideWidth (nameWidth g) [])
        (parameterCells (g.parameters.filter (·.required = false))) optional := by
  have hsolid := not_mem_cells (Grammar.checked_of_build hps hb) hnames
    fun d hd template htemplate => (htemplates d hd template htemplate).2
  have hblank := not_blankTemplates fun d hd htemplate => (htemplates d hd "" htemplate).1 rfl
  have hhelp := p.help?_eq command description g
  rw [if_neg hblank] at hhelp
  exact ⟨_, _, _, hhelp, p.alignedSection_formats g hsolid,
    p.alignedSection_parameters g _ true hsolid, p.alignedSection_parameters g _ false hsolid⟩

/-- Two to four bytes, with a description. -/
def fewBytes : Parameter :=
  (((Parameter.positional (.sequence .vector (.integer .u8)) "bytes").withMin 2).withMax
    4).withDescription "What is stored."

/-- The grammar of the bytes. -/
def bytesOnly : Grammar where
  parameters := [Grammar.describe 0 fewBytes
    (.sequence (.integer .u8) .brackets "Vec<u8>" SequenceKind.vector.collect) (.list [])]

/-- The rows about the bytes. -/
theorem help_rows_aligned_bytesOnly :
    (∀ p ∈ [fewBytes], p.Declared) ∧
    (Grammar.build [fewBytes] (.empty fun _ _ => none)).1 = .ok bytesOnly ∧
    (∀ d ∈ bytesOnly.parameters, '\n' ∉ d.metavar.toList) ∧
    (∀ d ∈ bytesOnly.parameters, ∀ template ∈ d.template,
      template ≠ "" ∧ '\n' ∉ template.toList) ∧
    ∃ formats mandatory,
      (⟨some 48⟩ : Printer).help? "store" none bytesOnly =
        some ("\n".intercalate (["usage: store bytes"] ++ formats ++ mandatory)) ∧
      (⟨some 48⟩ : Printer).AlignedSection "Format:" 5 33
        [⟨"bytes".toList, "Vec<u8>".toList, "[u8 ...]".toList⟩] formats ∧
      (⟨some 48⟩ : Printer).AlignedSection "Mandatory Parameters:" 5 17
        [⟨"bytes".toList, "What is stored. May have between 2 and 4 elements.".toList, []⟩]
        mandatory := by
  have hb : (Grammar.build [fewBytes] (.empty fun _ _ => none)).1 = .ok bytesOnly := rfl
  have hps : ∀ p ∈ [fewBytes], p.Declared := fun p hp =>
    List.mem_singleton.1 hp ▸ .withDescription _ (.withMax _ (.withMin _ (.positional _ _)))
  have hnames : ∀ d ∈ bytesOnly.parameters, '\n' ∉ d.metavar.toList := by decide
  have htemplates : ∀ d ∈ bytesOnly.parameters, ∀ template ∈ d.template,
      template ≠ "" ∧ '\n' ∉ template.toList := by decide
  obtain ⟨formats, mandatory, optional, hhelp, hformats, hmandatory, hoptional⟩ :=
    help_rows_aligned _ _ _ hps hb hnames htemplates ⟨some 48⟩ "store" none
  have husage : usage "store" bytesOnly = "usage: store bytes" := by decide +kernel
  obtain ⟨rows, hrows, rfl⟩ := hoptional
  have hnone : rows = [] := List.forall₂_nil_left_iff.1 hrows.aligned.choose_spec
  refine ⟨hps, hb, hnames, htemplates, formats, mandatory, ?_, hformats, hmandatory⟩
  rw [hhelp, husage, hnone]
  simp [descriptionLines]

end Printer

end TypedConsole
