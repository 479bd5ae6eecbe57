import TypedConsole.Catalogue.Parsers
import TypedConsole.Proofs.FormatRows

/-!
# TypedConsole.Proofs.HelpSections

When a help message can be laid out.

A section has as many right columns as its layout, and a row has as many cells for them as it has
templates: one or none.  The one section that may fail is that about the types.  Its layout is made
from the widths of the templates, so that templates that are all empty have no column
(`hasRoom_formatLayout_iff`).  Exactly then there is no help message (`help?_eq`), whatever the
width of the printer.  In particular a grammar whose templates are not empty has one.
-/

namespace TypedConsole

/-! ## columns -/

namespace Text

/-- The number of characters of the longest one of the texts. -/
def widest (texts : List (List Char)) : Nat := (texts.map List.length).foldr max 0

theorem length_le_widest {texts : List (List Char)} {text : List Char} (h : text ∈ texts) :
    text.length ≤ widest texts := by
  induction texts with
  | nil => cases h
  | cons t texts ih =>
      rcases List.mem_cons.1 h with rfl | h
      · exact Nat.le_max_left _ _
      · exact (ih h).trans (Nat.le_max_right _ _)

/-- Texts are as narrow as possible if they are all empty. -/
theorem widest_eq_zero_iff {texts : List (List Char)} :
    widest texts = 0 ↔ ∀ text ∈ texts, text = [] := by
  induction texts with
  | nil => simp [widest]
  | cons text texts ih =>
      rw [List.forall_mem_cons, ← ih, widest, List.map_cons, List.foldr_cons, Nat.max_eq_zero_iff,
        List.length_eq_zero_iff, widest]

/-- The greatest width is that of the widest text, if there is one. -/
theorem greatest?_map_length (texts : List (List Char)) :
    greatest? (texts.map List.length) = if texts = [] then none else some (widest texts) := by
  cases texts with
  | nil => rfl
  | cons t texts =>
      have hfold : ∀ (ns : List Nat) (n : Nat), ns.foldl max n = max n (ns.foldr max 0) :=
        fun ns => by
          induction ns with
          | nil => exact fun n => (Nat.max_zero n).symm
          | cons m ns ih =>
              intro n
              rw [List.foldl_cons, ih, List.foldr_cons, Nat.max_assoc]
      exact congrArg some (hfold _ _)

end Text

namespace Help.Layout

open Text (widest)

/-- A row with the template has no more cells on the right than the layout has columns there. -/
def HasRoom (l : Layout) (template : Option α) : Prop :=
  template.toList.length ≤ l.right.toList.length

/-- The text of the right column. -/
def rightText (l : Layout) (template : Option (List Char)) : List Char :=
  (template.map (Text.padTo (l.right.getD 0))).getD []

instance (l : Layout) (template : Option α) : Decidable (l.HasRoom template) :=
  inferInstanceAs (Decidable (_ ≤ _))

variable {l : Layout}

theorem hasRoom_iff {template : Option α} :
    l.HasRoom template ↔ (l.right = none → template = none) := by
  cases hright : l.right <;> cases template <;> simp [HasRoom, hright]

/-- A row is laid out if there is room for it. -/
theorem render?_eq (left middle : List Char) (template : Option (List Char)) :
    l.render? left middle template =
      if l.HasRoom template then some (l.lines left middle (l.rightText template)) else none := by
  cases template with
  | none => rfl
  | some t => cases hright : l.right <;> simp [render?, HasRoom, rightText, hright]

/-- The right column is as wide as the widest template, and missing if that is empty. -/
theorem right_ofRows (left : Nat) (rows : List (List Char × Option (List Char))) :
    (ofRows left rows).right =
      if widest (rows.filterMap (·.2)) = 0 then none else some (widest (rows.filterMap (·.2))) := by
  have hlengths : rows.filterMap (fun row => row.2.map List.length) =
      (rows.filterMap (·.2)).map List.length := by
    rw [List.map_filterMap]
  simp only [ofRows, hlengths, Text.greatest?_map_length]
  split
  · next hnil => simp [hnil, widest]
  · by_cases hzero : widest (rows.filterMap (·.2)) = 0
    · simp [hzero]
    · simp [hzero, Nat.pos_of_ne_zero hzero]

/-- There is no right column if the templates, if any, are empty. -/
theorem right_ofRows_eq_none_iff {left : Nat} {rows : List (List Char × Option (List Char))} :
    (ofRows left rows).right = none ↔ ∀ row ∈ rows, ∀ template ∈ row.2, template = [] := by
  have hnone : (ofRows left rows).right = none ↔ widest (rows.filterMap (·.2)) = 0 := by
    rw [right_ofRows]
    split <;> simpa
  rw [hnone, Text.widest_eq_zero_iff]
  simp only [List.mem_filterMap]
  exact ⟨fun h row hrow template ht => h template ⟨row, hrow, ht⟩,
    fun h template ⟨row, hrow, ht⟩ => h row hrow template ht⟩

/-- Fitting changes the middle column only. -/
theorem exists_fit_eq (l : Layout) (total : Nat) :
    ∃ middle, l.fit total = { l with middle := middle } := by
  rw [fit]
  split
  · exact ⟨l.middle, rfl⟩
  · split <;> exact ⟨_, rfl⟩

end Help.Layout

namespace Printer

/-- But for the middle column, the layout of a printer is that of the rows. -/
theorem exists_layout_eq (p : Printer) (left : Nat)
    (rows : List (List Char × Option (List Char))) :
    ∃ middle, p.layout left rows = { Help.Layout.ofRows left rows with middle := middle } := by
  rw [layout]
  cases p.width with
  | none => exact ⟨_, rfl⟩
  | some total => exact Help.Layout.exists_fit_eq _ total

theorem right_layout (p : Printer) (left : Nat) (rows : List (List Char × Option (List Char))) :
    (p.layout left rows).right = (Help.Layout.ofRows left rows).right := by
  obtain ⟨middle, h⟩ := p.exists_layout_eq left rows
  rw [h]

/-! ## the section about the types -/

/-- The lines of a row about a type. -/
def FormatRow.lines (l : Help.Layout) (row : FormatRow) : List (List Char) :=
  l.lines row.label row.typeName.toList (l.rightText (row.template.map String.toList))

/-- Rows can be made one by one, if each one can. -/
theorem mapM_ite {α β : Type} {P : α → Prop} [DecidablePred P] {f : α → β} (as : List α) :
    as.mapM (fun a => if P a then some (f a) else none) =
      if ∀ a ∈ as, P a then some (as.map f) else none := by
  induction as with
  | nil => rfl
  | cons a as ih =>
      rw [List.mapM_cons, ih]
      by_cases ha : P a
      · by_cases has : ∀ a ∈ as, P a
        · rw [if_pos ha, if_pos has, if_pos (List.forall_mem_cons.2 ⟨ha, has⟩)]
          rfl
        · rw [if_pos ha, if_neg has, if_neg fun h => has (List.forall_mem_cons.1 h).2]
          rfl
      · rw [if_neg ha, if_neg fun h => ha (List.forall_mem_cons.1 h).1]
        rfl

/-- The section about the types is laid out if there is room for all rows. -/
theorem formatSection?_eq (p : Printer) (g : Grammar) :
    p.formatSection? g =
      if ∀ row ∈ formatRows g, (p.formatLayout g).HasRoom row.template
      then some (titled "Format:" ((formatRows g).map (FormatRow.lines (p.formatLayout g))))
      else none := by
  have hroom : ∀ (l : Help.Layout) (row : FormatRow),
      l.HasRoom (row.template.map String.toList) ↔ l.HasRoom row.template := fun l row => by
    simp [Help.Layout.hasRoom_iff]
  have hrows : p.formatSection? g =
      ((formatRows g).mapM fun row => (p.formatLayout g).render? row.label row.typeName.toList
        (row.template.map String.toList)).map (titled "Format:") := by
    rw [Option.map_eq_bind]
    rfl
  simp only [hrows, Help.Layout.render?_eq, hroom, mapM_ite]
  split <;> rfl

/-- There are rows with a template, and the templates of all rows are empty. -/
def BlankTemplates (rows : List FormatRow) : Prop :=
  (∃ row ∈ rows, row.template ≠ none) ∧ ∀ row ∈ rows, ∀ template ∈ row.template, template = ""

instance (rows : List FormatRow) : Decidable (BlankTemplates rows) :=
  inferInstanceAs (Decidable (_ ∧ _))

/-- There is room for the rows about the types unless their templates are all empty. -/
theorem hasRoom_formatLayout_iff (p : Printer) (g : Grammar) :
    (∀ row ∈ formatRows g, (p.formatLayout g).HasRoom row.template) ↔
      ¬BlankTemplates (formatRows g) := by
  have hright : (p.formatLayout g).right = none ↔
      ∀ row ∈ formatRows g, ∀ template ∈ row.template, template = "" := by
    rw [formatLayout, right_layout, Help.Layout.right_ofRows_eq_none_iff]
    simp
  simp only [Help.Layout.hasRoom_iff, hright]
  constructor
  · rintro h ⟨⟨row, hrow, htemplate⟩, hall⟩
    exact htemplate (h row hrow hall)
  · intro h row hrow hall
    by_contra htemplate
    exact h ⟨⟨row, hrow, htemplate⟩, hall⟩

/-- The rows about the parameters have nothing on the right. -/
theorem right_parameterLayout (p : Printer) (g : Grammar) : (p.parameterLayout g).right = none := by
  rw [parameterLayout, right_layout, Help.Layout.right_ofRows_eq_none_iff]
  simp

/-! ## whole messages -/

/-- A help message is there if the section about the types is, and has all sections. -/
theorem help?_eq (p : Printer) (command : String) (description : Option String) (g : Grammar) :
    p.help? command description g =
      if BlankTemplates (formatRows g) then none
      else some (Text.joinLines ([usage command g] ++ p.descriptionLines description ++
        titled "Format:" ((formatRows g).map (FormatRow.lines (p.formatLayout g))) ++
        p.parameterSection g "Mandatory Parameters:" true ++
        p.parameterSection g "Optional Parameters:" false)) := by
  have hsection := p.formatSection?_eq g
  rw [if_congr (p.hasRoom_formatLayout_iff g) rfl rfl, ite_not] at hsection
  rw [help?, hsection]
  split <;> rfl

/-- The templates of the rows are those of the first parameters. -/
theorem blankTemplates_formatRows_iff {g : Grammar} :
    BlankTemplates (formatRows g) ↔ (∃ d ∈ leaders g.valued, d.template = some "") ∧
      ∀ d ∈ leaders g.valued, d.template = none ∨ d.template = some "" := by
  have hrows : BlankTemplates (formatRows g) ↔ (∃ d ∈ leaders g.valued, d.template ≠ none) ∧
      ∀ d ∈ leaders g.valued, ∀ template ∈ d.template, template = "" := by
    simp [BlankTemplates, mem_formatRows, rowOf]
  have hblank : ∀ d : Descriptor, (∀ template ∈ d.template, template = "") ↔
      d.template = none ∨ d.template = some "" := fun d => by
    cases d.template <;> simp
  simp only [hrows, hblank]
  refine and_congr_left fun hall => exists_congr fun d => and_congr_right fun hd => ?_
  rcases hall d hd with h | h <;> simp [h]

theorem not_blankTemplates {g : Grammar} (h : ∀ d ∈ g.parameters, d.template ≠ some "") :
    ¬BlankTemplates (formatRows g) := fun hblank => by
  obtain ⟨⟨d, hd, htemplate⟩, -⟩ := blankTemplates_formatRows_iff.1 hblank
  exact h d (List.mem_filter.1 ((leaders_sublist g.valued).subset hd)).1 htemplate

/-- **A grammar whose templates are not empty has a help message**, at every width. -/
theorem isSome_help? (p : Printer) (command : String) (description : Option String) {g : Grammar}
    (h : ∀ d ∈ g.parameters, d.template ≠ some "") :
    (p.help? command description g).isSome = true := by
  rw [help?_eq, if_neg (not_blankTemplates h)]
  rfl

/-- **Rows fit the columns of their sections** unless the templates are all empty.  Whatever the
width of the printer, the rows about the parameters have no cell on the right, nor has their layout
a column there.  Each row about a type has at most as many cells on the right as its layout has
columns there, unless there are templates and all of them are empty; exactly then there is no help
message.  The templates of the rows are those of the first parameters of each type name. -/
theorem columns_fit (p : Printer) (command : String) (description : Option String) (g : Grammar) :
    (p.parameterLayout g).right = none ∧
      ((∀ row ∈ formatRows g, (p.formatLayout g).HasRoom row.template) ↔
        (p.help? command description g).isSome = true) ∧
      ((p.help? command description g).isSome = true ↔
        ¬((∃ d ∈ leaders g.valued, d.template = some "") ∧
          ∀ d ∈ leaders g.valued, d.template = none ∨ d.template = some "")) := by
  have hhelp : (p.help? command description g).isSome = true ↔
      ¬BlankTemplates (formatRows g) := by
    rw [help?_eq]
    split <;> simpa
  refine ⟨p.right_parameterLayout g, (p.hasRoom_formatLayout_iff g).trans hhelp.symm, ?_⟩
  rw [hhelp, blankTemplates_formatRows_iff]

/-- A truth value that is written yes or no and has an empty template. -/
def yesOrNo : Parameter := (Parameter.positional .bool "x").withParser (.custom Catalogue.yesNo)

/-- It makes a grammar, but its row has a cell on the right where there is no column. -/
theorem columns_unfit_yesOrNo :
    ∃ g row, (Grammar.build [yesOrNo] (.empty fun _ _ => none)).1 = .ok g ∧
      formatRows g = [row] ∧ row.template.toList.length = 1 ∧
      (unbounded.formatLayout g).right.toList.length = 0 ∧
      unbounded.help? "cmd" none g = none := by
  have hb : (Grammar.build [yesOrNo] (.empty fun _ _ => none)).1 = .ok _ := rfl
  refine ⟨_, ⟨["x"], "yes/no", some ""⟩, hb, ?_, rfl, ?_, ?_⟩
  · rfl
  · rfl
  · rfl

end Printer

end TypedConsole
