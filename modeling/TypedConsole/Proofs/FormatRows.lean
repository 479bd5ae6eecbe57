import TypedConsole.Catalogue.Records
import TypedConsole.Help.Printer
import TypedConsole.Proofs.Creation
import TypedConsole.Proofs.Validation
import Mathlib.Data.List.Induction
import Mathlib.Data.List.Nodup

/-!
# TypedConsole.Proofs.FormatRows

What the section about the types lists.

The rows are made one parameter after the other.  `formatRows_eq` says what comes out: one row for
each parameter that is the first of its type name (`leaders`), with the names of all parameters that
have this type name.  Everything else is read off that equation (`listsTypes`).

The template of a row is that of the first parameter.  The others have the same type name, which
need not mean that they have the same template.
-/

namespace TypedConsole

/-! ## the parameters of a type name -/

/-- The parameters that have values to write: all but the flags. -/
def Grammar.valued (g : Grammar) : List Descriptor := g.parameters.filter (·.kind ≠ .flag)

namespace Printer

deriving instance DecidableEq for FormatRow

/-- The parameters that are the first of their type name. -/
def leaders : List Descriptor → List Descriptor
  | [] => []
  | d :: ds => d :: (leaders ds).filter (·.typeName ≠ d.typeName)

/-- The parameters with this type name. -/
def sharing (name : String) (ds : List Descriptor) : List Descriptor :=
  ds.filter (·.typeName = name)

/-- The row that a first parameter stands for. -/
def rowOf (ds : List Descriptor) (d : Descriptor) : FormatRow :=
  ⟨(sharing d.typeName ds).map (·.metavar), d.typeName, d.template⟩

variable {d e : Descriptor} {ds : List Descriptor} {name : String}

theorem leaders_sublist (ds : List Descriptor) : (leaders ds).Sublist ds := by
  induction ds with
  | nil => exact .slnil
  | cons d ds ih => exact .cons_cons d (List.filter_sublist.trans ih)

/-- No two first parameters have the same type name. -/
theorem leaders_pairwise (ds : List Descriptor) :
    (leaders ds).Pairwise fun d e => d.typeName ≠ e.typeName := by
  induction ds with
  | nil => exact .nil
  | cons d ds ih =>
      refine List.pairwise_cons.2 ⟨fun e he => ?_, ih.filter _⟩
      have hne : e.typeName ≠ d.typeName := by simpa using (List.mem_filter.1 he).2
      exact hne.symm

/-- A parameter is the first of its type name if looking for the name finds it. -/
theorem find?_of_mem_leaders (h : d ∈ leaders ds) :
    ds.find? (·.typeName = d.typeName) = some d := by
  induction ds with
  | nil => cases h
  | cons e ds ih =>
      rcases List.mem_cons.1 h with rfl | h
      · exact List.find?_cons_of_pos (by simp)
      · obtain ⟨hmem, hne⟩ := List.mem_filter.1 h
        have hne : e.typeName ≠ d.typeName := fun he => by simp [he] at hne
        rw [List.find?_cons_of_neg (by simpa using hne)]
        exact ih hmem

/-- Every type name has a first parameter. -/
theorem exists_leader (h : d ∈ ds) : ∃ e ∈ leaders ds, e.typeName = d.typeName := by
  induction ds with
  | nil => cases h
  | cons e ds ih =>
      by_cases hname : e.typeName = d.typeName
      · exact ⟨e, List.mem_cons_self, hname⟩
      · have hd : d ∈ ds := (List.mem_cons.1 h).resolve_left fun he => hname (he ▸ rfl)
        obtain ⟨l, hl, hld⟩ := ih hd
        refine ⟨l, List.mem_cons_of_mem _ (List.mem_filter.2 ⟨hl, ?_⟩), hld⟩
        simpa [hld] using fun he => hname he.symm

/-- One more parameter is the first of its type name, or it changes nothing. -/
theorem leaders_append_singleton (ds : List Descriptor) (d : Descriptor) :
    leaders (ds ++ [d]) =
      if ∃ e ∈ ds, e.typeName = d.typeName then leaders ds else leaders ds ++ [d] := by
  induction ds with
  | nil => simp [leaders]
  | cons e ds ih =>
      rw [List.cons_append, leaders, ih, leaders]
      by_cases hname : e.typeName = d.typeName
      · have hex : ∃ l ∈ e :: ds, l.typeName = d.typeName := ⟨e, List.mem_cons_self, hname⟩
        rw [if_pos hex]
        split <;> simp [hname]
      · have hiff : (∃ l ∈ e :: ds, l.typeName = d.typeName) ↔
            ∃ l ∈ ds, l.typeName = d.typeName := by simp [hname]
        have hne : d.typeName ≠ e.typeName := fun he => hname he.symm
        simp only [hiff]
        split
        · rfl
        · simp [hne]

/-! ## making the rows -/

/-- A parameter goes to the row of its type name, or gets a new one behind the others. -/
theorem addFormat_map {rows : List Descriptor} (row : Descriptor → FormatRow)
    (hrow : ∀ e ∈ rows, (row e).typeName = e.typeName)
    (hnames : rows.Pairwise fun d e => d.typeName ≠ e.typeName) :
    addFormat d (rows.map row) =
      if ∃ e ∈ rows, e.typeName = d.typeName
      then rows.map fun e => if e.typeName = d.typeName
        then { row e with names := (row e).names ++ [d.metavar] } else row e
      else rows.map row ++ [⟨[d.metavar], d.typeName, d.template⟩] := by
  induction rows with
  | nil => simp [addFormat]
  | cons e rows ih =>
      obtain ⟨hne, hnames⟩ := List.pairwise_cons.1 hnames
      have ih := ih (fun l hl => hrow l (List.mem_cons_of_mem _ hl)) hnames
      have he := hrow e List.mem_cons_self
      rw [List.map_cons, addFormat]
      by_cases hname : e.typeName = d.typeName
      · have hex : ∃ l ∈ e :: rows, l.typeName = d.typeName := ⟨e, List.mem_cons_self, hname⟩
        have hrest : ∀ l ∈ rows, l.typeName ≠ d.typeName := fun l hl heq =>
          hne l hl (hname.trans heq.symm)
        rw [if_pos (he.trans hname), if_pos hex, List.map_cons, if_pos hname,
          List.map_congr_left fun l hl => if_neg (hrest l hl)]
      · have hiff : (∃ l ∈ e :: rows, l.typeName = d.typeName) ↔
            ∃ l ∈ rows, l.typeName = d.typeName := by simp [hname]
        rw [if_neg fun h => hname (he.symm.trans h), ih]
        simp only [hiff, List.map_cons, if_neg hname]
        split <;> rfl

/-- The rows, before those with a template are put in front: one for each first parameter. -/
theorem foldl_addFormat (ds : List Descriptor) :
    ds.foldl (fun rows d => addFormat d rows) [] = (leaders ds).map (rowOf ds) := by
  induction ds using List.reverseRecOn with
  | nil => rfl
  | append_singleton ds d ih =>
      have hadd := addFormat_map (d := d) (rowOf ds) (fun _ _ => rfl) (leaders_pairwise ds)
      have hiff : (∃ e ∈ leaders ds, e.typeName = d.typeName) ↔
          ∃ e ∈ ds, e.typeName = d.typeName := by
        constructor
        · rintro ⟨e, he, hed⟩
          exact ⟨e, (leaders_sublist ds).subset he, hed⟩
        · rintro ⟨e, he, hed⟩
          obtain ⟨l, hl, hle⟩ := exists_leader he
          exact ⟨l, hl, hle.trans hed⟩
      rw [List.foldl_append, List.foldl_cons, List.foldl_nil, ih, hadd, leaders_append_singleton]
      simp only [hiff]
      split
      · refine List.map_congr_left fun e _ => ?_
        by_cases he : e.typeName = d.typeName
        · simp [rowOf, sharing, he]
        · have hne : d.typeName ≠ e.typeName := fun h => he h.symm
          simp [rowOf, sharing, he, hne]
      · next hex =>
          have hne : ∀ e ∈ ds, e.typeName ≠ d.typeName := fun e he hed => hex ⟨e, he, hed⟩
          rw [List.map_append]
          congr 1
          · refine List.map_congr_left fun e he => ?_
            have hne : d.typeName ≠ e.typeName := (hne e ((leaders_sublist ds).subset he)).symm
            simp [rowOf, sharing, hne]
          · have : sharing d.typeName ds = [] := by
              simpa [sharing, List.filter_eq_nil_iff] using hne
            simpa [rowOf, sharing] using this

/-- The first parameters, those with a template in front. -/
def listed (ds : List Descriptor) : List Descriptor :=
  (leaders ds).filter (·.template.isSome) ++ (leaders ds).filter (·.template.isNone)

theorem listed_perm (ds : List Descriptor) : (listed ds).Perm (leaders ds) := by
  have hnone : ∀ d : Descriptor, d.template.isNone = !d.template.isSome := fun d => by
    cases d.template <;> rfl
  simp only [listed, hnone]
  exact List.filter_append_perm _ _

/-- **The rows of a grammar**: one for each first parameter, those with a template in front. -/
theorem formatRows_eq (g : Grammar) :
    formatRows g = (listed g.valued).map (rowOf g.valued) := by
  have hrows : formatRows g =
      ((leaders g.valued).map (rowOf g.valued)).filter (·.template.isSome) ++
        ((leaders g.valued).map (rowOf g.valued)).filter (·.template.isNone) := by
    rw [← foldl_addFormat]
    rfl
  rw [hrows, List.filter_map, List.filter_map, ← List.map_append]
  rfl

/-- There is a row for each first parameter. -/
theorem mem_formatRows {g : Grammar} {row : FormatRow} :
    row ∈ formatRows g ↔ ∃ d ∈ leaders g.valued, rowOf g.valued d = row := by
  simp only [formatRows_eq, List.mem_map, (listed_perm g.valued).mem_iff]

/-! ## what the rows list -/

/-- How many parameters are declared before the first one of the type name. -/
def firstPlace (name : String) (ds : List Descriptor) : Nat := (ds.map (·.typeName)).idxOf name

/-- First parameters stand in their order of declaration. -/
theorem leaders_ordered (ds : List Descriptor) : (leaders ds).Pairwise fun d e =>
    firstPlace d.typeName ds < firstPlace e.typeName ds := by
  induction ds with
  | nil => exact .nil
  | cons d ds ih =>
      have hplace : ∀ e : Descriptor, e.typeName ≠ d.typeName →
          firstPlace e.typeName (d :: ds) = firstPlace e.typeName ds + 1 := fun e hne => by
        rw [firstPlace, List.map_cons, List.idxOf_cons_ne _ hne.symm, firstPlace]
      have hfirst : firstPlace d.typeName (d :: ds) = 0 := by
        rw [firstPlace, List.map_cons, List.idxOf_cons_self]
      have hne : ∀ e ∈ (leaders ds).filter (·.typeName ≠ d.typeName), e.typeName ≠ d.typeName :=
        fun e he => by simpa using (List.mem_filter.1 he).2
      refine List.pairwise_cons.2 ⟨fun e he => ?_, (ih.filter _).imp_of_mem fun ha hb hlt => ?_⟩
      · rw [hfirst, hplace e (hne e he)]
        exact Nat.succ_pos _
      · rw [hplace _ (hne _ ha), hplace _ (hne _ hb)]
        exact Nat.succ_lt_succ hlt

theorem filter_flatMap_sharing (name : String) (es : List Descriptor) :
    (es.flatMap fun e => sharing e.typeName ds).filter (·.typeName ≠ name) =
      (es.filter (·.typeName ≠ name)).flatMap fun e => sharing e.typeName ds := by
  induction es with
  | nil => rfl
  | cons e es ih =>
      rw [List.flatMap_cons, List.filter_append, ih, List.filter_cons]
      by_cases he : e.typeName = name
      · have hnone : (sharing e.typeName ds).filter (·.typeName ≠ name) = [] := by
          refine List.filter_eq_nil_iff.2 fun d hd => ?_
          simpa [he] using (List.mem_filter.1 hd).2
        rw [hnone, if_neg (by simpa using he), List.nil_append]
      · have hall : (sharing e.typeName ds).filter (·.typeName ≠ name) = sharing e.typeName ds := by
          refine List.filter_eq_self.2 fun d hd => ?_
          have hd : d.typeName = e.typeName := by simpa using (List.mem_filter.1 hd).2
          simpa [hd] using he
        rw [hall, if_pos (by simpa using he), List.flatMap_cons]

/-- The first parameters have all parameters among them. -/
theorem flatMap_sharing_perm (ds : List Descriptor) :
    ((leaders ds).flatMap fun e => sharing e.typeName ds).Perm ds := by
  induction ds with
  | nil => exact .nil
  | cons d ds ih =>
      have hself : sharing d.typeName (d :: ds) = d :: sharing d.typeName ds :=
        List.filter_cons_of_pos (by simp)
      have hothers : ((leaders ds).filter (·.typeName ≠ d.typeName)).flatMap
            (fun e => sharing e.typeName (d :: ds)) =
          ((leaders ds).flatMap fun e => sharing e.typeName ds).filter
            (·.typeName ≠ d.typeName) := by
        rw [filter_flatMap_sharing]
        refine List.flatMap_congr fun e he => ?_
        have hne : e.typeName ≠ d.typeName := by simpa using (List.mem_filter.1 he).2
        exact List.filter_cons_of_neg (by simpa using hne.symm)
      rw [leaders, List.flatMap_cons, hself, hothers, List.cons_append]
      -- what shares the first name, and what does not, is all that follows
      refine .cons d (((ih.filter _).append_left _).trans ?_)
      simpa [sharing] using
        List.filter_append_perm (fun e : Descriptor => e.typeName = d.typeName) ds

/-- What the rows `rows` list about the parameters `ds`. -/
structure ListsTypes (ds : List Descriptor) (rows : List FormatRow) : Prop where
  /-- All parameters are mentioned, and nothing else. -/
  mentioned : (rows.flatMap (·.names)).Perm (ds.map (·.metavar))
  /-- No parameter is mentioned twice. -/
  once : (rows.flatMap (·.names)).Nodup
  /-- No two rows are about the same type name. -/
  typeNames : (rows.map (·.typeName)).Nodup
  /-- The parameters of a row stand in their order of declaration. -/
  inOrder : ∀ row ∈ rows, row.names.Sublist (ds.map (·.metavar))
  /-- The rows with a template stand in front of the others. -/
  templatesFirst : rows.Pairwise fun row next =>
    next.template.isSome = true → row.template.isSome = true
  /-- Otherwise the rows stand in the order in which their type names are first declared. -/
  ordered : rows.Pairwise fun row next => row.template.isSome = next.template.isSome →
    firstPlace row.typeName ds < firstPlace next.typeName ds
  /-- A row shows the type name of each of its parameters. -/
  typeName : ∀ row ∈ rows, ∀ d ∈ ds, d.metavar ∈ row.names → row.typeName = d.typeName
  /-- A row shows the template of the first parameter that is declared with its type name. -/
  template : ∀ row ∈ rows, ∃ first,
    ds.find? (·.typeName = row.typeName) = some first ∧ row.template = first.template

/-- Each row shows the template of each of its parameters. -/
def ShowsOwnTemplates (ds : List Descriptor) (rows : List FormatRow) : Prop :=
  ∀ row ∈ rows, ∀ d ∈ ds, d.metavar ∈ row.names → row.template = d.template

/-- A parameter in the row of another one has the same type name. -/
theorem typeName_of_mem_names (hds : (ds.map (·.metavar)).Nodup) (hd : d ∈ ds)
    (h : d.metavar ∈ (rowOf ds e).names) : d.typeName = e.typeName := by
  obtain ⟨d', hd', hname⟩ := List.mem_map.1 h
  obtain ⟨hd', htype⟩ := List.mem_filter.1 hd'
  obtain rfl := List.inj_on_of_nodup_map hds hd' hd hname
  simpa using htype

/-- **What the rows list.** -/
theorem listsTypes (hds : (ds.map (·.metavar)).Nodup) :
    ListsTypes ds ((listed ds).map (rowOf ds)) := by
  have hmentioned : (((listed ds).map (rowOf ds)).flatMap (·.names)).Perm (ds.map (·.metavar)) := by
    rw [List.flatMap_map]
    have hnames := (flatMap_sharing_perm ds).map (·.metavar)
    rw [List.map_flatMap] at hnames
    exact ((listed_perm ds).flatMap_right _).trans hnames
  have hrows : ∀ {P : FormatRow → Prop}, (∀ e ∈ leaders ds, P (rowOf ds e)) →
      ∀ row ∈ (listed ds).map (rowOf ds), P row := fun hP => by
    simpa using fun e he => hP e ((listed_perm ds).mem_iff.1 he)
  have hsome : ∀ d ∈ (leaders ds).filter (·.template.isSome), d.template.isSome = true :=
    fun d hd => (List.mem_filter.1 hd).2
  have hnone : ∀ d ∈ (leaders ds).filter (·.template.isNone), d.template = none :=
    fun d hd => Option.isNone_iff_eq_none.1 (List.mem_filter.1 hd).2
  refine ⟨hmentioned, hmentioned.nodup_iff.2 hds, ?_, ?_, ?_, ?_, ?_, ?_⟩
  · rw [List.map_map]
    refine ((listed_perm ds).map _).nodup_iff.2 ?_
    exact List.pairwise_map.2 (leaders_pairwise ds)
  · exact hrows fun e _ => List.filter_sublist.map _
  · refine List.pairwise_map.2 (List.pairwise_append.2 ⟨?_, ?_, ?_⟩)
    · exact List.pairwise_of_forall_mem_list fun d hd _ _ _ => hsome d hd
    · refine List.pairwise_of_forall_mem_list fun d _ e he h => absurd h ?_
      simp [rowOf, hnone e he]
    · exact fun d hd _ _ _ => hsome d hd
  · refine List.pairwise_map.2 (List.pairwise_append.2 ⟨?_, ?_, fun d hd e he h => absurd h ?_⟩)
    · refine ((leaders_ordered ds).filter _).imp ?_
      exact fun hlt _ => hlt
    · refine ((leaders_ordered ds).filter _).imp ?_
      exact fun hlt _ => hlt
    · simp [rowOf, hnone e he, hsome d hd]
  · exact hrows fun e _ d hd h => (typeName_of_mem_names hds hd h).symm
  · exact hrows fun e he => ⟨e, find?_of_mem_leaders he, rfl⟩

namespace ListsTypes

variable {rows : List FormatRow}

/-- Every parameter has a row. -/
theorem exists_row (h : ListsTypes ds rows) (hd : d ∈ ds) :
    ∃ row ∈ rows, d.metavar ∈ row.names ∧ row.typeName = d.typeName := by
  obtain ⟨row, hrow, hname⟩ := List.mem_flatMap.1
    (h.mentioned.mem_iff.2 (List.mem_map_of_mem hd))
  exact ⟨row, hrow, hname, h.typeName row hrow d hd hname⟩

/-- Each row shows the templates of its parameters exactly if parameters with the same type name
have the same template. -/
theorem showsOwnTemplates_iff (h : ListsTypes ds rows) :
    ShowsOwnTemplates ds rows ↔
      ∀ d ∈ ds, ∀ e ∈ ds, d.typeName = e.typeName → d.template = e.template := by
  constructor
  · intro hown d hd e he htype
    obtain ⟨row, hrow, hname, hd'⟩ := h.exists_row hd
    obtain ⟨row', hrow', hname', he'⟩ := h.exists_row he
    obtain rfl := List.inj_on_of_nodup_map h.typeNames hrow hrow'
      (hd'.trans (htype.trans he'.symm))
    rw [← hown row hrow d hd hname, hown row hrow e he hname']
  · intro hagree row hrow d hd hname
    obtain ⟨first, hfirst, htemplate⟩ := h.template row hrow
    have htype : first.typeName = row.typeName := by simpa using List.find?_some hfirst
    rw [htemplate]
    exact hagree first (List.mem_of_find?_eq_some hfirst) d hd
      (htype.trans (h.typeName row hrow d hd hname))

end ListsTypes

end Printer

/-! ## grammars -/

namespace Grammar

open Printer (ListsTypes ShowsOwnTemplates formatRows formatRows_eq listsTypes)

section Parsers

variable {r : Registry} {ps : List Parameter} {ds : List Descriptor} {d e : Descriptor} {t : Ty}
  {parser : Parser}

/-- A stored parser stays when others are looked for. -/
theorem lookup_registryBehind (h : r.lookup t = some parser) (ps : List Parameter) :
    (registryBehind r ps).lookup t = some parser := by
  induction ps using List.reverseRecOn with
  | nil => exact h
  | append_singleton ps p ih =>
      rw [registryBehind_concat]
      exact parserFor_keeps (Q := (·.lookup t = some parser))
        (fun r u => (r.gains_resolve u).kept t parser) p ih

/-- Behind a grammar whose parameters have no parsers of their own, the registry has theirs. -/
theorem DescribedFrom.lookup_type (h : DescribedFrom r [] 0 ps ds)
    (hps : ∀ p ∈ ps, p.parser = none) (hd : d ∈ ds) :
    (registryBehind r ps).lookup d.type = some d.parser := by
  obtain ⟨k, hk⟩ := List.mem_iff_getElem?.1 hd
  have hlt : k < ps.length := h.length ▸ (List.getElem?_eq_some_iff.1 hk).1
  obtain ⟨parser, hparser, hdescribed⟩ := h.described k ps[k] (List.getElem?_eq_getElem hlt)
  obtain rfl := Option.some.inj (hdescribed.symm.trans hk)
  have hbehind : registryBehind r ps =
      registryBehind (parserFor ps[k] (registryBehind r (ps.take k))).2 (ps.drop (k + 1)) := by
    rw [← registryBehind_concat, List.take_append_getElem hlt]
    simp only [registryBehind, ← List.foldl_append, List.take_append_drop]
  rw [List.nil_append, parserFor, hps _ (List.getElem_mem hlt)] at hparser
  rw [hbehind, parserFor, hps _ (List.getElem_mem hlt)]
  exact lookup_registryBehind
    (Registry.lookup_of_runs (hparser ▸ Resolution.runs_resolve _ _)) _

/-- No two parameters of a grammar have the same name. -/
theorem nodup_metavars {g : Grammar} (hb : (build ps r).1 = .ok g) :
    (g.parameters.map (·.metavar)).Nodup := by
  rw [(described_of_build hb).map_eq_map fun _ _ _ _ => rfl]
  exact List.pairwise_map.2 (valid_iff.2 (faultFree_of_build hb)).metavars

/-- **The section about the types lists every parameter that is no flag.**  Its rows mention each
one once and nothing else, in one row for each type name, in the order in which they are declared.
Rows with a template come first, and otherwise the order of the rows is that in which their type
names are first declared.  A row shows the type name of its parameters and the template of the first
one.  That is the template of each of them exactly if parameters with the same type name have the
same template, as they do if none has a parser of its own and different types have different
names. -/
theorem formatRows_list_types (r : Registry) (ps : List Parameter) (g : Grammar)
    (hb : (build ps r).1 = .ok g) :
    ListsTypes g.valued (formatRows g) ∧
      (ShowsOwnTemplates g.valued (formatRows g) ↔
        ∀ d ∈ g.valued, ∀ e ∈ g.valued, d.typeName = e.typeName → d.template = e.template) ∧
      ((∀ p ∈ ps, p.parser = none) →
        (∀ d ∈ g.valued, ∀ e ∈ g.valued, d.typeName = e.typeName → d.type = e.type) →
          ShowsOwnTemplates g.valued (formatRows g)) := by
  have hlists : ListsTypes g.valued (formatRows g) := by
    rw [formatRows_eq]
    exact listsTypes ((nodup_metavars hb).sublist (List.filter_sublist.map _))
  have hvalued : ∀ d ∈ g.valued, d ∈ g.parameters := fun d hd => (List.mem_filter.1 hd).1
  refine ⟨hlists, hlists.showsOwnTemplates_iff, fun hps htypes => ?_⟩
  refine hlists.showsOwnTemplates_iff.2 fun d hd e he htype => ?_
  have hparser := fun d hd => (described_of_build hb).lookup_type hps (hvalued d hd)
  have hd' := hparser d hd
  rw [htypes d hd e he htype, hparser e he] at hd'
  rw [Descriptor.template, Descriptor.template, Option.some.inj hd']

/-- Three bytes, a flag and a truth value that is given in words. -/
def bytesAndTruthValues : List Parameter :=
  [.positional (.integer .u8) "a", .positional (.integer .u8) "b", .switch (.integer .u8) 'c',
    .switch .bool 'd', (Parameter.switch .bool 'e').withFlagMode false]

/-- The bytes share a row behind that of the truth value; the flag has none. -/
theorem formatRows_list_types_bytes :
    ∃ g, (build bytesAndTruthValues (.empty fun _ _ => none)).1 = .ok g ∧
      formatRows g = [⟨["e"], "bool", some "t/f"⟩, ⟨["a", "b", "c"], "u8", none⟩] ∧
      ListsTypes g.valued (formatRows g) ∧ ShowsOwnTemplates g.valued (formatRows g) := by
  have hb : (build bytesAndTruthValues (.empty fun _ _ => none)).1 = .ok _ := rfl
  obtain ⟨hlists, -, hown⟩ := formatRows_list_types _ _ _ hb
  exact ⟨_, hb, rfl, hlists, hown (by decide) (by decide)⟩

/-- Vectors, and a record of one byte that goes by the same name. -/
def vectorAndNamesake : List Parameter :=
  [.positional (Catalogue.type "Vector") "a", .positional (Catalogue.type "Dyn") "b"]

/-- The namesake stands in the row of the vectors, which shows the template of these. -/
theorem formatRows_vectorAndNamesake :
    ∃ g d row, (build vectorAndNamesake (.empty (Catalogue.types
        { name := "Vector", exact := true, slots := [{ type := Catalogue.byte }] }))).1 = .ok g ∧
      d ∈ g.valued ∧ row ∈ formatRows g ∧ d.metavar ∈ row.names ∧
      row.template = some "[x y z]" ∧ d.template = some "[u8]" := by
  have hb : (build vectorAndNamesake (.empty (Catalogue.types
      { name := "Vector", exact := true, slots := [{ type := Catalogue.byte }] }))).1 = .ok _ := rfl
  exact ⟨_, _, ⟨["a", "b"], "Vector", some "[x y z]"⟩, hb,
    List.mem_cons_of_mem _ List.mem_cons_self, by decide +kernel,
    List.mem_cons_of_mem _ List.mem_cons_self, rfl, by decide +kernel⟩

end Parsers

end Grammar

end TypedConsole
