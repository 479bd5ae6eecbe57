import TypedConsole.Proofs.Pieces
import TypedConsole.Proofs.Typing
import TypedConsole.Proofs.Writing

/-!
# TypedConsole.Proofs.RecordLiterals

The literals of a record, and what a slot without an element is taken to be.

The reader of a record counts twice: the elements, to know which slot reads the next one, and then
the slots that no element has reached.  `Fills` counts once: the slots from the first one on read
the pieces of the literal, one each.  `Builds` adds the defaults of the slots that are left, all
of them or none, and gives the elements in the order of the slots to what assembles the record.
-/

namespace TypedConsole.Parser

open Reader

/-! ## what a literal builds -/

/-- `Fills special slots ps vs`: the slots from the first one on read the pieces whole, one each,
as the values. -/
inductive Fills (special : SpecialSet) : List (Slot Parser) → List Piece → List Value → Prop
  | nil : Fills special slots [] []
  | cons (hp : p.ReadAs (slot.parser.read special) v) (rest : Fills special slots ps vs) :
      Fills special (slot :: slots) (p :: ps) (v :: vs)

/-- No slot reads the piece in its place in part. -/
inductive Separates (special : SpecialSet) : List (Slot Parser) → List Piece → Prop
  | nil : Separates special slots []
  | surplus : Separates special [] ps
  | cons (hp : p.Undivided (slot.parser.read special)) (rest : Separates special slots ps) :
      Separates special (slot :: slots) (p :: ps)

/-- The slots have these defaults, each of them one. -/
def Default (slots : List (Slot Parser)) (ds : List Value) : Prop :=
  slots.map (·.default) = ds.map some

/-- `Builds special slots form ps v`: there is a slot for each of the pieces and reads it, the
slots behind them have defaults, and the record assembled from all of these, in the order of the
slots, is `v`. -/
inductive Builds (special : SpecialSet) (slots : List (Slot Parser)) (form : RecordForm)
    (ps : List Piece) (v : Value) : Prop
  | intro (hlength : ps.length ≤ slots.length) (hfills : Fills special slots ps vs)
      (hdefault : Default (slots.drop ps.length) ds)
      (hv : form.assemble (supplied slots (vs ++ ds)) = some v)

/-- Slots have one list of defaults at most. -/
theorem Default.unique {slots : List (Slot Parser)} {ds ds' : List Value} (h : Default slots ds)
    (h' : Default slots ds') : ds = ds' :=
  (List.map_inj_right fun _ _ => Option.some.inj).1 (h.symm.trans h')

variable {special : SpecialSet} {slots : List (Slot Parser)} {form : RecordForm} {ps : List Piece}
  {vs ds : List Value} {v : Value} {s r : List Char}

theorem Fills.length_eq (h : Fills special slots ps vs) : vs.length = ps.length := by
  induction h with
  | nil => rfl
  | cons _ _ ih => simp [ih]

theorem Fills.length_le (h : Fills special slots ps vs) : ps.length ≤ slots.length := by
  induction h with
  | nil => exact Nat.zero_le _
  | cons _ _ ih => simpa using ih

/-- Slots read one list of values at most. -/
theorem Fills.unique {ws : List Value} (h : Fills special slots ps vs)
    (h' : Fills special slots ps ws) : vs = ws := by
  induction h generalizing ws with
  | nil =>
      cases h'
      rfl
  | cons hp _ ih =>
      cases h' with
      | cons hp' hrest =>
          have hv := (Prod.mk.inj (hp.symm.trans hp')).1
          rw [Option.some.inj hv, ih hrest]

/-! ## the reader of the slots -/

/-- The element with a slot's number is read by the slot. -/
theorem slotReader_of_drop {i : Nat} {slot : Slot Parser} {rest : List (Slot Parser)}
    (h : slots.drop i = slot :: rest) : slotReader special slots i = slot.parser.read special := by
  have hslot : slots[i]? = some slot := by
    rw [← List.head?_drop, h]
    rfl
  rw [slotReader, readSlots_eq_map, List.getD_eq_getElem?_getD, List.getElem?_map, hslot]
  rfl

/-- Behind the last slot nothing is read. -/
theorem slotReader_of_drop_eq_nil {i : Nat} (h : slots.drop i = []) :
    slotReader special slots i = fun s => (none, s) := by
  have hslot : slots[i]? = none := by
    rw [← List.head?_drop, h]
    rfl
  rw [slotReader, readSlots_eq_map, List.getD_eq_getElem?_getD, List.getElem?_map, hslot]
  rfl

/-- The pieces numbered from `i` on are read by the slots from there on. -/
theorem readAll_slotReader_iff {i : Nat} {left : List (Slot Parser)} (h : slots.drop i = left) :
    ReadAll (slotReader special slots) i ps vs ↔ Fills special left ps vs := by
  induction ps generalizing i left vs with
  | nil => constructor <;> rintro ⟨⟩ <;> exact .nil
  | cons p ps ih =>
      have htail : slots.drop (i + 1) = left.tail := by rw [← List.tail_drop, h]
      cases left with
      | nil =>
          constructor
          · rintro (_ | ⟨hp, -⟩)
            simp [Piece.ReadAs, slotReader_of_drop_eq_nil h] at hp
          · rintro ⟨⟩
      | cons slot left =>
          constructor
          · rintro (_ | ⟨hp, hrest⟩)
            exact .cons (slotReader_of_drop h ▸ hp) ((ih htail).1 hrest)
          · rintro (_ | ⟨hp, hrest⟩)
            exact .cons (slotReader_of_drop h ▸ hp) ((ih htail).2 hrest)

theorem Separates.noneDivided {i : Nat} {left : List (Slot Parser)} (hleft : slots.drop i = left)
    (h : Separates special left ps) : NoneDivided (slotReader special slots) i ps := by
  induction ps generalizing i left with
  | nil => exact .nil
  | cons p ps ih =>
      have htail : slots.drop (i + 1) = left.tail := by rw [← List.tail_drop, hleft]
      cases h with
      | surplus =>
          -- what is not read at all is not read in part
          refine .cons (fun v u hr => ?_) (ih htail .surplus)
          simp [slotReader_of_drop_eq_nil hleft] at hr
      | cons hp hrest => exact .cons (slotReader_of_drop hleft ▸ hp) (ih htail hrest)

/-! ## defaults -/

/-- The defaults of slots are their elements, if there is one for each. -/
theorem defaults_eq_some_iff {ts : List TypedValue} :
    defaults slots = some ts ↔ ∃ ds, Default slots ds ∧ ts = supplied slots ds := by
  induction slots generalizing ts with
  | nil =>
      constructor
      · rintro ⟨⟩
        exact ⟨[], rfl, rfl⟩
      · rintro ⟨ds, -, rfl⟩
        rfl
  | cons slot slots ih =>
      simp only [defaults, Option.bind_eq_bind, Option.bind_eq_some_iff, ih]
      constructor
      · rintro ⟨d, hd, -, ⟨ds, hds, rfl⟩, hts⟩
        exact ⟨d :: ds, congrArg₂ List.cons hd hds, (Option.some.inj hts).symm⟩
      · rintro ⟨ds, hds, rfl⟩
        obtain ⟨d, ds, rfl, hd, hds⟩ := List.map_eq_cons_iff.1 (Eq.symm hds)
        exact ⟨d, hd.symm, _, ⟨ds, hds.symm, rfl⟩, rfl⟩

/-- Elements for the first slots and elements for the others are elements for all of them. -/
theorem supplied_append (h : vs.length ≤ slots.length) :
    supplied slots (vs ++ ds) = supplied slots vs ++ supplied (slots.drop vs.length) ds := by
  have htake : supplied slots vs = supplied (slots.take vs.length) vs := by
    rw [supplied, List.zipWith_eq_zipWith_take_min, Nat.min_eq_right h, List.take_length, supplied]
  conv_lhs => rw [← List.take_append_drop vs.length slots]
  rw [supplied, List.zipWith_append (List.length_take_of_le h), htake]
  rfl

/-- A record is completed with the defaults of all slots that no element has reached. -/
theorem complete_eq_some_iff (h : vs.length ≤ slots.length) :
    complete slots form vs = some v ↔
      ∃ ds, Default (slots.drop vs.length) ds ∧
        form.assemble (supplied slots (vs ++ ds)) = some v := by
  rw [complete, Option.bind_eq_bind, Option.bind_eq_some_iff]
  simp only [defaults_eq_some_iff]
  constructor
  · rintro ⟨-, ⟨ds, hds, rfl⟩, hv⟩
    exact ⟨ds, hds, by rwa [supplied_append h]⟩
  · rintro ⟨ds, hds, hv⟩
    exact ⟨_, ⟨ds, hds, rfl⟩, by rwa [supplied_append h] at hv⟩

/-! ## the reader of a record -/

/-- What is read of the pieces of a record literal, before it is completed. -/
theorem read_record_of_fills (hps : CutGroup form.groupings.toList form.separator ps s r)
    (h : Fills special slots ps vs) :
    (record slots form).read special s = (complete slots form vs, r) := by
  have hgroup : group form.groupings form.separator (slotReader special slots) s = (some vs, r) :=
    hps.groupIn_eq ((readAll_slotReader_iff rfl).2 h)
  rw [read_record, Reader.mapOption, hgroup]
  rfl

/-- A record with pieces that fill slots is what these build. -/
theorem complete_eq_some_iff_builds (h : Fills special slots ps vs) :
    complete slots form vs = some v ↔ Builds special slots form ps v := by
  rw [complete_eq_some_iff (h.length_eq.trans_le h.length_le), h.length_eq]
  constructor
  · rintro ⟨ds, hds, hv⟩
    exact .intro h.length_le h hds hv
  · rintro ⟨-, hfills, hds, hv⟩
    obtain rfl := hfills.unique h
    exact ⟨_, hds, hv⟩

/-- What a record reads are the literals that build a record. -/
theorem read_record_eq_some_iff :
    (record slots form).read special s = (some v, r) ↔
      ∃ ps, CutGroup form.groupings.toList form.separator ps s r ∧
        Builds special slots form ps v := by
  constructor
  · intro h
    rw [read_record, Reader.mapOption_eq_some_iff] at h
    obtain ⟨vs, hvs, hv⟩ := h
    have hsuffix : ∀ i s v t, slotReader special slots i s = (some v, t) → t <:+ s := by
      intro i s v t h
      have hclaims : (slotReader special slots i s).2 <:+ s :=
        claims_slotReader (fun slot _ => claims_read special slot.parser) i s
      rwa [h] at hclaims
    obtain ⟨ps, hps, hread⟩ := (groupIn_eq_some_iff_pieces hsuffix).1 hvs
    have hfills := (readAll_slotReader_iff rfl).1 hread
    exact ⟨ps, hps, (complete_eq_some_iff_builds hfills).1 hv⟩
  · rintro ⟨ps, hps, hbuilds⟩
    have hbuilds' := hbuilds
    obtain ⟨-, hfills, -, -⟩ := hbuilds'
    rw [read_record_of_fills hps hfills, (complete_eq_some_iff_builds hfills).2 hbuilds]

/-- A literal is refused unless its pieces build a record, provided that none of them is read in
part. -/
theorem read_record_eq_none (hps : CutGroup form.groupings.toList form.separator ps s r)
    (hseparates : Separates special slots ps) (h : ∀ v, ¬Builds special slots form ps v) :
    ((record slots form).read special s).1 = none := by
  by_cases hfills : ∃ vs, Fills special slots ps vs
  · obtain ⟨vs, hfills⟩ := hfills
    rw [read_record_of_fills hps hfills]
    exact Option.eq_none_iff_forall_ne_some.2 fun v hv =>
      h v ((complete_eq_some_iff_builds hfills).1 hv)
  · have hrefused : (group form.groupings form.separator (slotReader special slots) s).1 = none :=
      hps.groupIn_refused (hseparates.noneDivided rfl) fun vs hread =>
        hfills ⟨vs, (readAll_slotReader_iff rfl).1 hread⟩
    rw [read_record, Reader.mapOption]
    simp only [hrefused, Option.bind_none]

/-- Elements that are the defaults of their slots need not be written. -/
theorem complete_append_defaults {ds' : List Value} (h : vs.length ≤ slots.length)
    (hds : Default (slots.drop vs.length) (ds ++ ds')) :
    complete slots form (vs ++ ds) = complete slots form vs := by
  have hlength : ds.length + ds'.length = slots.length - vs.length := by
    have := congrArg List.length hds
    simpa using this.symm
  have hle : (vs ++ ds).length ≤ slots.length := by
    rw [List.length_append]
    omega
  have hds' : Default (slots.drop (vs ++ ds).length) ds' := by
    have := congrArg (List.drop ds.length) hds
    simpa [Default, ← List.map_drop] using this
  refine Option.ext fun v => ?_
  rw [complete_eq_some_iff h, complete_eq_some_iff hle]
  constructor
  · rintro ⟨es, hes, hv⟩
    obtain rfl := hes.unique hds'
    exact ⟨ds ++ es, hds, by rwa [← List.append_assoc]⟩
  · rintro ⟨es, hes, hv⟩
    obtain rfl := hes.unique hds
    exact ⟨ds', hds', by rwa [List.append_assoc]⟩

/-- **What a record literal means.**  Let a record have any slots and any form, and let any
characters be special.

1. A text is read as a record exactly if it is a group with at most as many pieces as there are
   slots, each piece is read by the slot in its place, every slot behind has a default, and these
   values and defaults, in the order of the slots, can be assembled; the record is what is
   assembled, and the reader leaves what follows the group.
2. Every group of which no piece is read in part by the slot in its place is refused if that is
   not so.
3. In particular it is refused with more pieces than slots.
4. To close a group before pieces that are read as the defaults of their slots makes no
   difference to the record, or to its being refused. -/
theorem record_literal_builds (special : SpecialSet) (slots : List (Slot Parser))
    (form : RecordForm) :
    (∀ s v r, (record slots form).read special s = (some v, r) ↔
      ∃ ps, CutGroup form.groupings.toList form.separator ps s r ∧
        Builds special slots form ps v) ∧
    (∀ ps s r, CutGroup form.groupings.toList form.separator ps s r → Separates special slots ps →
      ∀ v u, (record slots form).read special s = (some v, u) ↔
        u = r ∧ Builds special slots form ps v) ∧
    (∀ ps s r, CutGroup form.groupings.toList form.separator ps s r → Separates special slots ps →
      slots.length < ps.length → ((record slots form).read special s).1 = none) ∧
    (∀ ps s r vs ds ds', CutGroup form.groupings.toList form.separator ps s r →
      Fills special slots ps vs → Default (slots.drop ps.length) (ds ++ ds') →
      ∀ ps' s' r', CutGroup form.groupings.toList form.separator ps' s' r' →
        Fills special slots ps' (vs ++ ds) →
        ((record slots form).read special s').1 = ((record slots form).read special s).1) := by
  refine ⟨fun s v r => read_record_eq_some_iff, fun ps s r hps hseparates v u => ?_,
    fun ps s r hps hseparates hlt => ?_,
    fun ps s r vs ds ds' hps hfills hds ps' s' r' hps' hfills' => ?_⟩
  · constructor
    · intro hread
      by_cases hbuilds : ∃ w, Builds special slots form ps w
      · obtain ⟨w, hw⟩ := hbuilds
        obtain ⟨hv, rfl⟩ := Prod.mk.inj (hread.symm.trans (read_record_eq_some_iff.2 ⟨ps, hps, hw⟩))
        exact ⟨rfl, Option.some.inj hv ▸ hw⟩
      · have hnone := read_record_eq_none hps hseparates fun w hw => hbuilds ⟨w, hw⟩
        rw [hread] at hnone
        contradiction
    · rintro ⟨rfl, hbuilds⟩
      exact read_record_eq_some_iff.2 ⟨ps, hps, hbuilds⟩
  · refine read_record_eq_none hps hseparates fun v hbuilds => ?_
    obtain ⟨hle, -, -, -⟩ := hbuilds
    omega
  · rw [read_record_of_fills hps hfills, read_record_of_fills hps' hfills']
    have hlength := hfills.length_eq
    exact complete_append_defaults (hlength.trans_le hfills.length_le) (hlength ▸ hds)

/-! ## an example -/

/-- The slots of two ends, which are zero and nine if they are not written. -/
def spanSlots : List (Slot Parser) :=
  [⟨.integer .u8, .integer .u8, some (.integer 0)⟩, ⟨.integer .u8, .integer .u8, some (.integer 9)⟩]

/-- Two ends between angle brackets, with a semicolon between them. -/
def spanForm : RecordForm where
  groupings := .angles
  separator := ';'
  name := "Span"
  template := "<u8 u8>"
  assemble es := some (.list (es.map (·.value)))

/-- What delimits such records is special. -/
def spanSpecial : SpecialSet := SpecialSet.builtIn.add ['<', '>', ';']

/-- With one end, with both, and with one too many. -/
theorem record_literal_builds_span :
    (record spanSlots spanForm).read spanSpecial ['<', '3', '>'] =
      (some (.list [.integer 3, .integer 9]), []) ∧
    ((record spanSlots spanForm).read spanSpecial ['<', '3', ';', '9', '>']).1 =
      ((record spanSlots spanForm).read spanSpecial ['<', '3', '>']).1 ∧
    ((record spanSlots spanForm).read spanSpecial ['<', '3', '4', ' ', '5', ' ', '6', '>']).1 =
      none := by
  obtain ⟨hread, -, hmore, hearly⟩ := record_literal_builds spanSpecial spanSlots spanForm
  have hopen : Opens Groupings.angles.toList '<' '>' := ⟨[], [], rfl, by simp⟩
  have hblank : Text.isBlank '>' = false := by decide
  have hgap : Text.Blank [' '] := Text.blank_cons.2 ⟨by decide, Text.blank_nil⟩
  have hone : CutGroup spanForm.groupings.toList ';' [⟨['3'], ['>']⟩] ['<', '3', '>'] [] :=
    .pieces (b := []) (d := []) hopen hblank (by decide) Text.blank_nil
      (.last ⟨'3', [], rfl, by decide⟩) Text.blank_nil
  have hboth : CutGroup spanForm.groupings.toList ';' [⟨['3'], [';', '9', '>']⟩, ⟨['9'], ['>']⟩]
      ['<', '3', ';', '9', '>'] [] :=
    .pieces (b := []) (d := []) hopen hblank (by decide) Text.blank_nil
      (.more (e := ['3']) (g := [';']) ⟨'3', [], rfl, by decide⟩
        (.inr ⟨[], [], Text.blank_nil, Text.blank_nil, rfl⟩)
        (.last (e := ['9']) ⟨'9', [], rfl, by decide⟩)) Text.blank_nil
  have hthree : CutGroup spanForm.groupings.toList ';'
      [⟨['3', '4'], [' ', '5', ' ', '6', '>']⟩, ⟨['5'], [' ', '6', '>']⟩, ⟨['6'], ['>']⟩]
      ['<', '3', '4', ' ', '5', ' ', '6', '>'] [] :=
    .pieces (b := []) (d := []) hopen hblank (by decide) Text.blank_nil
      (.more (e := ['3', '4']) (g := [' ']) ⟨'3', ['4'], rfl, by decide⟩ (.inl hgap)
        (.more (e := ['5']) (g := [' ']) ⟨'5', [], rfl, by decide⟩ (.inl hgap)
          (.last (e := ['6']) ⟨'6', [], rfl, by decide⟩))) Text.blank_nil
  have hlow : (⟨['3'], ['>']⟩ : Piece).ReadAs ((Parser.integer .u8).read spanSpecial)
      (.integer 3) := rfl
  have hlow' : (⟨['3'], [';', '9', '>']⟩ : Piece).ReadAs ((Parser.integer .u8).read spanSpecial)
      (.integer 3) := rfl
  have hhigh : (⟨['9'], ['>']⟩ : Piece).ReadAs ((Parser.integer .u8).read spanSpecial)
      (.integer 9) := rfl
  have hfills : Fills spanSpecial spanSlots [⟨['3'], ['>']⟩] [.integer 3] := .cons hlow .nil
  have hdefault : Default (spanSlots.drop 1) [.integer 9] := rfl
  refine ⟨(hread _ _ _).2 ⟨_, hone, .intro (by decide) hfills hdefault rfl⟩, ?_, ?_⟩
  · exact hearly _ _ _ [.integer 3] [.integer 9] [] hone hfills rfl _ _ _ hboth
      (.cons hlow' (.cons hhigh .nil))
  · refine hmore _ _ _ hthree ?_ (by decide)
    have hfirst : (⟨['3', '4'], [' ', '5', ' ', '6', '>']⟩ : Piece).ReadAs
        ((Parser.integer .u8).read spanSpecial) (.integer 34) := rfl
    have hsecond : (⟨['5'], [' ', '6', '>']⟩ : Piece).ReadAs
        ((Parser.integer .u8).read spanSpecial) (.integer 5) := rfl
    exact .cons hfirst.undivided (.cons hsecond.undivided .surplus)

end TypedConsole.Parser
