import TypedConsole.Proofs.Claims
import TypedConsole.Proofs.Resolution
import TypedConsole.Proofs.Rounding
import TypedConsole.Proofs.Sorting
import Mathlib.Data.List.Forall2

/-!
# TypedConsole.Proofs.Typing

Which values belong to a type, and why a parser only reads values of its type.

Values do not name their types, so nothing in a value keeps a parser from reading one of another
type.  `HasType` says which values are those of a type.  Two things follow from that alone:

1. the initial value of a type is one of its values (`hasType_zero`);
2. a parser that is composed for a type reads values of the type, if its parts read values of
   theirs (`composition_reads`).

So every parser that a registry gives for a type reads its values, if those do that were registered
(`WellTyped.reads_of_resolve`).
-/

namespace TypedConsole

/-! ## values of a type -/

/-- The values of the declared types that have no literal of their own. -/
abbrev Carrier := String → List Ty → Value → Prop

/-- `HasType carrier types t v`: the value `v` is one of the type `t`. -/
inductive HasType (carrier : Carrier) (types : Declarations) : Ty → Value → Prop
  | string (s : String) : HasType carrier types .string (.string s)
  | char (c : Char) : HasType carrier types .char (.char c)
  | bool (b : Bool) : HasType carrier types .bool (.bool b)
  | integer (h : t.holds n = true) : HasType carrier types (.integer t) (.integer n)
  | float (h : t.Holds x) : HasType carrier types (.float t) (.float x)
  | absent (t : Ty) : HasType carrier types (.optional t) .absent
  | present (h : HasType carrier types t v) : HasType carrier types (.optional t) (.present v)
  | sequence (hlength : ∀ n, kind = .array n → vs.length = n)
      (h : ∀ v ∈ vs, HasType carrier types t v) :
      HasType carrier types (.sequence kind t) (.list vs)
  /-- The elements of a set are distinct, and in increasing order. -/
  | set (i : Indexing) (hsorted : vs.Pairwise Value.Before)
      (h : ∀ v ∈ vs, HasType carrier types t v) : HasType carrier types (.set i t) (.list vs)
  /-- The keys of a map are distinct, and in increasing order. -/
  | map (i : Indexing) (hsorted : entries.Pairwise fun e f => e.1.Before f.1)
      (hk : ∀ e ∈ entries, HasType carrier types k e.1)
      (hv : ∀ e ∈ entries, HasType carrier types v e.2) :
      HasType carrier types (.map i k v) (.ofEntries entries)
  | pair (hk : HasType carrier types k a) (hv : HasType carrier types v b) :
      HasType carrier types (.pair k v) (.pair a b)
  /-- A record is the list of what was taken from its elements. -/
  | record (hspec : recordSpec? types t = some spec)
      (h : List.Forall₂ (HasType carrier types) spec.taken vs) :
      HasType carrier types t (.list vs)
  | alias (ht : types path args = some ⟨.alias name t, zero⟩) (h : HasType carrier types t v) :
      HasType carrier types (.declared path args) v
  | foreign (ht : types path args = some ⟨.opaqueType, zero⟩) (h : carrier path args v) :
      HasType carrier types (.declared path args) v
  | undeclared (ht : types path args = none) :
      HasType carrier types (.declared path args) .unit

/-- What declarations say of values is well typed. -/
structure Declarations.Typed (carrier : Carrier) (types : Declarations) : Prop where
  /-- The initial value of a declared type is one of its values, if those of its arguments are
  values of theirs. -/
  zero : ∀ {path args d vs}, types path args = some d →
    List.Forall₂ (HasType carrier types) args vs →
    HasType carrier types (.declared path args) (d.zero vs)
  /-- The default of a slot is a value of its type. -/
  default : ∀ {path args spec zero}, types path args = some ⟨.record spec, zero⟩ →
    ∀ s ∈ spec.slots, ∀ v ∈ s.default, HasType carrier types s.type v

variable {carrier : Carrier} {types : Declarations}

/-- A pair of two values is of the pair of their types. -/
theorem HasType.of_pair {k v : Ty} {a b : Value}
    (h : HasType carrier types (.pair k v) (.pair a b)) :
    HasType carrier types k a ∧ HasType carrier types v b := by
  cases h with
  | pair hk hv => exact ⟨hk, hv⟩

/-! ## initial values -/

theorem holds_zero (t : IntegerType) : t.holds 0 = true := by cases t <;> decide

mutual
/-- **The initial value of a type is one of its values.** -/
theorem hasType_zero (h : types.Typed carrier) : (t : Ty) →
    HasType carrier types t (t.zero types)
  | .string => .string ""
  | .char => .char '\x00'
  | .bool => .bool false
  | .integer t => .integer (holds_zero t)
  | .float t => .float t.holds_zero
  | .optional t => .absent t
  | .sequence (.array n) t =>
    .sequence (fun m hm => by rw [List.length_replicate, SequenceKind.array.inj hm])
      fun v hv => List.eq_of_mem_replicate hv ▸ hasType_zero h t
  | .sequence .vector _ | .sequence .deque _ | .sequence .stack _ | .sequence .slice _ =>
    .sequence (fun _ hm => by cases hm) fun _ hv => absurd hv List.not_mem_nil
  | .set i _ => .set i .nil fun _ hv => absurd hv List.not_mem_nil
  | .map i _ _ =>
    @HasType.map _ _ [] _ _ i .nil (fun _ he => absurd he List.not_mem_nil) fun _ he =>
      absurd he List.not_mem_nil
  | .pair k v => .pair (hasType_zero h k) (hasType_zero h v)
  | .tuple ts => .record rfl (by
    rw [RecordSpec.tuple, List.map_map]
    exact (List.map_id ts).symm ▸ hasTypes_zeros h ts)
  | .declared path args => by
    rw [Ty.zero]
    split
    · next hd => exact h.zero hd (hasTypes_zeros h args)
    · next hd => exact .undeclared hd

theorem hasTypes_zeros (h : types.Typed carrier) : (ts : List Ty) →
    List.Forall₂ (HasType carrier types) ts (Ty.zeros types ts)
  | [] => .nil
  | t :: ts => .cons (hasType_zero h t) (hasTypes_zeros h ts)
end

/-! ## what parsers read -/

/-- Whatever the parser reads, under whichever special characters, is a value of the type. -/
def Parser.Reads (carrier : Carrier) (types : Declarations) (p : Parser) (t : Ty) : Prop :=
  ∀ special s v u, p.read special s = (some v, u) → HasType carrier types t v

namespace Parser

open Reader (map_eq_some_iff mapOption_eq_some_iff)

variable {t k v : Ty} {p q : Parser}

theorem reads_string : string.Reads carrier types .string := fun special s v u h => by
  rw [read, map_eq_some_iff] at h
  obtain ⟨w, -, rfl⟩ := h
  exact .string w

theorem reads_char : char.Reads carrier types .char := fun special s v u h => by
  rw [read, map_eq_some_iff] at h
  obtain ⟨c, -, rfl⟩ := h
  exact .char c

theorem reads_bool : bool.Reads carrier types .bool := fun special s v u h => by
  rw [read, map_eq_some_iff] at h
  obtain ⟨b, -, rfl⟩ := h
  exact .bool b

theorem holds_of_integer {type : IntegerType} {special : SpecialSet} {s u : List Char} {n : Int}
    (h : Reader.integer type special s = (some n, u)) : type.holds n = true := by
  simp only [Reader.integer] at h
  split at h
  · simp at h
  · have hvalue := congrArg Prod.fst h
    simp only [Reader.integerValue] at hvalue
    split at hvalue
    · split at hvalue
      · next hn => exact Option.some.inj hvalue ▸ (Bool.and_eq_true_iff.1 hn).2
      · contradiction
    · split at hvalue
      · next hn => exact Option.some.inj hvalue ▸ hn
      · contradiction

theorem reads_integer (type : IntegerType) : (integer type).Reads carrier types (.integer type) :=
  fun special s v u h => by
    rw [read, map_eq_some_iff] at h
    obtain ⟨n, hn, rfl⟩ := h
    exact .integer (holds_of_integer hn)

theorem holds_of_float {type : FloatType} {special : SpecialSet} {s u : List Char}
    {x : BinaryFloat} (h : Reader.float type special s = (some x, u)) : type.Holds x := by
  simp only [Reader.float] at h
  split at h
  · simp at h
  · exact FloatType.holds_of_round (Nat.pow_pos (by decide)) (congrArg Prod.fst h)

theorem reads_float (type : FloatType) : (float type).Reads carrier types (.float type) :=
  fun special s v u h => by
    rw [read, map_eq_some_iff] at h
    obtain ⟨x, hx, rfl⟩ := h
    exact .float (holds_of_float hx)

theorem Reads.optional (h : p.Reads carrier types t) :
    (optional p).Reads carrier types (.optional t) := fun special s v u hr => by
  rw [read, map_eq_some_iff] at hr
  obtain ⟨w, hw, rfl⟩ := hr
  exact .present (h special s w u hw)

theorem Reads.renamed {path name : String} {args : List Ty} {zero : List Value → Value}
    (ht : types path args = some ⟨.alias name t, zero⟩) (h : p.Reads carrier types t) :
    (renamed p name).Reads carrier types (.declared path args) := fun special s v u hr => by
  rw [read] at hr
  exact .alias ht (h special s v u hr)

theorem Reads.pair (hk : p.Reads carrier types k) (hv : q.Reads carrier types v) :
    (pair p q).Reads carrier types (.pair k v) := fun special s w u hr => by
  rw [read, map_eq_some_iff] at hr
  obtain ⟨⟨a, b⟩, hab, rfl⟩ := hr
  obtain ⟨_, _, ha, -, hb⟩ := readPair_eq_some_iff.1 hab
  exact .pair (hk _ _ _ _ ha) (hv _ _ _ _ hb)

/-! ## groups -/

/-- What holds of all that the readers of the elements give holds of the members of a group. -/
theorem forall_members {α : Type} {closing separator : Char} {element : Nat → Reader α}
    {Q : α → Prop} (helement : ∀ i s a u, element i s = (some a, u) → Q a) {i : Nat} {b : Bool}
    {s u : List Char} {as : List α} (h : Reader.Members closing separator element i b s as u) :
    ∀ a ∈ as, Q a := by
  induction h with
  | close => simp
  | separated _ _ _ he _ _ _ ih | adjacent _ _ _ he _ _ _ _ ih =>
      exact List.forall_mem_cons.2 ⟨helement _ _ _ _ he, ih⟩

/-- The elements of a group are of the type that their parser reads. -/
theorem Reads.of_group (h : p.Reads carrier types t) {g : Groupings} {separator : Char}
    {special : SpecialSet} {s u : List Char} {vs : List Value}
    (hr : Reader.group g separator (fun _ => p.read special) s = (some vs, u)) :
    ∀ v ∈ vs, HasType carrier types t v := by
  obtain ⟨_, _, _, -, -, hmembers⟩ := Reader.group_eq_some_iff.1 hr
  exact forall_members (fun _ s v u => h special s v u) hmembers

theorem Reads.sequence (h : p.Reads carrier types t) (kind : SequenceKind) (g : Groupings)
    (name : String) :
    (sequence p g name kind.collect).Reads carrier types (.sequence kind t) :=
  fun special s w u hr => by
    rw [read, mapOption_eq_some_iff] at hr
    obtain ⟨vs, hvs, hcollect⟩ := hr
    have htyped := h.of_group hvs
    cases kind with
    | vector | deque | slice =>
        obtain rfl := Option.some.inj hcollect
        exact .sequence (fun _ hm => by cases hm) htyped
    | stack =>
        obtain rfl := Option.some.inj hcollect
        exact .sequence (fun _ hm => by cases hm) fun v hv => htyped v (List.mem_reverse.1 hv)
    | array n =>
        simp only [SequenceKind.collect] at hcollect
        split at hcollect
        · next hn =>
            obtain rfl := Option.some.inj hcollect
            exact .sequence (fun m hm => SequenceKind.array.inj hm ▸ hn) htyped
        · contradiction

theorem Reads.set (h : p.Reads carrier types t) (i : Indexing) (g : Groupings) (name : String) :
    (Parser.sequence p g name collectSet).Reads carrier types (.set i t) :=
  fun special s w u hr => by
    rw [read, mapOption_eq_some_iff] at hr
    obtain ⟨vs, hvs, hcollect⟩ := hr
    obtain rfl := Option.some.inj hcollect
    obtain ⟨hsorted, hmem⟩ := Value.distinct_spec vs
    exact .set i hsorted fun v hv => h.of_group hvs v (hmem v hv)

theorem Reads.map (h : p.Reads carrier types (.pair k v)) (i : Indexing) (name : String) :
    (map p name bindSorted).Reads carrier types (.map i k v) := fun special s w u hr => by
  rw [read, mapOption_eq_some_iff] at hr
  obtain ⟨vs, hvs, hbind⟩ := hr
  obtain ⟨entries, hentries, rfl⟩ := Option.map_eq_some_iff.1 hbind
  obtain ⟨hsorted, hmem⟩ := Value.bindAll_spec hentries
  have htyped : ∀ e ∈ entries, HasType carrier types k e.1 ∧ HasType carrier types v e.2 := by
    intro e he
    obtain ⟨w, hw, hpair⟩ := List.mem_filterMap.1 (hmem e he)
    split at hpair
    · obtain rfl := Option.some.inj hpair
      exact HasType.of_pair (h.of_group hvs _ hw)
    · contradiction
  exact .map i hsorted (fun e he => (htyped e he).1) fun e he => (htyped e he).2

/-! ## records -/

section Records

variable {special : SpecialSet} {slots : List (Slot Parser)} {es : List TypedValue}

/-- The elements that values read for the slots make. -/
def supplied (slots : List (Slot Parser)) (vs : List Value) : List TypedValue :=
  List.zipWith (fun slot v => ⟨slot.type, v⟩) slots vs

/-- The elements are those of the slots, in order: each has the type of its slot, and its value is
one of the type. -/
def Fits (carrier : Carrier) (types : Declarations) (slots : List (Slot Parser))
    (es : List TypedValue) : Prop :=
  List.Forall₂ (fun slot e => e.type = slot.type ∧ HasType carrier types slot.type e.value) slots es

/-- The reader of an element is that of the slot with its number. -/
theorem slot_of_slotReader {j : Nat} {s u : List Char} {v : Value}
    (h : slotReader special slots j s = (some v, u)) :
    ∃ slot, slots[j]? = some slot ∧ slot.parser.read special s = (some v, u) := by
  rw [slotReader, readSlots_eq_map, List.getD_eq_getElem?_getD, List.getElem?_map] at h
  cases hslot : slots[j]? with
  | none => simp [hslot] at h
  | some slot => exact ⟨slot, rfl, by simpa [hslot] using h⟩

/-- The members of a record literal belong to the slots from their number on. -/
theorem fits_members (h : ∀ slot ∈ slots, slot.parser.Reads carrier types slot.type)
    {closing separator : Char} {i : Nat} {b : Bool} {s u : List Char} {vs : List Value}
    (hm : Reader.Members closing separator (slotReader special slots) i b s vs u) :
    Fits carrier types ((slots.drop i).take vs.length) (supplied (slots.drop i) vs) := by
  induction hm with
  | close => simp [Fits, supplied]
  | separated _ _ _ he _ _ _ ih | adjacent _ _ _ he _ _ _ _ ih =>
      obtain ⟨slot, hslot, hread⟩ := slot_of_slotReader he
      obtain ⟨hlt, rfl⟩ := List.getElem?_eq_some_iff.1 hslot
      rw [List.drop_eq_getElem_cons hlt]
      exact .cons ⟨rfl, h _ (List.getElem_mem hlt) _ _ _ _ hread⟩ ih

/-- Defaults belong to the slots that they are given for. -/
theorem fits_defaults (h : ∀ slot ∈ slots, ∀ v ∈ slot.default, HasType carrier types slot.type v)
    (hes : defaults slots = some es) : Fits carrier types slots es := by
  induction slots generalizing es with
  | nil => exact Option.some.inj hes ▸ .nil
  | cons slot slots ih =>
      obtain ⟨hslot, hslots⟩ := List.forall_mem_cons.1 h
      rw [defaults, Option.bind_eq_bind, Option.bind_eq_some_iff] at hes
      obtain ⟨v, hv, hes⟩ := hes
      obtain ⟨rest, hrest, hes⟩ := Option.bind_eq_some_iff.1 hes
      exact Option.some.inj hes ▸ .cons ⟨rfl, hslot v hv⟩ (ih hslots hrest)

/-- **The elements of a record literal and the defaults behind them fit the slots.** -/
theorem fits_elements (h : ∀ slot ∈ slots, slot.parser.Reads carrier types slot.type)
    (hdefault : ∀ slot ∈ slots, ∀ v ∈ slot.default, HasType carrier types slot.type v)
    {g : Groupings} {separator : Char} {s u : List Char} {vs : List Value}
    (hvs : Reader.group g separator (slotReader special slots) s = (some vs, u))
    (hes : defaults (slots.drop vs.length) = some es) :
    Fits carrier types slots (supplied slots vs ++ es) := by
  obtain ⟨_, _, _, -, -, hmembers⟩ := Reader.group_eq_some_iff.1 hvs
  have hread := fits_members h hmembers
  have hrest := fits_defaults (fun slot hslot => hdefault slot (List.mem_of_mem_drop hslot)) hes
  simpa only [List.drop_zero, List.take_append_drop, Fits] using List.rel_append hread hrest

theorem Fits.forall_hasType (h : Fits carrier types slots es) :
    ∀ e ∈ es, HasType carrier types e.type e.value := by
  induction h with
  | nil => simp
  | cons he _ ih => exact List.forall_mem_cons.2 ⟨he.1 ▸ he.2, ih⟩

/-- What is taken is of the types it was taken for. -/
theorem hasTypes_of_take {ts : List Ty} {vs : List Value}
    (hes : ∀ e ∈ es, HasType carrier types e.type e.value)
    (h : RecordSpec.take ts es = some vs) : List.Forall₂ (HasType carrier types) ts vs := by
  induction ts generalizing es vs with
  | nil => exact Option.some.inj h ▸ .nil
  | cons t ts ih =>
      cases es with
      | nil => contradiction
      | cons e es =>
          obtain ⟨he, hes⟩ := List.forall_mem_cons.1 hes
          rw [RecordSpec.take, Option.bind_eq_bind, Option.bind_eq_some_iff] at h
          obtain ⟨v, hv, h⟩ := h
          obtain ⟨rest, hrest, h⟩ := Option.bind_eq_some_iff.1 h
          obtain ⟨htype, rfl⟩ : e.type = t ∧ e.value = v := by simpa [TypedValue.as?] using hv
          exact Option.some.inj h ▸ .cons (htype ▸ he) (ih hes hrest)

/-- **Taking one element for each slot, and of its type, never fails** on elements that fit. -/
theorem Fits.take_eq (h : Fits carrier types slots es) :
    RecordSpec.take (slots.map (·.type)) es = some (es.map (·.value)) := by
  induction h with
  | nil => rfl
  | cons he _ ih =>
      rw [List.map_cons, RecordSpec.take, ih, List.map_cons, TypedValue.as?, if_pos he.1]
      rfl

/-- With an element or a default for every slot, a record is what they assemble to. -/
theorem read_record_of_defaults {spec : RecordSpec} {s u : List Char} {vs : List Value}
    (hvs : Reader.group spec.groupings spec.separator (slotReader special slots) s = (some vs, u))
    (hes : defaults (slots.drop vs.length) = some es) :
    (spec.parser slots).read special s = (spec.assemble (supplied slots vs ++ es), u) := by
  rw [RecordSpec.parser, read_record, Reader.mapOption, hvs]
  simp only [Option.bind_some, complete, hes]
  rfl

/-- What a record reads is assembled from elements and defaults. -/
theorem exists_defaults_of_read {spec : RecordSpec} {s u : List Char} {v : Value}
    (h : (spec.parser slots).read special s = (some v, u)) :
    ∃ vs es, Reader.group spec.groupings spec.separator (slotReader special slots) s =
        (some vs, u) ∧ defaults (slots.drop vs.length) = some es ∧
      spec.assemble (supplied slots vs ++ es) = some v := by
  rw [RecordSpec.parser, read_record, mapOption_eq_some_iff] at h
  obtain ⟨vs, hvs, h⟩ := h
  rw [complete, Option.bind_eq_bind, Option.bind_eq_some_iff] at h
  obtain ⟨es, hes, h⟩ := h
  exact ⟨vs, es, hvs, hes, h⟩

theorem reads_record {spec : RecordSpec} (hspec : recordSpec? types t = some spec)
    (h : ∀ slot ∈ slots, slot.parser.Reads carrier types slot.type)
    (hdefault : ∀ slot ∈ slots, ∀ v ∈ slot.default, HasType carrier types slot.type v) :
    (spec.parser slots).Reads carrier types t := fun special s v u hr => by
  obtain ⟨vs, es, hvs, hes, hassemble⟩ := exists_defaults_of_read hr
  have htyped := (fits_elements h hdefault hvs hes).forall_hasType
  rw [RecordSpec.assemble, Option.bind_eq_bind, Option.bind_eq_some_iff] at hassemble
  obtain ⟨ws, htake, hv⟩ := hassemble
  split at hv
  · exact Option.some.inj hv ▸ .record hspec (hasTypes_of_take htyped htake)
  · contradiction

end Records

end Parser

/-! ## registries -/

/-- The defaults of the slots of a record are values of their types. -/
theorem Declarations.Typed.slots (h : types.Typed carrier) {t : Ty} {spec : RecordSpec}
    (hspec : recordSpec? types t = some spec) {slots : List (Slot Parser)}
    (hslots : slots.map Slot.spec = spec.slots) :
    ∀ slot ∈ slots, ∀ v ∈ slot.default, HasType carrier types slot.type v := by
  intro slot hslot v hv
  have hmem : slot.spec ∈ spec.slots := hslots ▸ List.mem_map_of_mem hslot
  cases t with
  | tuple ts =>
      obtain rfl := Option.some.inj hspec
      obtain ⟨t, -, ht⟩ := List.mem_map.1 hmem
      rw [show slot.default = none from (congrArg SlotSpec.default ht).symm] at hv
      contradiction
  | declared path args =>
      simp only [recordSpec?] at hspec
      split at hspec
      · next ht =>
          obtain rfl := Option.some.inj hspec
          exact h.default ht slot.spec hmem v hv
      · contradiction
  | _ => contradiction

/-- **Parsers that are composed of parsers that read values of their types do so as well.** -/
theorem composition_reads (carrier : Carrier) :
    Composition fun types _ t p => types.Typed carrier → p.Reads carrier types t where
  mono h _ := h
  composed h ht := by
    cases h with
    | string => exact Parser.reads_string
    | char => exact Parser.reads_char
    | bool => exact Parser.reads_bool
    | integer t => exact Parser.reads_integer t
    | float t => exact Parser.reads_float t
    | optional h => exact (h ht).optional
    | sequence kind name h => exact (h ht).sequence kind _ name
    | set i name h => exact (h ht).set i _ name
    | map i name h => exact (h ht).map i name
    | pair hk hv => exact (hk ht).pair (hv ht)
    | record spec slots hspec hslots h =>
        exact Parser.reads_record hspec (fun slot hslot => h slot hslot ht)
          (ht.slots hspec hslots)
    | renamed name zero halias h => exact (h ht).renamed halias

namespace Registry

/-- A registry in which the parsers that were registered read values of the types they were
registered for. -/
inductive WellTyped (carrier : Carrier) : Registry → Prop
  | empty (types : Declarations) : WellTyped carrier (.empty types)
  | addSpecial (characters : List Char) (h : WellTyped carrier r) :
      WellTyped carrier (r.addSpecial characters)
  | resolve (t : Ty) (h : WellTyped carrier r) : WellTyped carrier (r.resolve t).2
  | register (h : WellTyped carrier r) (hp : p.Reads carrier r.types t) :
      WellTyped carrier (r.register t p)

theorem WellTyped.sound {r : Registry} (h : r.WellTyped carrier) :
    r.Sound fun types _ t p => types.Typed carrier → p.Reads carrier types t := by
  induction h with
  | empty types => exact sound_empty types
  | addSpecial characters _ ih => exact ih.addSpecial (composition_reads carrier) characters
  | resolve t _ ih => exact ih.resolve (composition_reads carrier) t
  | register _ hp ih => exact ih.register fun _ => hp

/-- **A parser that a registry gives for a type reads values of the type.** -/
theorem WellTyped.reads_of_resolve {r r' : Registry} {t : Ty} {p : Parser}
    (hr : r.WellTyped carrier) (ht : r.types.Typed carrier) (h : r.resolve t = (.ok p, r')) :
    p.Reads carrier r.types t := by
  have hreads := hr.sound.of_resolve (composition_reads carrier) h
  rw [show r'.types = r.types from congrArg (·.2.types) h ▸ types_resolve r t] at hreads
  exact hreads ht

end Registry

end TypedConsole
