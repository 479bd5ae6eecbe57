import TypedConsole.Parser
import TypedConsole.Proofs.Groups

/-!
# TypedConsole.Proofs.Claims

What every parser claims, whatever it is composed of: characters from the front only, and at least
one of them whenever it succeeds on a text that starts with something other than a blank.

The parts are proved per reader (`TypedConsole.Proofs.Scalars`, `TypedConsole.Proofs.Groups`); a
parser puts them together by `Parser.induction`.
-/

namespace TypedConsole

namespace Parser

/-! ## induction -/

/-- Induction over parsers: a record has the parsers of its slots. -/
@[elab_as_elim]
theorem induction {motive : Parser → Prop} (string : motive .string) (char : motive .char)
    (bool : motive .bool) (integer : ∀ type, motive (.integer type))
    (float : ∀ type, motive (.float type))
    (optional : ∀ p, motive p → motive (.optional p))
    (sequence : ∀ p g name collect, motive p → motive (.sequence p g name collect))
    (pair : ∀ k v, motive k → motive v → motive (.pair k v))
    (map : ∀ p name bind, motive p → motive (.map p name bind))
    (record : ∀ slots form, (∀ slot ∈ slots, motive slot.parser) → motive (.record slots form))
    (renamed : ∀ p name, motive p → motive (.renamed p name))
    (custom : ∀ p, motive (.custom p)) (p : Parser) : motive p :=
  @Parser.rec motive (fun slots => ∀ slot ∈ slots, motive slot.parser)
    (fun slot => motive slot.parser) string char bool integer float optional sequence pair map
    record renamed custom (fun _ h => absurd h List.not_mem_nil)
    (fun _ _ hslot hslots _ h => by
      rcases List.mem_cons.1 h with rfl | h
      · exact hslot
      · exact hslots _ h)
    (fun _ _ _ h => h) p

/-! ## the reader of a slot -/

theorem readSlots_eq_map (special : SpecialSet) (slots : List (Slot Parser)) :
    readSlots special slots = slots.map fun slot => slot.parser.read special := by
  induction slots with
  | nil => rw [readSlots, List.map_nil]
  | cons slot slots ih => rw [readSlots, ih, List.map_cons]

/-- The reader of the element number `i` of a record: that of the slot, or none at all. -/
def slotReader (special : SpecialSet) (slots : List (Slot Parser)) (i : Nat) : Reader Value :=
  (readSlots special slots).getD i fun s => (none, s)

/-- The reader of an element is that of its slot, or always fails without claiming anything. -/
theorem slotReader_cases (special : SpecialSet) (slots : List (Slot Parser)) (i : Nat) :
    (∃ slot ∈ slots, slotReader special slots i = slot.parser.read special) ∨
      slotReader special slots i = fun s => (none, s) := by
  rw [slotReader, readSlots_eq_map, List.getD_eq_getElem?_getD, List.getElem?_map]
  cases h : slots[i]? with
  | none => exact .inr rfl
  | some slot => exact .inl ⟨slot, List.mem_of_getElem? h, rfl⟩

theorem read_record (special : SpecialSet) (slots : List (Slot Parser)) (form : RecordForm) :
    (record slots form).read special =
      (Reader.group form.groupings form.separator (slotReader special slots)).mapOption
        (complete slots form) := by
  rw [read]
  rfl

/-! ## the reader of a pair -/

/-- A key and a value are read with nothing but blanks around the colon between them. -/
theorem readPair_eq_some_iff {key value : Reader Value} {s u : List Char} {k v : Value} :
    readPair key value s = (some (k, v), u) ↔
      ∃ t r, key s = (some k, t) ∧ Text.skipBlanks t = keySeparator :: r ∧
        value (Text.skipBlanks r) = (some v, u) := by
  simp only [readPair]
  constructor
  · intro h
    split at h
    · simp at h
    · next k' t hk =>
        split at h
        · simp at h
        · next c r hs =>
            split at h
            · next hc =>
                subst hc
                obtain ⟨hv, hu⟩ := Prod.mk.inj h
                obtain ⟨v', hv', hkv⟩ := Option.map_eq_some_iff.1 hv
                obtain ⟨rfl, rfl⟩ := Prod.mk.inj hkv
                exact ⟨t, r, hk, hs, Prod.ext hv' hu⟩
            · simp at h
  · intro h
    obtain ⟨t, r, hk, hs, hv⟩ := h
    simp [hk, hs, hv]

/-! ## from the front only -/

theorem claims_readPair {key value : Reader Value} (hk : key.Claims) (hv : value.Claims) :
    (readPair key value).Claims := by
  intro s
  have hkey := hk s
  simp only [readPair]
  split
  · next t h => rw [h] at hkey; exact hkey
  · next k t h =>
      rw [h] at hkey
      have hskip := (Text.skipBlanks_suffix t).trans hkey
      split
      · exact List.nil_suffix
      · next c u hu =>
          rw [hu] at hskip
          have htail : u <:+ s := (List.suffix_cons c u).trans hskip
          split
          · exact (hv _).trans ((Text.skipBlanks_suffix u).trans htail)
          · exact htail

theorem claims_slotReader {special : SpecialSet} {slots : List (Slot Parser)}
    (h : ∀ slot ∈ slots, (slot.parser.read special).Claims) (i : Nat) :
    (slotReader special slots i).Claims := by
  rcases slotReader_cases special slots i with ⟨slot, hslot, heq⟩ | heq
  · rw [heq]
    exact h slot hslot
  · rw [heq]
    exact fun s => List.suffix_refl s

/-- **A parser only claims characters from the front.** -/
theorem claims_read (special : SpecialSet) (p : Parser) : (p.read special).Claims := by
  induction p using Parser.induction with
  | string => exact (Reader.claims_string special).map _
  | char => exact (Reader.claims_char special).map _
  | bool => exact (Reader.claims_bool special).map _
  | integer type => exact (Reader.claims_integer type special).map _
  | float type => exact (Reader.claims_float type special).map _
  | optional p ih => exact ih.map _
  | sequence p g _ collect ih => exact (Reader.claims_group g fun _ => ih).mapOption _
  | pair k v ihk ihv => exact (claims_readPair ihk ihv).map _
  | map p _ bind ih => exact (Reader.claims_group .braces fun _ => ih).mapOption _
  | record slots form ih =>
      rw [read_record]
      exact (Reader.claims_group _ (claims_slotReader ih)).mapOption _
  | renamed p _ ih => exact ih
  | custom p => exact p.claims

/-! ## at least one character -/

/-- A pair claims its colon. -/
theorem consumes_readPair {key value : Reader Value} (hk : key.Claims) (hv : value.Claims) :
    (readPair key value).Consumes := by
  intro s v t h
  have hkey := hk s
  simp only [readPair] at h
  split at h
  · simp at h
  · next k r hr =>
      rw [hr] at hkey
      have hskip := (Text.skipBlanks_suffix r).trans hkey
      split at h
      · simp at h
      · next c u hu =>
          rw [hu] at hskip
          split at h
          · have ht : (value (Text.skipBlanks u)).2 = t := congrArg Prod.snd h
            have hle := ((hv _).trans (Text.skipBlanks_suffix u)).length_le
            have hlt := hskip.length_le
            rw [ht] at hle
            rw [List.length_cons] at hlt
            omega
          · simp at h

/-- **A parser that succeeds in front of a character other than a blank has claimed one.** -/
theorem progresses_read (special : SpecialSet) (p : Parser) : (p.read special).Progresses := by
  induction p using Parser.induction with
  | string => exact ((Reader.consumes_string special).map _).progresses
  | char => exact ((Reader.consumes_char special).map _).progresses
  | bool => exact ((Reader.consumes_bool special).map _).progresses
  | integer type => exact ((Reader.consumes_integer type special).map _).progresses
  | float type => exact ((Reader.consumes_float type special).map _).progresses
  | optional p ih =>
      intro c s v t hc h
      obtain ⟨w, hw, -⟩ := Reader.map_eq_some_iff.1 h
      exact ih c s w t hc hw
  | sequence p g _ collect _ =>
      exact ((Reader.consumes_group g fun _ => claims_read special p).mapOption _).progresses
  | pair k v _ _ =>
      exact ((consumes_readPair (claims_read special k) (claims_read special v)).map _).progresses
  | map p _ bind _ =>
      exact ((Reader.consumes_group .braces fun _ => claims_read special p).mapOption _).progresses
  | record slots form _ =>
      rw [read_record]
      exact ((Reader.consumes_group _
        (claims_slotReader fun slot _ => claims_read special slot.parser)).mapOption _).progresses
  | renamed p _ ih => exact ih
  | custom p => exact p.progresses

theorem progresses_slotReader (special : SpecialSet) (slots : List (Slot Parser)) (i : Nat) :
    (slotReader special slots i).Progresses := by
  rcases slotReader_cases special slots i with ⟨slot, -, heq⟩ | heq
  · rw [heq]
    exact progresses_read special slot.parser
  · intro c s v t _ h
    rw [heq] at h
    simp at h

end Parser

end TypedConsole
