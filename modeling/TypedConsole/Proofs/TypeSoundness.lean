import TypedConsole.Catalogue.Commands
import TypedConsole.Proofs.Registration

/-!
# TypedConsole.Proofs.TypeSoundness

Whatever was erased to a value is recovered at its type.

Three places take values by type: the fields of a command from the arguments, the handler of a
console through them, and a record from the elements of its literal.  `type_soundness` says of all
of them that they never miss.
-/

namespace TypedConsole

variable {carrier : Carrier}

/-! ## records -/

section Records

open TypedConsole.Parser

variable {types : Declarations} {spec : RecordSpec} {slots : List (Slot Parser)}

/-- The slots of a record, as they were declared, have the types that were declared. -/
theorem map_type_of_spec (hslots : slots.map Slot.spec = spec.slots) :
    slots.map (·.type) = spec.slots.map (·.type) := by
  rw [← hslots, List.map_map]
  rfl

/-- **A record that takes its slots only rejects what its condition rejects**: once there is an
element or a default for every slot, all of them are taken. -/
theorem exists_take (hslots : slots.map Slot.spec = spec.slots)
    (htaken : spec.taken = spec.slots.map (·.type))
    (hreads : ∀ slot ∈ slots, slot.parser.Reads carrier types slot.type)
    (hdefault : ∀ slot ∈ slots, ∀ v ∈ slot.default, HasType carrier types slot.type v)
    {special : SpecialSet} {s u : List Char} {vs : List Value} {es : List TypedValue}
    (hvs : Reader.group spec.groupings spec.separator (slotReader special slots) s = (some vs, u))
    (hes : defaults (slots.drop vs.length) = some es) :
    ∃ ws, RecordSpec.take spec.taken (supplied slots vs ++ es) = some ws ∧
      List.Forall₂ (HasType carrier types) spec.taken ws ∧
      (spec.parser slots).read special s =
        (if spec.accepts ws then some (.list ws) else none, u) := by
  have hfits := fits_elements hreads hdefault hvs hes
  have htake := hfits.take_eq
  rw [map_type_of_spec hslots, ← htaken] at htake
  refine ⟨_, htake, hasTypes_of_take hfits.forall_hasType htake, ?_⟩
  rw [read_record_of_defaults hvs hes, RecordSpec.assemble, htake]
  rfl

/-- The parser that is made for a record has a slot for each that was declared, and reads values of
its type there. -/
theorem exists_slots_of_create {r r' : Registry} (htypes : r.types.Typed carrier)
    (hr : r.WellTyped carrier) {t : Ty} (hspec : recordSpec? r.types t = some spec) {depth : Nat}
    {p : Parser} (h : (Resolution.create (Resolution.resolveWithin depth) t).on r = (.ok p, r')) :
    ∃ slots, p = spec.parser slots ∧ slots.map Slot.spec = spec.slots ∧
      ∀ slot ∈ slots, slot.parser.Reads carrier r.types slot.type := by
  have hP := composition_reads carrier
  have hstep := Resolution.step_create hP (Resolution.resolves_resolveWithin hP depth) hr.sound t
  have hgrows := hstep.grows.types
  have hresult := hstep.result p
  rw [h] at hgrows hresult
  obtain ⟨slots, hp, hslots, hreads, -⟩ := Composes.eq_record (hresult rfl) (hgrows ▸ hspec)
  refine ⟨slots, hp, hslots, fun slot hslot => ?_⟩
  have hslotReads := hreads slot hslot
  rw [show r'.types = r.types from hgrows] at hslotReads
  exact hslotReads htypes

end Records

/-! ## the catalogue -/

namespace Catalogue

/-- The type of the catalogue that has no literal has one value. -/
def onlyUnit : Carrier := fun _ _ v => v = .unit

/-- A declared type of the catalogue is declared under a name. -/
theorem exists_declaration {free : FreeRecord} {path : String} {args : List Ty} {d : Declaration}
    (h : types free path args = some d) : ∃ name, declaration free name args = some d := by
  obtain ⟨name, -, hd⟩ := Option.bind_eq_some_iff.1 h
  exact ⟨name, hd⟩

/-- The values of a declared record are lists of values of the types that it takes. -/
theorem hasType_of_record {types : Declarations} {path : String} {args : List Ty}
    {spec : RecordSpec} {zero : List Value → Value} {vs : List Value}
    (h : types path args = some ⟨.record spec, zero⟩)
    (hvs : List.Forall₂ (HasType onlyUnit types) spec.taken vs) :
    HasType onlyUnit types (.declared path args) (.list vs) :=
  .record (by simp only [recordSpec?, h]) hvs

theorem holds_one (f : FloatType) : f.Holds f.one := by
  cases f <;> exact ⟨by decide, by decide, by decide, fun _ => by decide⟩

/-- **The initial values and the defaults of the catalogue are values of their types.** -/
theorem typed_types : (types {}).Typed onlyUnit where
  zero h hvs := by
    have hfloat (f : FloatType) : HasType onlyUnit (types {}) (.float f) (.float f.zero) :=
      .float f.holds_zero
    have hinteger (t : IntegerType) : HasType onlyUnit (types {}) (.integer t) (.integer 0) :=
      .integer (holds_zero t)
    obtain ⟨name, hd⟩ := exists_declaration h
    unfold declaration at hd
    -- one case for each name, in the order of the declarations
    split at hd <;> cases hd
    · exact hasType_of_record h (.cons (hfloat _) (.cons (hfloat _) (.cons (hfloat _) .nil)))
    · exact hasType_of_record h
        (.cons (hfloat _) (.cons (hfloat _) (.cons (hfloat _) (.cons (hfloat _) .nil))))
    · exact hasType_of_record h (.cons (hinteger _) (.cons (hinteger _) .nil))
    · exact hasType_of_record h (.cons (hinteger _) (.cons (hinteger _) (.cons (.string "") .nil)))
    · exact hasType_of_record h (.cons (hinteger _) (.cons (hinteger _) .nil))
    · exact hasType_of_record h hvs
    · exact hasType_of_record h .nil
    · exact .foreign h rfl
    · exact .alias h (.sequence (fun _ hm => by cases hm) fun _ hv => absurd hv List.not_mem_nil)
  default h := by
    obtain ⟨name, hd⟩ := exists_declaration h
    unfold declaration at hd
    split at hd <;> cases hd
    · simpa [vector, namedRecord] using .float (FloatType.holds_zero _)
    · simpa [colour, namedRecord] using .float (holds_one _)
    · simpa [range, namedRecord] using .integer (by decide)
    · simpa [gap, namedRecord] using ⟨.integer (by decide), .string "end"⟩
    · simpa [span] using ⟨.integer (by decide), .integer (by decide)⟩
    · simp [twin]
    · simp [FreeRecord.spec]

/-- The catalogue without a free record, and a registry for it. -/
def registry : Registry := .empty (types {})

/-- The grammar of the greeting. -/
def greetGrammar : Grammar :=
  ⟨[Grammar.describe 0 ((Parameter.positional .string "hello").withDescription "Who to greet.")
      .string (.string ""),
    Grammar.describe 1 (Parameter.positional (.integer .i32) "5").optional (.integer .i32)
      (.integer 0),
    Grammar.describe 2 ((Parameter.switch .bool 'v').withLong "verbose") .bool (.bool false)]⟩

theorem grammar_greet : (greet.grammar registry).1 = .ok greetGrammar := rfl

theorem typed_greet : ∀ f ∈ greet.fields, f.parameter.Typed onlyUnit registry.types :=
  List.forall_mem_cons.2 ⟨.withDescription _ (.positional _ _),
    List.forall_mem_cons.2 ⟨.optional (.positional _ _),
      List.forall_mem_singleton.2 (.withLong _ (.optional (.requiredSwitch _ _)))⟩⟩

/-- The arguments of a greeting without options. -/
def greetArguments : Arguments :=
  ⟨[some ⟨.string, .string "a"⟩, some ⟨.integer .i32, .integer 0⟩, some ⟨.bool, .bool false⟩]⟩

theorem parse_greet : greetGrammar.parse .builtIn ['a'] = .ok greetArguments := by
  have hg : greetGrammar.Checked := Grammar.checked_of_build
    (List.forall_mem_map.2 fun f hf => (typed_greet f hf).declared) grammar_greet
  obtain ⟨p, hitem, hrest, hsupplied⟩ : ∃ p, greetGrammar.item .builtIn
      { greetGrammar.begin ['a'] with cursor := (greetGrammar.begin ['a']).cursor.skipBlanks } =
        .ok p ∧ Text.skipBlanks p.cursor.rest = [] ∧
      p.supplied = [some ⟨.string, .string "a"⟩, none, none] := ⟨_, rfl, rfl, rfl⟩
  have hitems : greetGrammar.items .builtIn (greetGrammar.begin ['a']) =
      .ok { p with cursor := p.cursor.leaving [] } := by
    rw [hg.items_of_item (c := 'a') (r := []) rfl, hitem]
    exact Grammar.items_of_blank hrest
  rw [Grammar.parse, hitems]
  simp only [bind, Except.bind, hsupplied]
  rfl

/-- The parser of a range. -/
def rangeSlots : List (Slot Parser) :=
  [⟨.integer .i32, .integer .i32, none⟩, ⟨.integer .i32, .integer .i32, some greatestI32⟩]

theorem create_range :
    ((Resolution.create (Resolution.resolveWithin 1) (type "Range")).on registry).1 =
      .ok (range.parser rangeSlots) := rfl

theorem group_range : Reader.group range.groupings range.separator
    (Parser.slotReader .builtIn rangeSlots) ['[', '1', ']'] = (some [.integer 1], []) :=
  Reader.group_eq_some_iff.2 ⟨'[', ['1', ']'], ⟨'[', ']'⟩, rfl, rfl,
    .adjacent (c := '1') (r := [']']) (t := [']']) (d := ']') (u := []) rfl (by decide) (by decide)
      rfl (by decide) rfl (by decide) (.close rfl)⟩

/-- A handler that answers nothing. -/
def silent (_ : List Value) (state : Unit) : String × Unit := ("", state)

/-- A console with the greeting. -/
def greeter : Console Unit :=
  ((Console.ofRegistry registry).registerCommand "Greet" "" greet silent).2

theorem registerCommand_greet :
    ((Console.ofRegistry registry).registerCommand "Greet" "" greet silent).1 = .ok () := rfl

theorem registers_greet :
    ((Console.ofRegistry registry : Console Unit).after []).Registers greet "greet" none
      greeter := by
  have hname : Console.canonical "Greet" = "greet" := by decide
  rw [← hname]
  exact .command (Prod.ext registerCommand_greet rfl)

theorem addresses_greet : Console.Addresses ['G', 'R', 'E', 'E', 'T', ' ', 'a'] "greet" none :=
  .command ⟨['G', 'R', 'E', 'E', 'T'], rfl, by decide⟩

end Catalogue

/-! ## type soundness -/

/-- **Erased values are recovered at their types.**  In a registry whose parsers read values of the
types they were registered for,

1. what a grammar parses is one value for each parameter, of the type of the parameter;
2. a command takes all of its fields from what its own grammar parsed;
3. a line that calls a registered command or verb does not end with an argument that could not be
   taken, whatever else was registered or removed before and since;
4. the parser made for a record that takes its slots does so whenever each slot has an element or
   a default, and then only the condition of the record can reject the literal.

Parsers from outside keep the contract of `CustomParser`. -/
theorem type_soundness {r : Registry} (htypes : r.types.Typed carrier)
    (hr : r.WellTyped carrier) :
    (∀ ps g special text args, (∀ p ∈ ps, p.Typed carrier r.types) →
      (Grammar.build ps r).1 = .ok g → g.parse special text = .ok args →
      args.Matches ps fun p v => HasType carrier r.types p.type v) ∧
    (∀ (command : Command) g special text args,
      (∀ f ∈ command.fields, f.parameter.Typed carrier r.types) →
      (command.grammar r).1 = .ok g → g.parse special text = .ok args →
      ∃ vs, command.fromArguments args = .ok vs ∧
        List.Forall₂ (fun f v => HasType carrier r.types f.parameter.type v) command.fields vs) ∧
    (∀ (σ : Type) (before later : List (Change σ)) (command : Command) name verb c,
      (∀ f ∈ command.fields, f.parameter.Declared) →
      ((Console.ofRegistry r).after before).Registers command name verb c →
      (∀ change ∈ later, ¬change.Removes name verb) →
      ∀ line, Console.Addresses line name verb → ∀ state e,
        ((c.after later).execute line state).1 ≠ .error (.arguments e)) ∧
    (∀ t spec, recordSpec? r.types t = some spec → spec.taken = spec.slots.map (·.type) →
      ∀ depth p r', (Resolution.create (Resolution.resolveWithin depth) t).on r = (.ok p, r') →
      ∃ slots, p = spec.parser slots ∧ slots.map Slot.spec = spec.slots ∧
        ∀ special s u vs es,
          Reader.group spec.groupings spec.separator (Parser.slotReader special slots) s =
            (some vs, u) →
          Parser.defaults (slots.drop vs.length) = some es →
          ∃ ws, RecordSpec.take spec.taken (Parser.supplied slots vs ++ es) = some ws ∧
            List.Forall₂ (HasType carrier r.types) spec.taken ws ∧
            p.read special s = (if spec.accepts ws then some (.list ws) else none, u)) := by
  refine ⟨?parsed, ?taken, ?executed, ?assembled⟩
  case parsed =>
    intro ps g special text args hps hb hparse
    exact Grammar.typed_of_parse htypes hr hps hb hparse
  case taken =>
    intro command g special text args hfields hb hparse
    have hps : ∀ p ∈ command.fields.map (·.parameter), p.Typed carrier r.types :=
      List.forall_mem_map.2 hfields
    exact Command.fromArguments_eq_ok (Grammar.typed_of_parse htypes hr hps hb hparse)
  case executed =>
    intro σ before later command name verb c hfields hregisters hkept line hline state e
    exact hregisters.ne_arguments hfields hkept hline state e
  case assembled =>
    intro t spec hspec htaken depth p r' hcreate
    obtain ⟨slots, rfl, hslots, hreads⟩ := exists_slots_of_create htypes hr hspec hcreate
    exact ⟨slots, rfl, hslots, fun special s u vs es hvs hes =>
      exists_take hslots htaken hreads (htypes.slots hspec hslots) hvs hes⟩


namespace Catalogue

/-- The greeting is parsed, taken and executed, and a range takes its default. -/
theorem type_soundness_greet :
    (types {}).Typed onlyUnit ∧ registry.WellTyped onlyUnit ∧
    (∀ f ∈ greet.fields, f.parameter.Typed onlyUnit (types {})) ∧
    (greet.grammar registry).1 = .ok greetGrammar ∧
    greetGrammar.parse .builtIn ['a'] = .ok greetArguments ∧
    greetArguments.Matches (greet.fields.map (·.parameter))
      (fun p v => HasType onlyUnit (types {}) p.type v) ∧
    (∃ vs, greet.fromArguments greetArguments = .ok vs ∧
      List.Forall₂ (fun f v => HasType onlyUnit (types {}) f.parameter.type v) greet.fields vs) ∧
    ((greeter.after [.registerVerbs "layer" "Layers."]).execute
      ['G', 'R', 'E', 'E', 'T', ' ', 'a'] ()).1 ≠ .error (.arguments (.missing 0)) ∧
    ∃ ws, RecordSpec.take range.taken
        (Parser.supplied rangeSlots [.integer 1] ++ [⟨.integer .i32, greatestI32⟩]) = some ws ∧
      List.Forall₂ (HasType onlyUnit (types {})) range.taken ws ∧
      (range.parser rangeSlots).read .builtIn ['[', '1', ']'] =
        (if range.accepts ws then some (.list ws) else none, []) := by
  have hr : registry.WellTyped onlyUnit := .empty (types {})
  obtain ⟨hparsed, htaken, hexecuted, hassembled⟩ := type_soundness (r := registry) typed_types hr
  refine ⟨typed_types, hr, typed_greet, grammar_greet, parse_greet, ?_, ?_, ?_, ?_⟩
  · exact hparsed _ _ _ _ _ (List.forall_mem_map.2 typed_greet) grammar_greet parse_greet
  · exact htaken greet _ _ _ _ typed_greet grammar_greet parse_greet
  · exact hexecuted Unit [] [.registerVerbs "layer" "Layers."] greet "greet" none greeter
      (fun f hf => (typed_greet f hf).declared) registers_greet
      (List.forall_mem_singleton.2 fun h => h) _ addresses_greet () _
  · obtain ⟨slots, hp, -, htake⟩ := hassembled (type "Range") range rfl rfl 1 _ _
      (Prod.ext create_range rfl)
    obtain rfl := (Parser.record.inj hp).1
    exact htake _ _ _ _ _ group_range rfl

end Catalogue

end TypedConsole
