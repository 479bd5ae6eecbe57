import TypedConsole.Grammar
import TypedConsole.Proofs.DepthCounter

/-!
# TypedConsole.Proofs.Resolution

Which parser a registry makes for a type, and what holds of it because of what it is composed of.

`Composes P` says type by type what one creation composes out of parsers of which `P` holds,
together with the characters that have become special on the way.  A `Composition` is a property
that such a step keeps.  `Registry.Sound` is the invariant: the property holds of every stored
parser.  Each step of resolution keeps it, never takes a special character away, and gives what the
type says (`Step`); `Sound.of_resolve` states that of whole resolutions.

`Makes` is the composition all the way down: it describes the parsers of a registry in which no
parser has been registered (`made_of_resolve`).
-/

namespace TypedConsole

/-! ## parsers made for types -/

/-- The record that a type stands for: a tuple, or a declared record. -/
def recordSpec? (types : Declarations) : Ty → Option RecordSpec
  | .tuple ts => some (.tuple ts)
  | .declared path args =>
    match types path args with
    | some ⟨.record spec, _⟩ => some spec
    | _ => none
  | _ => none

/-- The slot as it was declared. -/
def Slot.spec (slot : Slot α) : SlotSpec := ⟨slot.type, slot.default⟩

/-- `Composes P types special t p`: the parser `p` is composed as the type `t` says of parsers that
`P` relates to their types, and what delimits its literals is special. -/
inductive Composes (P : Ty → Parser → Prop) (types : Declarations) (special : SpecialSet) :
    Ty → Parser → Prop
  | string : Composes P types special .string .string
  | char : Composes P types special .char .char
  | bool : Composes P types special .bool .bool
  | integer (t : IntegerType) : Composes P types special (.integer t) (.integer t)
  | float (t : FloatType) : Composes P types special (.float t) (.float t)
  | optional (h : P t p) : Composes P types special (.optional t) (.optional p)
  | sequence (kind : SequenceKind) (name : String) (h : P t p)
      (hs : ∀ c ∈ Groupings.brackets.characters ++ [memberSeparator], c ∈ special.toList) :
      Composes P types special (.sequence kind t) (.sequence p .brackets name kind.collect)
  | set (i : Indexing) (name : String) (h : P t p)
      (hs : ∀ c ∈ Groupings.braces.characters ++ [memberSeparator], c ∈ special.toList) :
      Composes P types special (.set i t) (.sequence p .braces name collectSet)
  | map (i : Indexing) (name : String) (h : P (.pair k v) p)
      (hs : ∀ c ∈ Groupings.braces.characters ++ [memberSeparator], c ∈ special.toList) :
      Composes P types special (.map i k v) (.map p name bindSorted)
  | pair (hk : P k p) (hv : P v q) (hs : keySeparator ∈ special.toList) :
      Composes P types special (.pair k v) (.pair p q)
  | record (spec : RecordSpec) (slots : List (Slot Parser))
      (hspec : recordSpec? types t = some spec) (hslots : slots.map Slot.spec = spec.slots)
      (h : ∀ slot ∈ slots, P slot.type slot.parser)
      (hs : ∀ c ∈ spec.groupings.characters ++ [spec.separator], c ∈ special.toList) :
      Composes P types special t (spec.parser slots)
  | renamed (name : String) (zero : List Value → Value)
      (ht : types path args = some ⟨.alias name t, zero⟩) (h : P t p) :
      Composes P types special (.declared path args) (.renamed p name)

/-- A property of parsers that stays when more characters become special, and that a composed
parser has because its parts have it. -/
structure Composition (P : Declarations → SpecialSet → Ty → Parser → Prop) : Prop where
  mono : ∀ {types special special' t p}, P types special t p →
    special.toList ⊆ special'.toList → P types special' t p
  composed : ∀ {types special t p}, Composes (P types special) types special t p →
    P types special t p

/-- `Makes types special t p`: the parser `p` is composed as the type `t` says, and what delimits
its literals is special. -/
inductive Makes (types : Declarations) (special : SpecialSet) : Ty → Parser → Prop
  | string : Makes types special .string .string
  | char : Makes types special .char .char
  | bool : Makes types special .bool .bool
  | integer (t : IntegerType) : Makes types special (.integer t) (.integer t)
  | float (t : FloatType) : Makes types special (.float t) (.float t)
  | optional (h : Makes types special t p) : Makes types special (.optional t) (.optional p)
  | sequence (kind : SequenceKind) (name : String) (h : Makes types special t p)
      (hs : ∀ c ∈ Groupings.brackets.characters ++ [memberSeparator], c ∈ special.toList) :
      Makes types special (.sequence kind t) (.sequence p .brackets name kind.collect)
  | set (i : Indexing) (name : String) (h : Makes types special t p)
      (hs : ∀ c ∈ Groupings.braces.characters ++ [memberSeparator], c ∈ special.toList) :
      Makes types special (.set i t) (.sequence p .braces name collectSet)
  | map (i : Indexing) (name : String) (h : Makes types special (.pair k v) p)
      (hs : ∀ c ∈ Groupings.braces.characters ++ [memberSeparator], c ∈ special.toList) :
      Makes types special (.map i k v) (.map p name bindSorted)
  | pair (hk : Makes types special k p) (hv : Makes types special v q)
      (hs : keySeparator ∈ special.toList) : Makes types special (.pair k v) (.pair p q)
  | record (spec : RecordSpec) (slots : List (Slot Parser))
      (hspec : recordSpec? types t = some spec) (hslots : slots.map Slot.spec = spec.slots)
      (h : ∀ slot ∈ slots, Makes types special slot.type slot.parser)
      (hs : ∀ c ∈ spec.groupings.characters ++ [spec.separator], c ∈ special.toList) :
      Makes types special t (spec.parser slots)
  | renamed (name : String) (zero : List Value → Value)
      (ht : types path args = some ⟨.alias name t, zero⟩) (h : Makes types special t p) :
      Makes types special (.declared path args) (.renamed p name)

/-- What is made for a type stays that when more characters become special. -/
theorem Makes.mono {types : Declarations} {special special' : SpecialSet} {t : Ty} {p : Parser}
    (h : Makes types special t p) (hsub : special.toList ⊆ special'.toList) :
    Makes types special' t p := by
  induction h with
  | string => exact .string
  | char => exact .char
  | bool => exact .bool
  | integer t => exact .integer t
  | float t => exact .float t
  | optional _ ih => exact .optional ih
  | sequence kind name _ hs ih => exact .sequence kind name ih fun c hc => hsub (hs c hc)
  | set i name _ hs ih => exact .set i name ih fun c hc => hsub (hs c hc)
  | map i name _ hs ih => exact .map i name ih fun c hc => hsub (hs c hc)
  | pair _ _ hs ihk ihv => exact .pair ihk ihv (hsub hs)
  | record spec slots hspec hslots _ hs ih =>
      exact .record spec slots hspec hslots ih fun c hc => hsub (hs c hc)
  | renamed name zero ht _ ih => exact .renamed name zero ht ih

theorem composition_makes : Composition Makes where
  mono := Makes.mono
  composed h := by
    cases h with
    | string => exact .string
    | char => exact .char
    | bool => exact .bool
    | integer t => exact .integer t
    | float t => exact .float t
    | optional h => exact .optional h
    | sequence kind name h hs => exact .sequence kind name h hs
    | set i name h hs => exact .set i name h hs
    | map i name h hs => exact .map i name h hs
    | pair hk hv hs => exact .pair hk hv hs
    | record spec slots hspec hslots h hs => exact .record spec slots hspec hslots h hs
    | renamed name zero ht h => exact .renamed name zero ht h

/-- What is made for a type is composed of what is made for its parts. -/
theorem Makes.composes {types : Declarations} {special : SpecialSet} {t : Ty} {p : Parser}
    (h : Makes types special t p) : Composes (Makes types special) types special t p := by
  cases h with
  | string => exact .string
  | char => exact .char
  | bool => exact .bool
  | integer t => exact .integer t
  | float t => exact .float t
  | optional h => exact .optional h
  | sequence kind name h hs => exact .sequence kind name h hs
  | set i name h hs => exact .set i name h hs
  | map i name h hs => exact .map i name h hs
  | pair hk hv hs => exact .pair hk hv hs
  | record spec slots hspec hslots h hs => exact .record spec slots hspec hslots h hs
  | renamed name zero ht h => exact .renamed name zero ht h

/-! ## what is composed for a type -/

section Inversion

variable {P : Ty → Parser → Prop} {types : Declarations} {special : SpecialSet} {t k v : Ty}
  {p q : Parser}

/-- The parser of a type without parts. -/
def scalar? : Ty → Option Parser
  | .string => some .string
  | .char => some .char
  | .bool => some .bool
  | .integer t => some (.integer t)
  | .float t => some (.float t)
  | _ => none

theorem Composes.eq_scalar (h : Composes P types special t p) (ht : scalar? t = some q) :
    p = q := by
  cases h with
  | string | char | bool | integer | float => exact Option.some.inj ht
  | record _ _ hspec => cases t <;> contradiction
  | _ => contradiction

theorem Composes.eq_optional (h : Composes P types special (.optional t) p) :
    ∃ q, p = .optional q ∧ P t q := by
  cases h with
  | optional h => exact ⟨_, rfl, h⟩
  | record _ _ hspec => contradiction

theorem Composes.eq_sequence {kind : SequenceKind}
    (h : Composes P types special (.sequence kind t) p) :
    ∃ q name, p = .sequence q .brackets name kind.collect ∧ P t q ∧
      ∀ c ∈ Groupings.brackets.characters ++ [memberSeparator], c ∈ special.toList := by
  cases h with
  | sequence _ name h hs => exact ⟨_, name, rfl, h, hs⟩
  | record _ _ hspec => contradiction

theorem Composes.eq_set {i : Indexing} (h : Composes P types special (.set i t) p) :
    ∃ q name, p = .sequence q .braces name collectSet ∧ P t q ∧
      ∀ c ∈ Groupings.braces.characters ++ [memberSeparator], c ∈ special.toList := by
  cases h with
  | set _ name h hs => exact ⟨_, name, rfl, h, hs⟩
  | record _ _ hspec => contradiction

theorem Composes.eq_map {i : Indexing} (h : Composes P types special (.map i k v) p) :
    ∃ q name, p = .map q name bindSorted ∧ P (.pair k v) q ∧
      ∀ c ∈ Groupings.braces.characters ++ [memberSeparator], c ∈ special.toList := by
  cases h with
  | map _ name h hs => exact ⟨_, name, rfl, h, hs⟩
  | record _ _ hspec => contradiction

theorem Composes.eq_pair (h : Composes P types special (.pair k v) p) :
    ∃ q q', p = .pair q q' ∧ P k q ∧ P v q' ∧ keySeparator ∈ special.toList := by
  cases h with
  | pair hk hv hs => exact ⟨_, _, rfl, hk, hv, hs⟩
  | record _ _ hspec => contradiction

theorem Composes.eq_record {spec : RecordSpec} (h : Composes P types special t p)
    (hspec : recordSpec? types t = some spec) :
    ∃ slots : List (Slot Parser), p = spec.parser slots ∧ slots.map Slot.spec = spec.slots ∧
      (∀ slot ∈ slots, P slot.type slot.parser) ∧
      ∀ c ∈ spec.groupings.characters ++ [spec.separator], c ∈ special.toList := by
  cases h with
  | record spec' slots hspec' hslots h hs =>
      obtain rfl := Option.some.inj (hspec'.symm.trans hspec)
      exact ⟨slots, rfl, hslots, h, hs⟩
  | renamed name zero ht => simp [recordSpec?, ht] at hspec
  | _ => contradiction

theorem Composes.eq_renamed {path name : String} {args : List Ty} {zero : List Value → Value}
    (ht : types path args = some ⟨.alias name t, zero⟩)
    (h : Composes P types special (.declared path args) p) :
    ∃ q, p = .renamed q name ∧ P t q := by
  cases h with
  | record _ _ hspec => simp [recordSpec?, ht] at hspec
  | renamed name' zero' ht' h =>
      obtain ⟨hbody, -⟩ := Declaration.mk.inj (Option.some.inj (ht'.symm.trans ht))
      obtain ⟨rfl, rfl⟩ := TypeBody.alias.inj hbody
      exact ⟨_, rfl, h⟩

end Inversion

/-! ## registries -/

variable {P : Declarations → SpecialSet → Ty → Parser → Prop}

namespace Registry

/-- A registry in which no parser has been registered: parsers only come in by resolution. -/
inductive Uncustomized : Registry → Prop
  | empty (types : Declarations) : Uncustomized (.empty types)
  | addSpecial (characters : List Char) (h : Uncustomized r) :
      Uncustomized (r.addSpecial characters)
  | resolve (t : Ty) (h : Uncustomized r) : Uncustomized (r.resolve t).2

/-- `P` holds of every stored parser and its type. -/
def Sound (P : Declarations → SpecialSet → Ty → Parser → Prop) (r : Registry) : Prop :=
  ∀ t p, r.lookup t = some p → P r.types r.special t p

/-- A later state of a registry: the same declarations and at least the same special characters. -/
structure Grows (r r' : Registry) : Prop where
  types : r'.types = r.types
  special : r.special.toList ⊆ r'.special.toList

theorem Grows.refl (r : Registry) : Grows r r := ⟨rfl, List.Subset.refl _⟩

theorem Grows.trans {r₁ r₂ r₃ : Registry} (h : Grows r₁ r₂) (h' : Grows r₂ r₃) : Grows r₁ r₃ :=
  ⟨h'.types.trans h.types, List.Subset.trans h.special h'.special⟩

/-- What holds of a parser still does in a later state. -/
theorem Grows.keeps (hP : Composition P) {r r' : Registry} (h : Grows r r') {t : Ty} {p : Parser}
    (hp : P r.types r.special t p) : P r'.types r'.special t p := by
  rw [h.types]
  exact hP.mono hp h.special

theorem sound_empty (types : Declarations) : Sound P (.empty types) := fun t p h => by
  simp [empty, lookup] at h

theorem grows_addSpecial (r : Registry) (characters : List Char) :
    Grows r (r.addSpecial characters) :=
  ⟨rfl, fun _ hc => SpecialSet.mem_add.2 (.inl hc)⟩

theorem Sound.addSpecial (hP : Composition P) {r : Registry} (h : r.Sound P)
    (characters : List Char) : (r.addSpecial characters).Sound P := fun t p hp =>
  (r.grows_addSpecial characters).keeps hP (h t p hp)

/-- Storing a parser with the property is sound. -/
theorem Sound.register {r : Registry} (h : r.Sound P) {t : Ty} {p : Parser}
    (hp : P r.types r.special t p) : (r.register t p).Sound P := by
  intro u q hq
  by_cases hu : u = t
  · subst hu
    rw [lookup_register_self] at hq
    exact Option.some.inj hq ▸ hp
  · rw [lookup_register_of_ne r p hu] at hq
    exact h u q hq

end Registry

/-! ## steps of resolution -/

namespace Resolution

/-- `Step P m r Q`: run on `r`, the step `m` leaves a registry that is sound for `P` and has grown
out of `r`, and whatever it gives satisfies `Q` there. -/
structure Step (P : Declarations → SpecialSet → Ty → Parser → Prop) (m : Resolution α)
    (r : Registry) (Q : α → Registry → Prop) : Prop where
  sound : (m.on r).2.Sound P
  grows : r.Grows (m.on r).2
  result : ∀ a, (m.on r).1 = .ok a → Q a (m.on r).2

variable {α β : Type} {r : Registry} {Q : α → Registry → Prop} {R : β → Registry → Prop}

theorem step_pure {a : α} (hr : r.Sound P) (h : Q a r) : Step P (pure a) r Q :=
  ⟨hr, .refl r, fun _ ha => Except.ok.inj ha ▸ h⟩

theorem step_throw (e : ResolveError) (hr : r.Sound P) : Step P (throw e) r Q :=
  ⟨hr, .refl r, fun _ h => by cases h⟩

/-- The second of two steps starts where the first one ends. -/
theorem Step.bind {m : Resolution α} {f : α → Resolution β} (hm : Step P m r Q)
    (hf : ∀ a r', r'.Sound P → r.Grows r' → Q a r' → Step P (f a) r' R) :
    Step P (m >>= f) r R := by
  obtain ⟨hsound, hgrows, hresult⟩ := hm
  have hon := on_bind m f r
  cases hrun : m.on r with
  | mk outcome r' =>
      rw [hrun] at hsound hgrows hresult hon
      cases outcome with
      | error e =>
          refine ⟨?_, ?_, ?_⟩ <;> rw [hon]
          · exact hsound
          · exact hgrows
          · exact fun _ h => by cases h
      | ok a =>
          obtain ⟨hsound', hgrows', hresult'⟩ := hf a r' hsound hgrows (hresult a rfl)
          refine ⟨?_, ?_, ?_⟩ <;> rw [hon]
          · exact hsound'
          · exact hgrows.trans hgrows'
          · exact hresult'

/-- Looking at the registry leaves it as it is. -/
theorem step_get (hr : r.Sound P) : Step P get r fun r₀ r' => r₀ = r' ∧ r' = r :=
  ⟨hr, .refl r, fun _ h => ⟨(Except.ok.inj h).symm, rfl⟩⟩

/-! ## composed parsers -/

section Compose

variable {resolve : Ty → Resolution Parser} (hP : Composition P)

/-- What is asked of the resolution of the types that a type is composed of. -/
def Resolves (P : Declarations → SpecialSet → Ty → Parser → Prop)
    (resolve : Ty → Resolution Parser) : Prop :=
  ∀ t r, r.Sound P → Step P (resolve t) r fun p r' => P r'.types r'.special t p

/-- The parser is composed for the type out of parsers with the property. -/
def Composed (P : Declarations → SpecialSet → Ty → Parser → Prop) (t : Ty) (p : Parser)
    (r : Registry) : Prop :=
  Composes (P r.types r.special) r.types r.special t p

include hP

/-- The characters that delimit a group become special. -/
theorem step_markSpecial (hr : r.Sound P) (characters : List Char) :
    Step P (markSpecial characters) r fun _ r' => ∀ c ∈ characters, c ∈ r'.special.toList :=
  ⟨hr.addSpecial hP characters, r.grows_addSpecial characters,
    fun _ _ _ hc => SpecialSet.mem_add.2 (.inr hc)⟩

/-- A sequence or set, from the parser of its elements. -/
theorem step_sequenceOf (hresolve : Resolves P resolve) (hr : r.Sound P) {g : Groupings}
    {label : String → String} {collect : List Value → Option Value} {element t : Ty}
    (hcomposes : ∀ (r' : Registry) (p : Parser) (name : String),
      P r'.types r'.special element p →
      (∀ c ∈ g.characters ++ [memberSeparator], c ∈ r'.special.toList) →
      Composed P t (.sequence p g name collect) r') :
    Step P (sequenceOf resolve g label collect element) r (Composed P t) := by
  refine (step_markSpecial hP hr _).bind fun _ r₁ hr₁ _ hspecial => ?_
  refine (hresolve element r₁ hr₁).bind fun p r₂ hr₂ hgrows hp => ?_
  exact step_pure hr₂ (hcomposes r₂ p _ hp fun c hc => hgrows.special (hspecial c hc))

theorem step_mapOf (hresolve : Resolves P resolve) (hr : r.Sound P) (i : Indexing)
    (key value : Ty) :
    Step P (mapOf resolve i.mapLabel bindSorted key value) r (Composed P (.map i key value)) := by
  refine (step_markSpecial hP hr _).bind fun _ r₁ hr₁ _ hspecial => ?_
  refine (hresolve key r₁ hr₁).bind fun k r₂ hr₂ h₂ _ => ?_
  refine (hresolve value r₂ hr₂).bind fun v r₃ hr₃ h₃ _ => ?_
  refine (hresolve _ r₃ hr₃).bind fun p r₄ hr₄ h₄ hp => ?_
  refine step_pure hr₄ (.map i _ hp fun c hc => ?_)
  exact h₄.special (h₃.special (h₂.special (hspecial c hc)))

theorem step_pair (hresolve : Resolves P resolve) (hr : r.Sound P) (key value : Ty) :
    Step P (create resolve (.pair key value)) r (Composed P (.pair key value)) := by
  refine (step_markSpecial hP hr _).bind fun _ r₁ hr₁ _ hspecial => ?_
  refine (hresolve key r₁ hr₁).bind fun k r₂ hr₂ h₂ hk => ?_
  refine (hresolve value r₂ hr₂).bind fun v r₃ hr₃ h₃ hv => ?_
  refine step_pure hr₃ (.pair (h₃.keeps hP hk) hv ?_)
  exact h₃.special (h₂.special (hspecial _ (List.mem_singleton.2 rfl)))

/-- The slots of a record, with the parsers of their types. -/
theorem step_slots (hresolve : Resolves P resolve) (hr : r.Sound P) (specs : List SlotSpec) :
    Step P (specs.mapM fun s => do
        let p ← resolve s.type
        pure (⟨s.type, p, s.default⟩ : Slot Parser)) r fun slots r' =>
      slots.map Slot.spec = specs ∧
        ∀ slot ∈ slots, P r'.types r'.special slot.type slot.parser := by
  induction specs generalizing r with
  | nil => exact step_pure hr ⟨rfl, fun _ h => absurd h List.not_mem_nil⟩
  | cons s specs ih =>
      rw [List.mapM_cons]
      refine Step.bind (Q := fun slot r' => slot.spec = s ∧
        P r'.types r'.special slot.type slot.parser) ?_ fun slot r₁ hr₁ _ hslot => ?_
      · exact (hresolve s.type r hr).bind fun p r₁ hr₁ _ hp => step_pure hr₁ ⟨rfl, hp⟩
      · refine (ih hr₁).bind fun slots r₂ hr₂ h₂ hslots => ?_
        refine step_pure hr₂ ⟨?_, fun slot' hslot' => ?_⟩
        · rw [List.map_cons, hslot.1, hslots.1]
        · rcases List.mem_cons.1 hslot' with rfl | hslot'
          · exact h₂.keeps hP hslot.2
          · exact hslots.2 slot' hslot'

theorem step_recordOf (hresolve : Resolves P resolve) (hr : r.Sound P) {spec : RecordSpec}
    {t : Ty} (hspec : recordSpec? r.types t = some spec) :
    Step P (recordOf resolve spec) r (Composed P t) := by
  refine (step_markSpecial hP hr _).bind fun _ r₁ hr₁ h₁ hspecial => ?_
  refine (step_slots hP hresolve hr₁ spec.slots).bind fun slots r₂ hr₂ h₂ hslots => ?_
  refine step_pure hr₂ (.record spec slots ?_ hslots.1 hslots.2 fun c hc => ?_)
  · rw [h₂.types, h₁.types, hspec]
  · exact h₂.special (hspecial c hc)

/-- A new parser for a type is composed as the type says. -/
theorem step_create (hresolve : Resolves P resolve) (hr : r.Sound P) (t : Ty) :
    Step P (create resolve t) r (Composed P t) := by
  cases t with
  | string => exact step_pure hr .string
  | char => exact step_pure hr .char
  | bool => exact step_pure hr .bool
  | integer t => exact step_pure hr (.integer t)
  | float t => exact step_pure hr (.float t)
  | optional t =>
      exact (hresolve t r hr).bind fun p r' hr' _ hp => step_pure hr' (.optional hp)
  | sequence kind t =>
      exact step_sequenceOf hP hresolve hr fun _ p name hp hs => .sequence kind name hp hs
  | set i t =>
      rw [create]
      exact step_sequenceOf hP hresolve hr fun _ p name hp hs => .set i name hp hs
  | map i k v => exact step_mapOf hP hresolve hr i k v
  | pair k v => exact step_pair hP hresolve hr k v
  | tuple ts => exact step_recordOf hP hresolve hr rfl
  | declared path args =>
      refine (step_get hr).bind fun r₁ r' hr' _ h => ?_
      obtain rfl := h.1
      rcases ht : r₁.types path args with _ | ⟨_ | ⟨name, t⟩ | spec, zero⟩
      · exact step_throw _ hr'
      · exact step_throw _ hr'
      · refine (hresolve t _ hr').bind fun p r'' hr'' hgrows hp => step_pure hr'' ?_
        exact .renamed name zero (by rw [hgrows.types, ht]) hp
      · refine step_recordOf hP hresolve hr' ?_
        simp only [recordSpec?, ht]

end Compose

/-! ## resolution -/

theorem step_storeIfAbsent (hr : r.Sound P) {t : Ty} {p : Parser}
    (hp : P r.types r.special t p) :
    Step P (storeIfAbsent t p) r fun p r' => P r'.types r'.special t p := by
  refine (step_get hr).bind fun _ r' hr' _ ⟨h, h'⟩ => ?_
  subst h h'
  split
  · next q hq => exact step_pure hr' (hr' t q hq)
  · refine Step.bind (Q := fun _ r' => P r'.types r'.special t p)
      ⟨hr'.register hp, ⟨rfl, List.Subset.refl _⟩, fun _ _ => hp⟩ fun _ r'' hr'' _ hp' => ?_
    exact step_pure hr'' hp'

/-- **Resolution within any depth gives parsers with every property that composition keeps.** -/
theorem resolves_resolveWithin (hP : Composition P) (depth : Nat) :
    Resolves P (resolveWithin depth) := by
  induction depth with
  | zero =>
      intro t r hr
      refine (step_get hr).bind fun _ r' hr' _ ⟨h, _⟩ => ?_
      subst h
      split
      · next p hp => exact step_pure hr' (hr' t p hp)
      · exact step_throw _ hr'
  | succ depth ih =>
      intro t r hr
      refine (step_get hr).bind fun _ r' hr' _ ⟨h, _⟩ => ?_
      subst h
      split
      · next p hp => exact step_pure hr' (hr' t p hp)
      · exact (step_create hP ih hr' t).bind fun p r'' hr'' _ hp =>
          step_storeIfAbsent hr'' (hP.composed hp)

theorem resolves_resolve (hP : Composition P) : Resolves P resolve := by
  intro t
  rw [resolve_eq_resolveWithin]
  exact resolves_resolveWithin hP resolveDepth t

end Resolution

namespace Registry

/-- Resolving a type keeps a registry sound. -/
theorem Sound.resolve (hP : Composition P) {r : Registry} (h : r.Sound P) (t : Ty) :
    (r.resolve t).2.Sound P :=
  (Resolution.resolves_resolve hP t r h).sound

/-- Resolving a type leaves the declarations as they are. -/
theorem types_resolve (r : Registry) (t : Ty) : (r.resolve t).2.types = r.types :=
  (Resolution.resolves_resolve (P := fun _ _ _ _ => True)
    ⟨fun _ _ => trivial, fun _ => trivial⟩ t r fun _ _ _ => trivial).grows.types

/-- What resolution gives has the property. -/
theorem Sound.of_resolve (hP : Composition P) {r r' : Registry} (h : r.Sound P) {t : Ty}
    {p : Parser} (hp : r.resolve t = (.ok p, r')) : P r'.types r'.special t p := by
  have hresult := (Resolution.resolves_resolve hP t r h).result p
  rw [show (Resolution.resolve t).on r = (.ok p, r') from hp] at hresult
  exact hresult rfl

theorem Uncustomized.sound {r : Registry} (h : r.Uncustomized) : r.Sound Makes := by
  induction h with
  | empty types => exact sound_empty types
  | addSpecial characters _ ih => exact ih.addSpecial composition_makes characters
  | resolve t _ ih => exact ih.resolve composition_makes t

/-- **The parser of a type is the one that is made for it**, in a registry without registered
parsers. -/
theorem Uncustomized.made_of_resolve {r r' : Registry} {t : Ty} {p : Parser}
    (hr : r.Uncustomized) (h : r.resolve t = (.ok p, r')) :
    Makes r'.types r'.special t p :=
  hr.sound.of_resolve composition_makes h

/-- Building a grammar resolves types and registers nothing, also where parameters bring parsers
of their own. -/
theorem Uncustomized.build {r : Registry} (hr : r.Uncustomized) (ps : List Parameter) :
    (Grammar.build ps r).2.Uncustomized := by
  have hfrom : ∀ index used, (Grammar.buildFrom index used ps r).2.Uncustomized := by
    induction ps generalizing r with
    | nil => exact fun _ _ => hr
    | cons p ps ih =>
        intro index used
        simp only [Grammar.buildFrom]
        split
        · exact hr
        · next used' _ =>
            have hparser : (Grammar.parserFor p r).2.Uncustomized := by
              unfold Grammar.parserFor
              split
              · exact hr
              · exact .resolve p.type hr
            split
            · next h => rwa [h] at hparser
            · next h =>
                rw [h] at hparser
                exact ih hparser (index + 1) used'
  exact hfrom 0 {}

end Registry

end TypedConsole
