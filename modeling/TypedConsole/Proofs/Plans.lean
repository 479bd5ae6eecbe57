import TypedConsole.Derive.Plan
import TypedConsole.Proofs.Building
import Mathlib.Data.List.Forall2

/-!
# TypedConsole.Proofs.Plans

Which settings a plan is made from.  Names are looked up in two tables, that of the names alone and
that of the names with a value, and each name is looked up in one of them: a setting is in the form
that is looked up, or it has no effect on the plan.

`ParameterPlan.ofSettings_eq_ok_iff` says when settings make the plan of a parameter, and
`ParameterPlan.ofSettings_formed` that settings in the other form make no difference to it.
-/

namespace TypedConsole.Derive

open Source
open Grammar (bind_eq_ok_iff)

/-! ## successful steps -/

theorem mapError_eq_ok_iff {ε ε' α : Type} {f : ε → ε'} {x : Except ε α} {a : α} :
    x.mapError f = .ok a ↔ x = .ok a := by
  cases x <;> simp [Except.mapError]

/-- All of a list succeeds exactly if every member does. -/
theorem mapM_eq_ok_iff {ε α β : Type} {f : α → Except ε β} {as : List α} {bs : List β} :
    as.mapM f = .ok bs ↔ List.Forall₂ (fun a b => f a = .ok b) as bs := by
  induction as generalizing bs with
  | nil =>
      rw [List.mapM_nil, List.forall₂_nil_left_iff]
      exact ⟨fun h => (Except.ok.inj h).symm, fun h => congrArg _ h.symm⟩
  | cons a as ih =>
      simp only [List.mapM_cons, bind_eq_ok_iff, List.forall₂_cons_left_iff, ih]
      constructor
      · intro h
        obtain ⟨b, hb, bs', hbs', h⟩ := h
        exact ⟨b, bs', hb, hbs', (Except.ok.inj h).symm⟩
      · intro h
        obtain ⟨b, bs', hb, hbs', rfl⟩ := h
        exact ⟨b, hb, bs', hbs', rfl⟩

/-! ## looking up settings -/

namespace Settings

variable {settings : Settings} {name : String} {v : Snippet} {x : Option Snippet}

/-- Nothing is refused exactly if all names are allowed. -/
theorem allowOnly_eq_ok_iff {allowed : List String} {u : Unit} :
    settings.allowOnly allowed = .ok u ↔ ∀ s ∈ settings, s.name ∈ allowed := by
  have hnone : settings.leastUnknown? allowed = none ↔ ∀ s ∈ settings, s.name ∈ allowed := by
    rw [leastUnknown?, List.head?_eq_none_iff, ← List.length_eq_zero_iff, List.length_mergeSort,
      List.length_eq_zero_iff, List.filter_eq_nil_iff]
    simp
  rw [← hnone, allowOnly]
  cases settings.leastUnknown? allowed <;> simp

theorem has_iff : settings.has name = true ↔ .flag name ∈ settings := by
  rw [has, List.contains_iff_mem, List.mem_filterMap]
  constructor
  · intro h
    obtain ⟨s, hs, hname⟩ := h
    cases s with
    | flag n =>
        obtain rfl := Option.some.inj hname
        exact hs
    | value => contradiction
  · intro h
    exact ⟨_, h, rfl⟩

theorem mem_values_iff : v ∈ settings.values name ↔ .value name v ∈ settings := by
  rw [values, List.mem_filterMap]
  constructor
  · intro h
    obtain ⟨s, hs, hv⟩ := h
    cases s with
    | flag => contradiction
    | value n w =>
        simp only [Setting.valueOf?, Option.ite_none_right_eq_some, Option.some.injEq] at hv
        obtain ⟨rfl, rfl⟩ := hv
        exact hs
  · intro h
    exact ⟨_, h, by simp [Setting.valueOf?]⟩

/-- A name has at most one value exactly if its values are none or one. -/
theorem single_eq_ok_iff : settings.single name = .ok x ↔ settings.values name = x.toList := by
  rw [single]
  rcases settings.values name with _ | ⟨w, _ | ⟨w', ws⟩⟩ <;> cases x <;> simp

/-- The value that is found is the one that is set. -/
theorem eq_some_of_mem (h : settings.single name = .ok x) (hv : .value name v ∈ settings) :
    x = some v := by
  have hmem := mem_values_iff.2 hv
  rw [single_eq_ok_iff.1 h] at hmem
  exact Option.mem_toList.1 hmem

end Settings

/-! ## forms -/

/-- The setting stands alone under one of the first names, or has a value under one of the
second. -/
def Setting.isFormed (alone valued : List String) : Setting → Bool
  | flag n => alone.contains n
  | value n _ => valued.contains n

/-- The settings in one of the forms. -/
def Settings.formed (settings : Settings) (alone valued : List String) : Settings :=
  settings.filter (Setting.isFormed alone valued)

namespace Settings

variable {settings : Settings} {alone valued : List String} {name : String}

theorem mem_formed {s : Setting} :
    s ∈ settings.formed alone valued ↔ s ∈ settings ∧ s.isFormed alone valued = true :=
  List.mem_filter

/-- A name that is looked up alone is found as before. -/
theorem has_formed (h : name ∈ alone) :
    (settings.formed alone valued).has name = settings.has name := by
  rw [Bool.eq_iff_iff, has_iff, has_iff, mem_formed]
  exact and_iff_left (List.contains_iff_mem.2 h)

/-- A name that is looked up with a value is found as before. -/
theorem single_formed (h : name ∈ valued) :
    (settings.formed alone valued).single name = settings.single name := by
  have hvalues : (settings.formed alone valued).values name = settings.values name := by
    rw [values, formed, List.filterMap_filter]
    refine List.filterMap_congr fun s _ => ?_
    cases s with
    | flag => simp [Setting.valueOf?]
    | value n v => by_cases hn : n = name <;> simp [Setting.valueOf?, Setting.isFormed, hn, h]
  rw [single, single, hvalues]

theorem allowOnly_formed {allowed : List String} (h : settings.allowOnly allowed = .ok ()) :
    (settings.formed alone valued).allowOnly allowed = .ok () :=
  allowOnly_eq_ok_iff.2 fun s hs => allowOnly_eq_ok_iff.1 h s (mem_formed.1 hs).1

end Settings

/-! ## parameters -/

/-- The settings of a parameter that are looked up alone. -/
def parameterFlags : List String := ["optional", "required"]

/-- The settings of a parameter whose values are looked up. -/
def parameterValues : List String :=
  ["short", "long", "meta", "default", "default_raw", "flag", "min", "max", "description",
   "parser"]

/-- The properties of which a parameter may have one. -/
def requirementProperties (settings : Settings) (default defaultText : Option Snippet) :
    List (Bool × String) :=
  [(settings.has "optional", shownFlag "optional"), (settings.has "required", shownFlag "required"),
   (default.isSome, shownValue "default"), (defaultText.isSome, shownValue "default_raw")]

theorem excluded_eq_ok_iff {field property : String} {properties : List (Bool × String)}
    {u : Unit} :
    excluded field property properties = .ok u ↔ ∀ q ∈ properties, q.1 = false := by
  rw [excluded]
  cases hfind : properties.find? (·.1) with
  | none => simpa using hfind
  | some q =>
      refine iff_of_false (by simp) fun h => ?_
      have hq := List.find?_some hfind
      rw [h q (List.mem_of_find?_eq_some hfind)] at hq
      contradiction

/-- A parameter has at most one of the properties. -/
theorem length_le_of_exclusive {field : String} {properties : List (Bool × String)} {u : Unit}
    (h : exclusive field properties = .ok u) : (properties.filter (·.1)).length ≤ 1 := by
  rw [exclusive] at h
  split at h
  · contradiction
  · next hne =>
      match hf : properties.filter (·.1) with
      | [] | [_] => simp [hf]
      | a :: b :: l => exact absurd hf (hne a.1 a.2 b.1 b.2 l)

/-- A parameter that is optional, required or has a text to fall back to has nothing else of the
kind. -/
theorem alone_of_exclusive {field : String} {settings : Settings}
    {default defaultText : Option Snippet} {u : Unit}
    (h : exclusive field (requirementProperties settings default defaultText) = .ok u) :
    (settings.has "optional" = true →
      settings.has "required" = false ∧ default = none ∧ defaultText = none) ∧
    (settings.has "required" = true →
      settings.has "optional" = false ∧ default = none ∧ defaultText = none) ∧
    (defaultText.isSome = true → default = none) := by
  have hlength := length_le_of_exclusive h
  rw [requirementProperties] at hlength
  generalize settings.has "optional" = optional at hlength ⊢
  generalize settings.has "required" = required at hlength ⊢
  cases optional <;> cases required <;> cases default <;> cases defaultText <;>
    simp at hlength ⊢

variable {ε : Type} {lang : Language ε}

namespace ParameterPlan

variable {field : Field} {settings : Settings} {p : ParameterPlan}

/-- **The plan of a parameter.**  Settings make a plan exactly if their names are known, none has
two values, and they fit each other; the plan has what was found. -/
theorem ofSettings_eq_ok_iff :
    ofSettings lang field settings = .ok p ↔
      settings.allowOnly parameterSettings = .ok () ∧
      ∃ short long valueName default defaultText,
        settings.single "short" = .ok short ∧ settings.single "long" = .ok long ∧
        settings.single "meta" = .ok valueName ∧ settings.single "default" = .ok default ∧
        settings.single "default_raw" = .ok defaultText ∧ settings.single "flag" = .ok p.flag ∧
        exclusive field.name (requirementProperties settings default defaultText) = .ok () ∧
        roleOf lang field.name short long valueName p.flag (settings.has "required") =
          .ok (p.role, p.name, p.valueName) ∧
        settings.single "min" = .ok p.min ∧ settings.single "max" = .ok p.max ∧
        settings.single "description" = .ok p.description ∧
        settings.single "parser" = .ok p.parser ∧
        p.field = field.name ∧ p.type = ⟨field.type⟩ ∧
        p.requirement = requirementOf p.role default defaultText (settings.has "optional") := by
  simp only [ofSettings, bind_eq_ok_iff, requirementProperties]
  constructor
  · intro h
    obtain ⟨_, hallowed, short, hshort, long, hlong, valueName, hmeta, default, hdefault,
      defaultText, htext, flag, hflag, _, hexclusive, ⟨role, name, shown⟩, hrole, h⟩ := h
    obtain ⟨min, hmin, max, hmax, description, hdescription, parser, hparser, h⟩ := h
    obtain rfl := Except.ok.inj h
    exact ⟨hallowed, short, long, valueName, default, defaultText, hshort, hlong, hmeta, hdefault,
      htext, hflag, hexclusive, hrole, hmin, hmax, hdescription, hparser, rfl, rfl, rfl⟩
  · intro h
    obtain ⟨hallowed, short, long, valueName, default, defaultText, hshort, hlong, hmeta, hdefault,
      htext, hflag, hexclusive, hrole, hmin, hmax, hdescription, hparser, hfield, htype,
      hrequirement⟩ := h
    refine ⟨(), hallowed, short, hshort, long, hlong, valueName, hmeta, default, hdefault,
      defaultText, htext, p.flag, hflag, (), hexclusive, _, hrole, p.min, hmin, p.max, hmax,
      p.description, hdescription, p.parser, hparser, ?_⟩
    simp only [← hfield, ← htype, ← hrequirement]
    rfl

/-- **Settings in another form make no difference**, not even to what is refused. -/
theorem ofSettings_formed (lang : Language ε) (field : Field)
    (h : settings.allowOnly parameterSettings = .ok ()) :
    ofSettings lang field (settings.formed parameterFlags parameterValues) =
      ofSettings lang field settings := by
  have hflag : ∀ name ∈ parameterFlags,
      (settings.formed parameterFlags parameterValues).has name = settings.has name :=
    fun _ => Settings.has_formed
  have hvalue : ∀ name ∈ parameterValues,
      (settings.formed parameterFlags parameterValues).single name = settings.single name :=
    fun _ => Settings.single_formed
  simp only [ofSettings, Settings.allowOnly_formed h, h, hflag "optional" (by decide),
    hflag "required" (by decide), hvalue "short" (by decide), hvalue "long" (by decide),
    hvalue "meta" (by decide), hvalue "default" (by decide), hvalue "default_raw" (by decide),
    hvalue "flag" (by decide), hvalue "min" (by decide), hvalue "max" (by decide),
    hvalue "description" (by decide), hvalue "parser" (by decide)]

/-- The role of a parameter, by whether it has a short name. -/
inductive RoleFound (lang : Language ε) (field : Field) (settings : Settings) (p : ParameterPlan) :
    Prop
  | positional (hshort : settings.single "short" = .ok none)
      (hlong : settings.single "long" = .ok none) (hrequired : settings.has "required" = false)
      (hmeta : settings.single "meta" = .ok x)
      (hname : stringOr lang "meta" x field.name = .ok p.name)
      (hrole : p.role = .positional)
  | switch (hshort : settings.single "short" = .ok (some short))
      (hlong : settings.single "long" = .ok x)
      (hname : stringOr lang "long" x (dashed field.name) = .ok p.name)
      (hmeta : settings.single "meta" = .ok p.valueName)
      (hrole : p.role =
        if settings.has "required" then .requiredSwitch short else .switch short)

theorem roleFound (h : ofSettings lang field settings = .ok p) :
    RoleFound lang field settings p := by
  obtain ⟨-, short, long, valueName, -, -, hshort, hlong, hmeta, -, -, -, -, hrole, -⟩ :=
    ofSettings_eq_ok_iff.1 h
  cases short with
  | none =>
      simp only [roleOf, bind_eq_ok_iff, excluded_eq_ok_iff] at hrole
      obtain ⟨_, hexcluded, name, hname, h⟩ := hrole
      obtain ⟨hrole, hrest⟩ := Prod.mk.inj (Except.ok.inj h)
      obtain ⟨rfl, -⟩ := Prod.mk.inj hrest
      have hnone : long = none := by
        simpa using hexcluded (long.isSome, shownValue "long") (by simp)
      have hrequired : settings.has "required" = false :=
        hexcluded (settings.has "required", shownFlag "required") (by simp)
      exact .positional hshort (hnone ▸ hlong) hrequired hmeta hname hrole.symm
  | some short =>
      simp only [roleOf, bind_eq_ok_iff] at hrole
      obtain ⟨name, hname, h⟩ := hrole
      obtain ⟨hrole, hrest⟩ := Prod.mk.inj (Except.ok.inj h)
      obtain ⟨rfl, rfl⟩ := Prod.mk.inj hrest
      exact .switch hshort hlong hname hmeta hrole.symm

/-- What a parameter receives when it is not given, by at most one setting. -/
theorem requirement_found (h : ofSettings lang field settings = .ok p) :
    ∃ default defaultText, settings.single "default" = .ok default ∧
      settings.single "default_raw" = .ok defaultText ∧
      exclusive field.name (requirementProperties settings default defaultText) = .ok () ∧
      p.requirement = requirementOf p.role default defaultText (settings.has "optional") := by
  obtain ⟨-, _, _, _, default, defaultText, -, -, -, hdefault, htext, -, hexclusive, -, -, -, -, -,
    -, -, hrequirement⟩ := ofSettings_eq_ok_iff.1 h
  exact ⟨default, defaultText, hdefault, htext, hexclusive, hrequirement⟩

/-- A modifier other than the placeholder has the value of the setting of its name. -/
theorem modifier_found (h : ofSettings lang field settings = .ok p) {name : String}
    {x : Option Snippet}
    (hx : (name, x) ∈ [("flag", p.flag), ("min", p.min), ("max", p.max),
      ("description", p.description), ("parser", p.parser)]) :
    settings.single name = .ok x := by
  obtain ⟨-, _, _, _, _, _, -, -, -, -, -, hflag, -, -, hmin, hmax, hdescription, hparser, -⟩ :=
    ofSettings_eq_ok_iff.1 h
  simp only [List.mem_cons, List.not_mem_nil, or_false, Prod.mk.injEq] at hx
  rcases hx with ⟨rfl, rfl⟩ | ⟨rfl, rfl⟩ | ⟨rfl, rfl⟩ | ⟨rfl, rfl⟩ | ⟨rfl, rfl⟩
  · exact hflag
  · exact hmin
  · exact hmax
  · exact hdescription
  · exact hparser

/-- The plan of a parameter is that of its settings, if nothing is borrowed. -/
theorem ofField_eq_ok_iff :
    ofField lang field = .ok p ↔ ownedType lang field = .ok () ∧
      ∃ settings, Setting.collect lang field.attributes = .ok settings ∧
        ofSettings lang field settings = .ok p := by
  simp only [ofField, bind_eq_ok_iff, mapError_eq_ok_iff]
  exact ⟨fun ⟨_, howned, h⟩ => ⟨howned, h⟩, fun ⟨howned, h⟩ => ⟨(), howned, h⟩⟩

end ParameterPlan

/-- The plan of a command: the item has no settings of its own, and every field is a parameter. -/
theorem CommandPlan.ofItem_eq_ok_iff {item : Item} {c : CommandPlan} :
    ofItem lang item = .ok c ↔
      Setting.collect lang item.attributes = .ok [] ∧
      ∃ fields, namedFields .command item = .ok fields ∧ c.name = item.name ∧
        List.Forall₂ (fun field p => ParameterPlan.ofField lang field = .ok p) fields
          c.parameters := by
  simp only [ofItem, bind_eq_ok_iff, mapError_eq_ok_iff, Settings.allowOnly_eq_ok_iff,
    mapM_eq_ok_iff]
  constructor
  · intro h
    obtain ⟨settings, hsettings, _, hallowed, fields, hfields, parameters, hparameters, h⟩ := h
    obtain rfl := Except.ok.inj h
    obtain rfl : settings = [] := List.eq_nil_iff_forall_not_mem.2 fun s hs => by
      simpa using hallowed s hs
    exact ⟨hsettings, fields, hfields, rfl, hparameters⟩
  · intro h
    obtain ⟨hsettings, fields, hfields, hname, hparameters⟩ := h
    exact ⟨[], hsettings, (), by simp, fields, hfields, c.parameters, hparameters, by
      rw [← hname]
      rfl⟩

/-! ## compounds -/

/-- The plan of a slot: its only setting is the default. -/
theorem SlotPlan.ofSettings_eq_ok_iff {field : Field} {settings : Settings} {s : SlotPlan} :
    ofSettings field settings = .ok s ↔
      settings.allowOnly ["default"] = .ok () ∧ settings.single "default" = .ok s.default ∧
        s.field = field.name ∧ s.type = ⟨field.type⟩ := by
  simp only [ofSettings, bind_eq_ok_iff]
  constructor
  · intro h
    obtain ⟨_, hallowed, default, hdefault, h⟩ := h
    obtain rfl := Except.ok.inj h
    exact ⟨hallowed, hdefault, rfl, rfl⟩
  · intro h
    obtain ⟨hallowed, hdefault, hfield, htype⟩ := h
    refine ⟨(), hallowed, s.default, hdefault, ?_⟩
    rw [← hfield, ← htype]
    rfl

theorem SlotPlan.ofSettings_formed (field : Field) {settings : Settings}
    (h : settings.allowOnly ["default"] = .ok ()) :
    ofSettings field (settings.formed [] ["default"]) = ofSettings field settings := by
  simp only [ofSettings, Settings.allowOnly_formed h, h,
    Settings.single_formed (List.mem_singleton.2 rfl)]

theorem SlotPlan.ofField_eq_ok_iff {field : Field} {s : SlotPlan} :
    ofField lang field = .ok s ↔ ownedType lang field = .ok () ∧
      ∃ settings, Setting.collect lang field.attributes = .ok settings ∧
        ofSettings field settings = .ok s := by
  simp only [ofField, bind_eq_ok_iff, mapError_eq_ok_iff]
  exact ⟨fun ⟨_, howned, h⟩ => ⟨howned, h⟩, fun ⟨howned, h⟩ => ⟨(), howned, h⟩⟩

/-- The condition on the values of a compound is its only setting. -/
theorem CompoundPlan.validateOf_eq_ok_iff {settings : Settings} {x : Option Snippet} :
    validateOf settings = .ok x ↔
      settings.allowOnly ["validate"] = .ok () ∧ settings.single "validate" = .ok x := by
  simp only [validateOf, bind_eq_ok_iff]
  exact ⟨fun ⟨_, hallowed, h⟩ => ⟨hallowed, h⟩, fun ⟨hallowed, h⟩ => ⟨(), hallowed, h⟩⟩

theorem CompoundPlan.validateOf_formed {settings : Settings}
    (h : settings.allowOnly ["validate"] = .ok ()) :
    validateOf (settings.formed [] ["validate"]) = validateOf settings := by
  simp only [validateOf, Settings.allowOnly_formed h, h,
    Settings.single_formed (List.mem_singleton.2 rfl)]

/-- The plan of a compound: it may have a condition, and every field is a slot. -/
theorem CompoundPlan.ofItem_eq_ok_iff {item : Item} {c : CompoundPlan} :
    ofItem lang item = .ok c ↔
      ∃ settings fields, Setting.collect lang item.attributes = .ok settings ∧
        validateOf settings = .ok c.validate ∧ namedFields .compound item = .ok fields ∧
        c.name = item.name ∧ c.slots ≠ [] ∧
        List.Forall₂ (fun field s => SlotPlan.ofField lang field = .ok s) fields c.slots := by
  simp only [ofItem, bind_eq_ok_iff, mapError_eq_ok_iff, mapM_eq_ok_iff]
  constructor
  · intro h
    obtain ⟨settings, hsettings, validate, hvalidate, fields, hfields, slots, hslots, h⟩ := h
    split at h
    · contradiction
    · next hne =>
        obtain rfl := Except.ok.inj h
        exact ⟨settings, fields, hsettings, hvalidate, hfields, rfl, by simpa using hne, hslots⟩
  · intro h
    obtain ⟨settings, fields, hsettings, hvalidate, hfields, hname, hne, hslots⟩ := h
    refine ⟨settings, hsettings, c.validate, hvalidate, fields, hfields, c.slots, hslots, ?_⟩
    rw [if_neg (by simpa using hne), ← hname]
    rfl

end TypedConsole.Derive
