import TypedConsole.Proofs.SettingEffects
import Mathlib

/-!
# TypedConsole.Proofs.SettingOrder

The order of settings, and how they are spread over attributes, do not matter.

The attributes of a struct or field hold a list of items, each of which is a setting or a fault
(`Setting.items`), as a library for the language takes them apart.  What is collected from them is
the first fault, or else all settings (`Setting.collect_eq`).  So attributes with the same items
collect the same up to order, if only the settings among the items change places (`Rearranged`,
`Rearranged.collects`), and everything that is asked of collected settings has the same answer in
any order.
-/

namespace TypedConsole.Derive

open Source

/-! ## looking up settings -/

namespace Settings

variable {s t : Settings}

/-- The least unknown name is the least in any order. -/
theorem leastUnknown?_perm (h : s.Perm t) (allowed : List String) :
    s.leastUnknown? allowed = t.leastUnknown? allowed := by
  have hnames := (h.map Setting.name).filter (!allowed.contains ·)
  have hsorted : ∀ names : List String,
      (names.mergeSort fun a b => decide (a ≤ b)).Pairwise (· ≤ ·) := fun names =>
    List.pairwise_mergeSort' (· ≤ ·) names
  rw [leastUnknown?, leastUnknown?]
  refine congrArg List.head? (List.Perm.eq_of_pairwise' (hsorted _) (hsorted _) ?_)
  exact (List.mergeSort_perm _ _).trans (hnames.trans (List.mergeSort_perm _ _).symm)

theorem allowOnly_perm (h : s.Perm t) (allowed : List String) :
    s.allowOnly allowed = t.allowOnly allowed := by
  rw [allowOnly, allowOnly, leastUnknown?_perm h]

end Settings

/-! ## items -/

variable {ε : Type}

namespace Setting

/-- The items of an attribute: a setting or a fault for each of its arguments. Arguments that the
library refuses are a fault. -/
def itemsOf (lang : Language ε) (a : Attribute) : List (Except (DeriveError ε) Setting) :=
  match lang.arguments a with
  | .error e => [.error (.malformed e)]
  | .ok arguments => arguments.map fun argument => (ofArgument lang argument).mapError .fault

/-- The items of all attributes that hold settings, in order. -/
def items (lang : Language ε) (attributes : List Attribute) :
    List (Except (DeriveError ε) Setting) :=
  (attributes.filter (·.isNamed attributeName)).flatMap (itemsOf lang)

/-- The fault that an item is. -/
def fault? : Except (DeriveError ε) Setting → Option (DeriveError ε)
  | .error e => some e
  | .ok _ => none

/-- The settings among the items. -/
def settingsAmong (items : List (Except (DeriveError ε) Setting)) : Settings :=
  items.filterMap Except.toOption

/-- The faults among the items. -/
def faultsAmong (items : List (Except (DeriveError ε) Setting)) : List (DeriveError ε) :=
  items.filterMap fault?

theorem ofAttribute_eq (lang : Language ε) (a : Attribute) :
    ofAttribute lang a = (itemsOf lang a).mapM id := by
  rw [ofAttribute, itemsOf]
  cases lang.arguments a with
  | error e => rfl
  | ok arguments =>
      let fault : Fault → DeriveError ε := .fault
      have harguments : (arguments.mapM (ofArgument lang)).mapError fault =
          (arguments.map fun argument => (ofArgument lang argument).mapError fault).mapM id := by
        induction arguments with
        | nil => rfl
        | cons argument rest ih =>
            rw [List.mapM_cons, List.map_cons, List.mapM_cons, ← ih]
            cases ofArgument lang argument with
            | error => rfl
            | ok s => cases rest.mapM (ofArgument lang) <;> rfl
      exact harguments

/-- What is collected are the items one after the other. -/
theorem collect_eq_mapM (lang : Language ε) (attributes : List Attribute) :
    collect lang attributes = (items lang attributes).mapM id := by
  rw [collect, items]
  induction attributes.filter (·.isNamed attributeName) with
  | nil => rfl
  | cons a as ih =>
      rw [List.mapM_cons, List.flatMap_cons, List.mapM_append, ← ih, ofAttribute_eq]
      cases (itemsOf lang a).mapM id with
      | error => rfl
      | ok s => cases as.mapM (ofAttribute lang) <;> rfl

/-- **What is collected** is the first fault, or else all settings. -/
theorem collect_eq (lang : Language ε) (attributes : List Attribute) :
    collect lang attributes = match faultsAmong (items lang attributes) with
      | e :: _ => .error e
      | [] => .ok (settingsAmong (items lang attributes)) := by
  rw [collect_eq_mapM]
  induction items lang attributes with
  | nil => rfl
  | cons item rest ih =>
      rw [List.mapM_cons]
      cases item with
      | error e => rfl
      | ok s =>
          simp only [id, ih, faultsAmong, settingsAmong, List.filterMap_cons, fault?,
            Except.toOption]
          cases rest.filterMap fault? <;> rfl

end Setting

/-! ## rearrangements -/

/-- The second attributes hold the same items as the first.  The settings among them may stand in
any order, and be spread in any way over attributes that may stand among any others. -/
structure Rearranged (lang : Language ε) (as bs : List Attribute) : Prop where
  settings : (Setting.settingsAmong (Setting.items lang as)).Perm
    (Setting.settingsAmong (Setting.items lang bs))
  faults : Setting.faultsAmong (Setting.items lang as) =
    Setting.faultsAmong (Setting.items lang bs)

variable {lang : Language ε}

/-- A step that does not care for the order of settings goes on in the same way. -/
theorem Rearranged.collects {α : Type} {as bs : List Attribute} (h : Rearranged lang as bs)
    {f g : Settings → Except (DeriveError ε) α} (hf : ∀ s t : Settings, s.Perm t → f s = g t) :
    (Setting.collect lang as >>= f) = (Setting.collect lang bs >>= g) := by
  rw [Setting.collect_eq, Setting.collect_eq, h.faults]
  cases Setting.faultsAmong (Setting.items lang bs) with
  | nil => exact hf _ _ h.settings
  | cons e es => rfl

/-- The fields differ in the arrangement of their attributes only. -/
structure FieldRearranged (lang : Language ε) (f g : Field) : Prop where
  name : f.name = g.name
  type : f.type = g.type
  attributes : Rearranged lang f.attributes g.attributes

/-- Shapes whose fields differ in the arrangement of their attributes only. -/
inductive ShapeRearranged (lang : Language ε) : Shape → Shape → Prop
  | record (h : List.Forall₂ (FieldRearranged lang) fs gs) :
      ShapeRearranged lang (.record fs) (.record gs)
  | refl (shape : Shape) : ShapeRearranged lang shape shape

/-- The items differ in the arrangement of attributes only, their own and those of their fields. -/
structure ItemRearranged (lang : Language ε) (a b : Item) : Prop where
  name : a.name = b.name
  generic : a.generic = b.generic
  attributes : Rearranged lang a.attributes b.attributes
  shape : ShapeRearranged lang a.shape b.shape

/-! ## plans -/

section

variable {f g : Field} {fs gs : List Field} {a b : Item} {s t : Settings}

theorem ownedType_eq (h : FieldRearranged lang f g) : ownedType lang f = ownedType lang g := by
  rw [ownedType, ownedType, h.name, h.type]

theorem ParameterPlan.ofSettings_perm (h : FieldRearranged lang f g) (hst : s.Perm t) :
    ofSettings lang f s = ofSettings lang g t := by
  simp only [ofSettings, h.name, h.type, Settings.allowOnly_perm hst, Settings.single_perm hst,
    Settings.has_perm hst]

theorem SlotPlan.ofSettings_perm (h : FieldRearranged lang f g) (hst : s.Perm t) :
    ofSettings f s = ofSettings g t := by
  simp only [ofSettings, h.name, h.type, Settings.allowOnly_perm hst, Settings.single_perm hst]

theorem CompoundPlan.validateOf_perm (hst : s.Perm t) : validateOf s = validateOf t := by
  simp only [validateOf, Settings.allowOnly_perm hst, Settings.single_perm hst]

theorem ParameterPlan.ofField_eq (h : FieldRearranged lang f g) :
    ofField lang f = ofField lang g := by
  rw [ofField, ofField, ownedType_eq h]
  refine bind_congr fun _ => h.attributes.collects fun s t hst => ?_
  rw [ofSettings_perm h hst]

theorem SlotPlan.ofField_eq (h : FieldRearranged lang f g) : ofField lang f = ofField lang g := by
  rw [ofField, ofField, ownedType_eq h]
  refine bind_congr fun _ => h.attributes.collects fun s t hst => ?_
  rw [ofSettings_perm h hst]

/-- What is made of field after field is the same. -/
theorem mapM_eq_of_rearranged {α : Type} {make : Field → Except (DeriveError ε) α}
    (hmake : ∀ {f g}, FieldRearranged lang f g → make f = make g)
    (h : List.Forall₂ (FieldRearranged lang) fs gs) : fs.mapM make = gs.mapM make := by
  induction h with
  | nil => rfl
  | cons hf _ ih => rw [List.mapM_cons, List.mapM_cons, hmake hf, ih]

/-- The fields of the items are made into the same. -/
theorem namedFields_bind_eq {α : Type} {make : Field → Except (DeriveError ε) α}
    (hmake : ∀ {f g}, FieldRearranged lang f g → make f = make g) (h : ItemRearranged lang a b)
    (kind : Kind) :
    ((namedFields kind a).mapError DeriveError.fault >>= fun fields => fields.mapM make) =
      ((namedFields kind b).mapError .fault >>= fun fields => fields.mapM make) := by
  have hshape := h.shape
  rw [namedFields, namedFields, h.generic]
  cases b.generic with
  | true => rfl
  | false =>
      generalize a.shape = shape, b.shape = shape' at hshape
      cases hshape with
      | record hfields => exact mapM_eq_of_rearranged hmake hfields
      | refl => rfl

theorem CommandPlan.ofItem_eq (h : ItemRearranged lang a b) : ofItem lang a = ofItem lang b := by
  have hfields := namedFields_bind_eq ParameterPlan.ofField_eq h .command
  rw [ofItem, ofItem]
  refine h.attributes.collects fun s t hst => ?_
  rw [Settings.allowOnly_perm hst, h.name]
  refine bind_congr fun _ => ?_
  simpa only [bind_assoc] using congrArg (· >>= fun ps => pure (CommandPlan.mk b.name ps)) hfields

theorem CompoundPlan.ofItem_eq (h : ItemRearranged lang a b) : ofItem lang a = ofItem lang b := by
  have hfields := namedFields_bind_eq SlotPlan.ofField_eq h .compound
  rw [ofItem, ofItem]
  refine h.attributes.collects fun s t hst => ?_
  rw [validateOf_perm hst, h.name]
  refine bind_congr fun validate => ?_
  simpa only [bind_assoc] using congrArg (· >>= fun slots =>
    if slots.isEmpty then .error (.fault .noFields)
    else pure (CompoundPlan.mk b.name validate slots)) hfields

end

/-- **Settings may stand in any order**, in one attribute or in several, and among any other
attributes: items that differ in that only describe the same command and the same compound, with
the same code, or have the same fault. -/
theorem settings_in_any_order {a b : Item} (h : ItemRearranged lang a b) :
    CommandPlan.ofItem lang a = CommandPlan.ofItem lang b ∧
    (CommandPlan.ofItem lang a).map (CommandPlan.toCode lang) =
      (CommandPlan.ofItem lang b).map (CommandPlan.toCode lang) ∧
    CompoundPlan.ofItem lang a = CompoundPlan.ofItem lang b ∧
    (CompoundPlan.ofItem lang a).map (CompoundPlan.toCode lang) =
      (CompoundPlan.ofItem lang b).map (CompoundPlan.toCode lang) := by
  have hcommand := CommandPlan.ofItem_eq h
  have hcompound := CompoundPlan.ofItem_eq h
  exact ⟨hcommand, by rw [hcommand], hcompound, by rw [hcompound]⟩

/-- A field with three settings in one attribute. -/
def gathered : Field :=
  ⟨[settingAttribute (code "required, short = c, max = 3")], "tags", [.name "Tags"], []⟩

/-- The same field with the settings in two attributes, around another one. -/
def scattered : Field :=
  ⟨[settingAttribute (code "max = 3"), ⟨[.name "doc"], none, []⟩,
    settingAttribute (code "short = c, required")], "tags", [.name "Tags"], []⟩

/-- Three settings in one attribute, and in two. -/
theorem settings_in_any_order_scattered :
    ItemRearranged rust (structOf [] gathered) (structOf [] scattered) ∧
    ∃ plan, CommandPlan.ofItem rust (structOf [] gathered) = .ok plan ∧
      CommandPlan.ofItem rust (structOf [] scattered) = .ok plan := by
  let required : Except (DeriveError Unit) Setting := .ok (.flag "required")
  let short : Except (DeriveError Unit) Setting := .ok (.value "short" ⟨[.name "c"]⟩)
  let max : Except (DeriveError Unit) Setting := .ok (.value "max" ⟨[.literal "3"]⟩)
  have hgathered : Setting.items rust gathered.attributes = [required, short, max] := by cbv
  have hscattered : Setting.items rust scattered.attributes = [max, short, required] := by cbv
  have hfield : FieldRearranged rust gathered scattered := by
    refine ⟨rfl, rfl, ?_, ?_⟩
    · rw [hgathered, hscattered]
      exact (List.reverse_perm _).symm
    · rw [hgathered, hscattered]
      rfl
  have hnone : Rearranged rust [] [] := ⟨.refl _, rfl⟩
  have h : ItemRearranged rust (structOf [] gathered) (structOf [] scattered) :=
    ⟨rfl, rfl, hnone, .record (.cons hfield .nil)⟩
  obtain ⟨plan, hplan⟩ : ∃ plan, CommandPlan.ofItem rust (structOf [] gathered) = .ok plan :=
    exists_of_isSome (by decide +kernel)
  exact ⟨h, plan, hplan, (settings_in_any_order h).1 ▸ hplan⟩

end TypedConsole.Derive
