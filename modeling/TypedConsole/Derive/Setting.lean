import TypedConsole.Derive.Fault
import TypedConsole.Derive.Language

/-!
# TypedConsole.Derive.Setting

Settings: what the attributes of a struct or field say about it. A setting is a name alone or a
name with a value. Settings may be spread over several attributes. What they say does not depend
on their order: a name alone is there or not, and a name has no value, one, or too many.
-/

namespace TypedConsole.Derive

open Source

/-- A piece of source text. -/
structure Snippet where
  tokens : Tokens
deriving Repr

/-- A name alone, or a name with a value. -/
inductive Setting
  | flag (name : String)
  | value (name : String) (value : Snippet)
deriving Repr

/-- All settings of a struct or field. -/
abbrev Settings := List Setting

namespace Setting

/-- The name that is set. -/
def name : Setting → String
  | flag n | value n _ => n

/-- The name if it stands alone. -/
def flag? : Setting → Option String
  | flag n => some n
  | value _ _ => none

/-- The value, if it is one of `name`. -/
def valueOf? (name : String) : Setting → Option Snippet
  | value n v => if n = name then some v else none
  | flag _ => none

/-- The attribute that holds settings. -/
def attributeName : String := "devcon"

section
variable {ε : Type} (lang : Language ε)

/-- The setting that an argument is. -/
def ofArgument : Argument → Except Fault Setting
  | .assignment target v => .ok (value (lang.display target) ⟨v⟩)
  | .name text => .ok (flag text)
  | .other expression => .error (.unparseable (lang.display expression))

/-- The settings of one attribute. -/
def ofAttribute (a : Attribute) : Except (DeriveError ε) (List Setting) := do
  let arguments ← (lang.arguments a).mapError .malformed
  (arguments.mapM (ofArgument lang)).mapError .fault

/-- The settings of all attributes that hold some. -/
def collect (attributes : List Attribute) : Except (DeriveError ε) Settings :=
  (·.flatten) <$> (attributes.filter (·.isNamed attributeName)).mapM (ofAttribute lang)

end

end Setting

namespace Settings

/-- The name stands alone among the settings. -/
def has (settings : Settings) (name : String) : Bool :=
  (settings.filterMap Setting.flag?).contains name

/-- The values of a name. -/
def values (settings : Settings) (name : String) : List Snippet :=
  settings.filterMap (Setting.valueOf? name)

/-- The value of a name, if it has one. Two are too many. -/
def single (settings : Settings) (name : String) : Except Fault (Option Snippet) :=
  match settings.values name with
  | [] => .ok none
  | [v] => .ok (some v)
  | _ => .error (.repeated name)

/-- The least name that is not among the allowed ones. -/
def leastUnknown? (settings : Settings) (allowed : List String) : Option String :=
  ((settings.map Setting.name).filter (!allowed.contains ·)).mergeSort.head?

/-- Refuses names that are not among the allowed ones. -/
def allowOnly (settings : Settings) (allowed : List String) : Except Fault Unit :=
  match settings.leastUnknown? allowed with
  | some name => .error (.unknownSetting name)
  | none => .ok ()

/-! ## order -/

theorem values_perm {s t : Settings} (h : s.Perm t) (name : String) :
    (s.values name).Perm (t.values name) := h.filterMap _

/-- One value, none or too many: the order of the settings does not matter. -/
theorem single_perm {s t : Settings} (h : s.Perm t) (name : String) :
    s.single name = t.single name := by
  have hv := values_perm h name
  simp only [single]
  match hs : s.values name, ht : t.values name with
  | [], [] => rfl
  | [_], [_] =>
    rw [hs, ht] at hv
    have := List.perm_singleton.1 hv
    simp_all
  | _ :: _ :: _, _ :: _ :: _ => rfl
  | [], _ :: _ | _ :: _, [] | [_], _ :: _ :: _ | _ :: _ :: _, [_] =>
    have := hv.length_eq
    rw [hs, ht] at this
    simp at this

theorem has_perm {s t : Settings} (h : s.Perm t) (name : String) : s.has name = t.has name := by
  rw [Bool.eq_iff_iff]
  simpa only [has, List.contains_iff_mem] using (h.filterMap Setting.flag?).mem_iff

end Settings

end TypedConsole.Derive
