import TypedConsole.Derive.OfSource
import TypedConsole.Proofs.Plans

/-!
# TypedConsole.Proofs.SettingEffects

What becomes of the settings of a struct in the code that is generated for it.

The code of a parameter is a chain of calls: one that constructs the parameter, and others that set
it up.  `TakesEffect` says for each setting which of the calls comes from it, or, for the settings
that have no value, what parameters the chain makes.  `Occurs` finds the chain in the code of the
whole command, however deep in its groups.

A setting takes effect if it is in the form that is looked up.  In the other form it is accepted
just as well, and ignored.  All of that holds with any library for the language: the code holds the
values of settings as they stand in the source.
-/

namespace TypedConsole.Derive

open Source

/-! ## pieces of code -/

/-- The piece stands in the code, perhaps inside groups. -/
inductive Occurs (piece : Tokens) : Tokens → Prop
  | here (before after : Tokens) : Occurs piece (before ++ piece ++ after)
  | inside (before after : Tokens) (d : Delimiter) (h : Occurs piece content) :
      Occurs piece (before ++ .group d content :: after)

namespace Occurs

variable {piece whole : Tokens}

theorem refl (piece : Tokens) : Occurs piece piece := by
  have h : Occurs piece ([] ++ piece ++ []) := here [] []
  simpa using h

theorem append_left (front : Tokens) (h : Occurs piece whole) : Occurs piece (front ++ whole) := by
  cases h with
  | here before after =>
      rw [← List.append_assoc, ← List.append_assoc]
      exact here _ _
  | inside before after d h =>
      rw [← List.append_assoc]
      exact inside _ _ d h

theorem append_right (back : Tokens) (h : Occurs piece whole) : Occurs piece (whole ++ back) := by
  cases h with
  | here before after =>
      rw [List.append_assoc]
      exact here _ _
  | inside before after d h =>
      rw [List.append_assoc, List.cons_append]
      exact inside _ _ d h

theorem group (d : Delimiter) (h : Occurs piece whole) : Occurs piece [.group d whole] :=
  inside [] [] d h

end Occurs

/-- A call: what is called, and the code of its arguments. -/
structure Call where
  method : String
  arguments : Tokens

/-- A parameter as a chain of calls. -/
def parameterCode (type : Snippet) (construction : Call) (setup : List Call) : Tokens :=
  code "::devcon::Parameter::<" ++ type.tokens ++ code ">::" ++
    (code construction.method ++ parenthesised construction.arguments) ++
    setup.flatMap fun c => call c.method c.arguments

/-- The function that builds a grammar of the parameters. -/
def grammarFunction (parameters : List Tokens) : Tokens :=
  function "grammar" registryParameter
      (code "::std::result::Result<::devcon::Grammar, ::devcon::ConfigError>") ++
    braced (code "::devcon::GrammarBuilder::new" ++ parenthesised [] ++
      parameters.flatMap (call "add") ++ call "build" (code "registry"))

/-- The function that lists slots. -/
def slotsFunction (slots : List Tokens) : Tokens :=
  function "slots" registryParameter
      (code "::std::result::Result<::std::vec::Vec<::devcon::Slot>, ::devcon::RegistryError>") ++
    braced (code "::std::result::Result::Ok" ++
      parenthesised (code "::std::vec!" ++ bracketed ((code ",").intercalate slots)))

/-- The function that assembles a value. -/
def assembleFunction (body : Tokens) : Tokens :=
  function "assemble" (code "elements: &mut ::devcon::Elements")
      (code "::std::option::Option<Self>") ++ braced body

/-- The test of a value. -/
def testCode (condition : Snippet) : Tokens :=
  code "if" ++ condition.tokens ++ parenthesised (code "&value")

/-- A slot with a default. -/
def defaultSlotCode (type default : Snippet) : Tokens :=
  code "::devcon::Slot::with_default::<" ++ type.tokens ++ code ">" ++
    parenthesised (code "registry," ++ default.tokens) ++ code "?"

/-! ## what calls make -/

/-- A parameter that the call constructs, whatever its arguments are. -/
inductive Constructs : String → Parameter → Prop
  | positional (type : Ty) (metavar : String) : Constructs "positional" (.positional type metavar)
  | switch (type : Ty) (short : Char) : Constructs "switch" (.switch type short)
  | requiredSwitch (type : Ty) (short : Char) :
      Constructs "required_switch" (.requiredSwitch type short)

/-- What the call makes of a parameter, whatever its arguments are. -/
inductive Modifies : String → Parameter → Parameter → Prop
  | long (text : String) : Modifies "long" p (p.withLong text)
  | optional : Modifies "optional" p p.optional
  | default (v : Value) : Modifies "default_value" p (p.withDefault v)
  | defaultText (text : String) : Modifies "default_raw" p (p.withDefaultText text)
  | metavar (text : String) : Modifies "meta" p (p.withMetavar text)
  | flag (enabled : Bool) : Modifies "flag" p (p.withFlagMode enabled)
  | min (least : Nat) : Modifies "min" p (p.withMin least)
  | max (most : Nat) : Modifies "max" p (p.withMax most)
  | description (text : String) : Modifies "description" p (p.withDescription text)
  | parser (parser : Parser) : Modifies "parser" p (p.withParser parser)

/-- What calls make of a parameter one after the other. -/
inductive Applied : List Call → Parameter → Parameter → Prop
  | nil : Applied [] p p
  | cons (h : Modifies c.method p q) (rest : Applied cs q r) : Applied (c :: cs) p r

/-- A parameter that a chain of calls makes. -/
def Makes (construction : Call) (setup : List Call) (p : Parameter) : Prop :=
  ∃ p₀, Constructs construction.method p₀ ∧ Applied setup p₀ p

/-- The calls that construct a parameter. -/
def constructionMethods : List String := ["positional", "switch", "required_switch"]

/-- The calls that set up a parameter. -/
def setupMethods : List String :=
  ["long", "optional", "default_value", "default_raw", "meta", "flag", "min", "max", "description",
   "parser"]

/-- The call makes a parameter optional. -/
def relaxes (method : String) : Bool :=
  ["optional", "default_value", "default_raw"].contains method

section Makes

variable {p q : Parameter} {construction : Call} {setup : List Call}

theorem Constructs.required_eq {method : String} (h : Constructs method p) :
    p.required = (method != "switch") := by
  cases h <;> rfl

theorem Modifies.required_eq {method : String} (h : Modifies method p q) :
    q.required = (p.required && !relaxes method) := by
  cases h <;>
    simp [relaxes, Parameter.withLong, Parameter.optional, Parameter.withDefault,
      Parameter.withDefaultText, Parameter.withMetavar, Parameter.withFlagMode, Parameter.withMin,
      Parameter.withMax, Parameter.withDescription, Parameter.withParser]

theorem Applied.required_eq (h : Applied setup p q) :
    q.required = (p.required && setup.all fun c => !relaxes c.method) := by
  induction h with
  | nil => simp
  | cons h _ ih => rw [ih, h.required_eq, List.all_cons, Bool.and_assoc]

/-- Whether a parameter is required shows in the calls that make it. -/
theorem Makes.required_eq (h : Makes construction setup p) :
    p.required = (construction.method != "switch" && setup.all fun c => !relaxes c.method) := by
  obtain ⟨p₀, hconstructs, happlied⟩ := h
  rw [happlied.required_eq, hconstructs.required_eq]

theorem exists_constructs {method : String} (h : method ∈ constructionMethods) :
    ∃ p, Constructs method p := by
  simp only [constructionMethods, List.mem_cons, List.not_mem_nil, or_false] at h
  rcases h with rfl | rfl | rfl
  · exact ⟨_, .positional .bool ""⟩
  · exact ⟨_, .switch .bool 'a'⟩
  · exact ⟨_, .requiredSwitch .bool 'a'⟩

theorem exists_modifies {method : String} (h : method ∈ setupMethods) (p : Parameter) :
    ∃ q, Modifies method p q := by
  simp only [setupMethods, List.mem_cons, List.not_mem_nil, or_false] at h
  rcases h with rfl | rfl | rfl | rfl | rfl | rfl | rfl | rfl | rfl | rfl
  · exact ⟨_, .long ""⟩
  · exact ⟨_, .optional⟩
  · exact ⟨_, .default (.bool true)⟩
  · exact ⟨_, .defaultText ""⟩
  · exact ⟨_, .metavar ""⟩
  · exact ⟨_, .flag true⟩
  · exact ⟨_, .min 0⟩
  · exact ⟨_, .max 0⟩
  · exact ⟨_, .description ""⟩
  · exact ⟨_, .parser .bool⟩

/-- A chain of calls that exist makes a parameter. -/
theorem exists_makes (hc : construction.method ∈ constructionMethods)
    (hs : ∀ c ∈ setup, c.method ∈ setupMethods) : ∃ p, Makes construction setup p := by
  obtain ⟨p₀, hp₀⟩ := exists_constructs hc
  have happlied : ∀ p₀, ∃ p, Applied setup p₀ p := by
    induction setup with
    | nil => exact fun p₀ => ⟨p₀, .nil⟩
    | cons c cs ih =>
        intro p₀
        obtain ⟨q, hq⟩ := exists_modifies (hs c List.mem_cons_self) p₀
        obtain ⟨p, hp⟩ := ih (fun c hc => hs c (List.mem_cons_of_mem _ hc)) q
        exact ⟨p, .cons hq hp⟩
  exact (happlied p₀).imp fun p hp => ⟨p₀, hp₀, hp⟩

end Makes

/-! ## effects -/

/-- The setting takes effect in the parameter that the chain of calls makes: its value is an
argument of the call that it stands for, or the parameter is optional or required. -/
inductive TakesEffect {ε : Type} (lang : Language ε) (construction : Call) (setup : List Call) :
    Setting → Prop
  | optional (h : ∀ p, Makes construction setup p → p.required = false) :
      TakesEffect lang construction setup (.flag "optional")
  | required (h : ∀ p, Makes construction setup p → p.required = true) :
      TakesEffect lang construction setup (.flag "required")
  | short (h : construction = ⟨"switch", v.tokens⟩ ∨ construction = ⟨"required_switch", v.tokens⟩) :
      TakesEffect lang construction setup (.value "short" v)
  | long (hv : stringOf lang "long" v = .ok text) (h : ⟨"long", [lang.literal text]⟩ ∈ setup) :
      TakesEffect lang construction setup (.value "long" v)
  /-- The name of a positional. -/
  | name (hv : stringOf lang "meta" v = .ok text)
      (h : construction = ⟨"positional", [lang.literal text]⟩) :
      TakesEffect lang construction setup (.value "meta" v)
  /-- The placeholder of the value of a switch. -/
  | placeholder (h : ⟨"meta", v.tokens⟩ ∈ setup) :
      TakesEffect lang construction setup (.value "meta" v)
  | default (h : ⟨"default_value", v.tokens⟩ ∈ setup) :
      TakesEffect lang construction setup (.value "default" v)
  | modifier (hname : name ∈ ["default_raw", "flag", "min", "max", "description", "parser"])
      (h : ⟨name, v.tokens⟩ ∈ setup) : TakesEffect lang construction setup (.value name v)

/-! ## the calls of a plan -/

namespace ParameterPlan

variable {ε : Type} {lang : Language ε} {field : Field} {settings : Settings} {p : ParameterPlan}

/-- The call that constructs the parameter. -/
def construction (lang : Language ε) (p : ParameterPlan) : Call :=
  match p.role with
  | .positional => ⟨"positional", [lang.literal p.name]⟩
  | .switch short => ⟨"switch", short.tokens⟩
  | .requiredSwitch short => ⟨"required_switch", short.tokens⟩

/-- The call that sets the long name of a switch. -/
def longCalls (lang : Language ε) (p : ParameterPlan) : List Call :=
  match p.role with
  | .positional => []
  | .switch _ | .requiredSwitch _ => [⟨"long", [lang.literal p.name]⟩]

/-- The call that makes the parameter optional, if it is not so from the outset. -/
def requirementCalls (p : ParameterPlan) : List Call :=
  match p.requirement, p.role with
  | .optional, .positional => [⟨"optional", []⟩]
  | .required, _ | .optional, _ => []
  | .default value, _ => [⟨"default_value", value.tokens⟩]
  | .defaultText text, _ => [⟨"default_raw", text.tokens⟩]

/-- The call that a modifier is, if it has a value. -/
def modifierCall : String × Option Snippet → Option Call
  | (method, value) => value.map fun v => ⟨method, v.tokens⟩

/-- The calls that set up the parameter. -/
def setup (lang : Language ε) (p : ParameterPlan) : List Call :=
  p.longCalls lang ++ (p.requirementCalls ++ p.modifiers.filterMap modifierCall)

/-- **The code of a parameter is a chain of calls.** -/
theorem toCode_eq (lang : Language ε) (p : ParameterPlan) : p.toCode lang =
      parameterCode p.type (p.construction lang) (p.setup lang) := by
  have hmodifiers : ∀ ms : List (String × Option Snippet), ms.flatMap modifierCode =
      (ms.filterMap modifierCall).flatMap fun c => call c.method c.arguments := fun ms => by
    induction ms with
    | nil => rfl
    | cons m ms ih =>
        obtain ⟨method, _ | v⟩ := m
        · exact ih
        · exact congrArg (call method v.tokens ++ ·) ih
  have hrequirement : p.requirementCode =
      p.requirementCalls.flatMap fun c => call c.method c.arguments := by
    cases hq : p.requirement <;> cases hr : p.role <;>
      simp [requirementCode, requirementCalls, hq, hr]
  have hconstructor : p.constructorCode lang = code (p.construction lang).method ++
      parenthesised (p.construction lang).arguments ++
      (p.longCalls lang).flatMap fun c => call c.method c.arguments := by
    cases hr : p.role <;> simp [constructorCode, construction, longCalls, hr]
  simp only [toCode, parameterCode, setup, hmodifiers, hrequirement, hconstructor,
    List.flatMap_append, List.append_assoc]

theorem mem_modifierCalls {c : Call} :
    c ∈ p.modifiers.filterMap modifierCall ↔
      ∃ v, (c.method, some v) ∈ p.modifiers ∧ c.arguments = v.tokens := by
  rw [List.mem_filterMap]
  constructor
  · intro h
    obtain ⟨⟨method, value⟩, hm, hc⟩ := h
    obtain ⟨v, rfl, rfl⟩ := Option.map_eq_some_iff.1 hc
    exact ⟨v, hm, rfl⟩
  · intro h
    obtain ⟨v, hm, hv⟩ := h
    exact ⟨_, hm, by rw [modifierCall, Option.map_some, ← hv]⟩

/-- A call that is a modifier has one of their names. -/
theorem method_mem_of_mem_modifierCalls {c : Call}
    (h : c ∈ p.modifiers.filterMap modifierCall) :
    c.method ∈ ["meta", "flag", "min", "max", "description", "parser"] := by
  obtain ⟨v, hv, -⟩ := mem_modifierCalls.1 h
  exact List.mem_map_of_mem (f := (·.1)) hv

/-- All calls of a plan exist, so that they make a parameter. -/
theorem exists_makes_plan (lang : Language ε) (p : ParameterPlan) :
    ∃ P, Makes (p.construction lang) (p.setup lang) P := by
  refine exists_makes ?_ fun c hc => ?_
  · cases hr : p.role <;> simp [construction, constructionMethods, hr]
  · rw [setup, List.mem_append, List.mem_append] at hc
    rcases hc with hc | hc | hc
    · cases hr : p.role <;> simp_all [longCalls, setupMethods]
    · cases hq : p.requirement <;> cases hr : p.role <;>
        simp_all [requirementCalls, setupMethods]
    · have hsubset : ["meta", "flag", "min", "max", "description", "parser"] ⊆ setupMethods := by
        decide
      exact hsubset (method_mem_of_mem_modifierCalls hc)

/-- Only the call for the requirement makes a parameter optional that was constructed as required.
-/
theorem all_setup (lang : Language ε) (p : ParameterPlan) :
    ((p.setup lang).all fun c => !relaxes c.method) =
      p.requirementCalls.all fun c => !relaxes c.method := by
  have hlong : ((p.longCalls lang).all fun c => !relaxes c.method) = true := by
    cases hr : p.role <;> simp [longCalls, hr, relaxes]
  have hmodifiers :
      ((p.modifiers.filterMap modifierCall).all fun c => !relaxes c.method) = true := by
    have hnames : ∀ m ∈ ["meta", "flag", "min", "max", "description", "parser"],
        (!relaxes m) = true := by decide
    exact List.all_eq_true.2 fun c hc => hnames _ (method_mem_of_mem_modifierCalls hc)
  rw [setup, List.all_append, List.all_append, hlong, hmodifiers, Bool.true_and, Bool.and_true]

/-- A modifier with a value is one of the calls. -/
theorem mem_setup_of_modifier {name : String} {v : Snippet}
    (h : (name, some v) ∈ p.modifiers) : ⟨name, v.tokens⟩ ∈ p.setup lang :=
  List.mem_append_right _ (List.mem_append_right _ (mem_modifierCalls.2 ⟨v, h, rfl⟩))

theorem mem_setup_of_requirement {c : Call} (h : c ∈ p.requirementCalls) :
    c ∈ p.setup lang :=
  List.mem_append_right _ (List.mem_append_left _ h)

/-! ## effects on the calls -/

section Effects

variable {v : Snippet}

/-- The short name is what a switch is constructed from. -/
theorem construction_of_short (h : ofSettings lang field settings = .ok p)
    (hv : .value "short" v ∈ settings) :
    p.construction lang = ⟨"switch", v.tokens⟩ ∨
      p.construction lang = ⟨"required_switch", v.tokens⟩ := by
  cases roleFound h with
  | positional hshort =>
      have := Settings.eq_some_of_mem hshort hv
      contradiction
  | switch hshort _ _ _ hrole =>
      obtain rfl := Option.some.inj (Settings.eq_some_of_mem hshort hv)
      rw [construction, hrole]
      cases settings.has "required" <;> simp

/-- The long name is that of a switch. -/
theorem long_mem_setup (h : ofSettings lang field settings = .ok p)
    (hv : .value "long" v ∈ settings) :
    stringOf lang "long" v = .ok p.name ∧ ⟨"long", [lang.literal p.name]⟩ ∈ p.setup lang := by
  cases roleFound h with
  | positional _ hlong =>
      have := Settings.eq_some_of_mem hlong hv
      contradiction
  | switch _ hlong hname _ hrole =>
      obtain rfl := Settings.eq_some_of_mem hlong hv
      refine ⟨hname, List.mem_append_left _ ?_⟩
      rw [longCalls, hrole]
      cases settings.has "required" <;> simp

/-- The name shown is that of a positional, or the placeholder of a switch. -/
theorem takesEffect_meta (h : ofSettings lang field settings = .ok p)
    (hv : .value "meta" v ∈ settings) :
    TakesEffect lang (p.construction lang) (p.setup lang) (.value "meta" v) := by
  cases roleFound h with
  | positional _ _ _ hmeta hname hrole =>
      obtain rfl := Settings.eq_some_of_mem hmeta hv
      exact .name hname (by rw [construction, hrole])
  | switch _ _ _ hmeta =>
      have hsome := Settings.eq_some_of_mem hmeta hv
      exact .placeholder (mem_setup_of_modifier (by simp [modifiers, hsome]))

/-- The other modifiers stand in the calls under their names. -/
theorem modifier_mem_setup (h : ofSettings lang field settings = .ok p) {name : String}
    (hname : name ∈ ["flag", "min", "max", "description", "parser"])
    (hv : .value name v ∈ settings) : ⟨name, v.tokens⟩ ∈ p.setup lang := by
  have hfound : ∀ x, (name, x) ∈ [("flag", p.flag), ("min", p.min), ("max", p.max),
      ("description", p.description), ("parser", p.parser)] → x = some v :=
    fun x hx => Settings.eq_some_of_mem (modifier_found h hx) hv
  refine mem_setup_of_modifier (List.mem_cons_of_mem _ ?_)
  simp only [List.mem_cons, List.not_mem_nil, or_false] at hname
  rcases hname with rfl | rfl | rfl | rfl | rfl
  · simp [hfound p.flag (by simp)]
  · simp [hfound p.min (by simp)]
  · simp [hfound p.max (by simp)]
  · simp [hfound p.description (by simp)]
  · simp [hfound p.parser (by simp)]

theorem default_mem_setup (h : ofSettings lang field settings = .ok p)
    (hv : .value "default" v ∈ settings) : ⟨"default_value", v.tokens⟩ ∈ p.setup lang := by
  obtain ⟨default, _, hdefault, -, -, hrequirement⟩ := requirement_found h
  obtain rfl := Settings.eq_some_of_mem hdefault hv
  exact mem_setup_of_requirement (by simp [requirementCalls, hrequirement, requirementOf])

/-- A text to fall back to excludes a value. -/
theorem defaultText_mem_setup (h : ofSettings lang field settings = .ok p)
    (hv : .value "default_raw" v ∈ settings) : ⟨"default_raw", v.tokens⟩ ∈ p.setup lang := by
  obtain ⟨default, _, -, htext, hexclusive, hrequirement⟩ := requirement_found h
  obtain rfl := Settings.eq_some_of_mem htext hv
  obtain rfl := (alone_of_exclusive hexclusive).2.2 rfl
  exact mem_setup_of_requirement (by simp [requirementCalls, hrequirement, requirementOf])

/-- A parameter that is set to be optional is optional. -/
theorem required_eq_false (h : ofSettings lang field settings = .ok p)
    (hs : .flag "optional" ∈ settings) {P : Parameter}
    (hP : Makes (p.construction lang) (p.setup lang) P) : P.required = false := by
  obtain ⟨_, _, -, -, hexclusive, hrequirement⟩ := requirement_found h
  have hoptional := Settings.has_iff.2 hs
  obtain ⟨hrequired, rfl, rfl⟩ := (alone_of_exclusive hexclusive).1 hoptional
  rw [hoptional] at hrequirement
  rw [hP.required_eq, all_setup]
  cases roleFound h with
  | positional _ _ _ _ _ hrole =>
      simp [requirementCalls, hrequirement, requirementOf, hrole, relaxes]
  | switch _ _ _ _ hrole =>
      rw [hrequired] at hrole
      simp [construction, hrole]

/-- A switch that is set to be required is required. -/
theorem required_eq_true (h : ofSettings lang field settings = .ok p)
    (hs : .flag "required" ∈ settings) {P : Parameter}
    (hP : Makes (p.construction lang) (p.setup lang) P) : P.required = true := by
  obtain ⟨_, _, -, -, hexclusive, hrequirement⟩ := requirement_found h
  have hrequired := Settings.has_iff.2 hs
  obtain ⟨hoptional, rfl, rfl⟩ := (alone_of_exclusive hexclusive).2.1 hrequired
  rw [hP.required_eq, all_setup]
  cases roleFound h with
  | positional _ _ hnot =>
      rw [hrequired] at hnot
      contradiction
  | switch _ _ _ _ hrole =>
      rw [hrequired, if_pos rfl] at hrole
      simp [construction, requirementCalls, hrequirement, hoptional, requirementOf, hrole]

/-- **A setting in the form that is looked up takes effect.** -/
theorem takesEffect (h : ofSettings lang field settings = .ok p) {s : Setting}
    (hs : s ∈ settings.formed parameterFlags parameterValues) :
    TakesEffect lang (p.construction lang) (p.setup lang) s := by
  obtain ⟨hmem, hform⟩ := Settings.mem_formed.1 hs
  cases s with
  | flag name =>
      simp only [Setting.isFormed, parameterFlags, List.contains_iff_mem, List.mem_cons,
        List.not_mem_nil, or_false] at hform
      rcases hform with rfl | rfl
      · exact .optional fun _ => required_eq_false h hmem
      · exact .required fun _ => required_eq_true h hmem
  | value name v =>
      simp only [Setting.isFormed, parameterValues, List.contains_iff_mem, List.mem_cons,
        List.not_mem_nil, or_false] at hform
      have hmodifier : name ∈ ["flag", "min", "max", "description", "parser"] →
          TakesEffect lang (p.construction lang) (p.setup lang) (.value name v) := fun hname =>
        .modifier (List.mem_cons_of_mem _ hname) (modifier_mem_setup h hname hmem)
      rcases hform with rfl | rfl | rfl | rfl | rfl | hname
      · exact .short (construction_of_short h hmem)
      · obtain ⟨hv, hlong⟩ := long_mem_setup h hmem
        exact .long hv hlong
      · exact takesEffect_meta h hmem
      · exact .default (default_mem_setup h hmem)
      · exact .modifier (by decide) (defaultText_mem_setup h hmem)
      · exact hmodifier (by simpa using hname)

end Effects

end ParameterPlan

/-! ## effects in the code of an item -/

section
variable {ε : Type} (lang : Language ε)

/-- The expression of a parameter honours the settings of its field: all their names are known,
those in the form that is looked up take effect, and the others leave no trace. -/
def HonoursField (field : Field) (expression : Tokens) : Prop :=
  ∃ settings construction setup, Setting.collect lang field.attributes = .ok settings ∧
    (∀ s ∈ settings, s.name ∈ parameterSettings) ∧
    expression = parameterCode ⟨field.type⟩ construction setup ∧
    (∃ p, Makes construction setup p) ∧
    (∀ s ∈ settings.formed parameterFlags parameterValues, TakesEffect lang construction setup s) ∧
    ∃ p, ParameterPlan.ofSettings lang field (settings.formed parameterFlags parameterValues) =
        .ok p ∧
      expression = p.toCode lang

/-- The code of a command honours the settings: the item has none, and the grammar is built of one
parameter for each field that honours those of the field. -/
def HonoursCommand (item : Item) (plan : CommandPlan) : Prop :=
  Setting.collect lang item.attributes = .ok [] ∧
    ∃ fields parameters, namedFields .command item = .ok fields ∧
      List.Forall₂ (HonoursField lang) fields parameters ∧
      Occurs (grammarFunction parameters) (plan.toCode lang)

/-- The expression of a slot honours the settings of its field: all are named `default`, and one
with a value is the default of the slot.  One without a value leaves no trace. -/
def HonoursSlot (field : Field) (expression : Tokens) : Prop :=
  ∃ settings, Setting.collect lang field.attributes = .ok settings ∧
    (∀ s ∈ settings, s.name = "default") ∧
    (∀ v, .value "default" v ∈ settings → expression = defaultSlotCode ⟨field.type⟩ v) ∧
    ∃ s, SlotPlan.ofSettings field (settings.formed [] ["default"]) = .ok s ∧
      expression = s.toCode

/-- The code of a compound honours the settings: those of the item are all named `validate`, and one
with a value is the test in the assembly.  One without a value leaves no trace.  There is a slot for
each field that honours those of the field. -/
def HonoursCompound (item : Item) (plan : CompoundPlan) : Prop :=
  ∃ settings body fields slots, Setting.collect lang item.attributes = .ok settings ∧
    (∀ s ∈ settings, s.name = "validate") ∧
    Occurs (assembleFunction body) (plan.toCode lang) ∧
    (∀ v, .value "validate" v ∈ settings → Occurs (testCode v) body) ∧
    CompoundPlan.validateOf (settings.formed [] ["validate"]) = .ok plan.validate ∧
    namedFields .compound item = .ok fields ∧ List.Forall₂ (HonoursSlot lang) fields slots ∧
    Occurs (slotsFunction slots) (plan.toCode lang)

theorem honoursField_of_plan {field : Field} {p : ParameterPlan}
    (h : ParameterPlan.ofField lang field = .ok p) : HonoursField lang field (p.toCode lang) := by
  obtain ⟨-, settings, hcollect, hp⟩ := ParameterPlan.ofField_eq_ok_iff.1 h
  obtain ⟨hallowed, _, _, _, _, _, -, -, -, -, -, -, -, -, -, -, -, -, -, htype, -⟩ :=
    ParameterPlan.ofSettings_eq_ok_iff.1 hp
  refine ⟨settings, p.construction lang, p.setup lang, hcollect,
    Settings.allowOnly_eq_ok_iff.1 hallowed, ?_, p.exists_makes_plan lang,
    fun s hs => ParameterPlan.takesEffect hp hs, p, ?_, rfl⟩
  · rw [p.toCode_eq lang, htype]
  · rw [ParameterPlan.ofSettings_formed lang field hallowed, hp]

/-- The grammar of a command is built of its parameters. -/
theorem occurs_grammarFunction (c : CommandPlan) :
    Occurs (grammarFunction (c.parameters.map (ParameterPlan.toCode lang))) (c.toCode lang) := by
  have hgrammar : c.grammarCode lang = code "::devcon::GrammarBuilder::new" ++ parenthesised [] ++
      (c.parameters.map (ParameterPlan.toCode lang)).flatMap (call "add") ++
      call "build" (code "registry") := by
    rw [CommandPlan.grammarCode, List.flatMap_map]
  simp only [CommandPlan.toCode, braced, grammarFunction, ← hgrammar]
  refine .append_left _ (.group _ ?_)
  exact ((Occurs.refl _).append_right _).append_right _

/-- **The settings of a command.** -/
theorem honoursCommand_of_plan {item : Item} {plan : CommandPlan}
    (h : CommandPlan.ofItem lang item = .ok plan) : HonoursCommand lang item plan := by
  obtain ⟨hcollect, fields, hfields, -, hparameters⟩ := CommandPlan.ofItem_eq_ok_iff.1 h
  refine ⟨hcollect, fields, plan.parameters.map (ParameterPlan.toCode lang), hfields,
    ?_, occurs_grammarFunction lang plan⟩
  rw [List.forall₂_map_right_iff]
  exact hparameters.imp fun _ _ => honoursField_of_plan lang

theorem honoursSlot_of_plan {field : Field} {s : SlotPlan}
    (h : SlotPlan.ofField lang field = .ok s) : HonoursSlot lang field s.toCode := by
  obtain ⟨-, settings, hcollect, hs⟩ := SlotPlan.ofField_eq_ok_iff.1 h
  obtain ⟨hallowed, hdefault, -, htype⟩ := SlotPlan.ofSettings_eq_ok_iff.1 hs
  refine ⟨settings, hcollect, ?_, fun v hv => ?_, s, ?_, rfl⟩
  · simpa using Settings.allowOnly_eq_ok_iff.1 hallowed
  · rw [SlotPlan.toCode, Settings.eq_some_of_mem hdefault hv, htype, defaultSlotCode]
  · rw [SlotPlan.ofSettings_formed field hallowed, hs]

/-- The assembly of a compound with a condition tests it. -/
theorem occurs_testCode {c : CompoundPlan} {v : Snippet} (h : c.validate = some v) :
    Occurs (testCode v) c.assembleCode := by
  have hif : code "; if" = code ";" ++ code "if" := rfl
  have hbody : c.assembleCode = (code "let value =" ++ c.valueCode ++ code ";") ++ testCode v ++
      (braced (code "::std::option::Option::Some" ++ parenthesised (code "value")) ++
        code "else" ++ braced (code "::std::option::Option::None")) := by
    simp only [CompoundPlan.assembleCode, h, hif, testCode, List.append_assoc]
  rw [hbody]
  exact .here _ _

/-- What stands in the first implementation for a compound stands in its code. -/
theorem occurs_toCode {c : CompoundPlan} {piece : Tokens}
    (h : Occurs piece (slotsFunction (c.slots.map SlotPlan.toCode) ++
      assembleFunction c.assembleCode ++
      (function "format" (code "_slots: &" ++ bracketed (code "::devcon::Slot"))
        (code "::std::string::String") ++ braced (c.formatCode lang)))) :
    Occurs piece (c.toCode lang) := by
  simp only [slotsFunction, assembleFunction, ← List.append_assoc] at h
  exact ((((h.group _).append_left _).append_right _).append_right _).append_right _

theorem occurs_slotsFunction (c : CompoundPlan) :
    Occurs (slotsFunction (c.slots.map SlotPlan.toCode)) (c.toCode lang) :=
  occurs_toCode lang (((Occurs.refl _).append_right _).append_right _)

theorem occurs_assembleFunction (c : CompoundPlan) :
    Occurs (assembleFunction c.assembleCode) (c.toCode lang) := occurs_toCode lang (.here _ _)

/-- **The settings of a compound.** -/
theorem honoursCompound_of_plan {item : Item} {plan : CompoundPlan}
    (h : CompoundPlan.ofItem lang item = .ok plan) : HonoursCompound lang item plan := by
  obtain ⟨settings, fields, hcollect, hvalidate, hfields, -, -, hslots⟩ :=
    CompoundPlan.ofItem_eq_ok_iff.1 h
  obtain ⟨hallowed, hsingle⟩ := CompoundPlan.validateOf_eq_ok_iff.1 hvalidate
  refine ⟨settings, plan.assembleCode, fields, plan.slots.map SlotPlan.toCode, hcollect, ?_,
    occurs_assembleFunction lang plan, fun v hv => ?_, ?_, hfields, ?_,
    occurs_slotsFunction lang plan⟩
  · simpa using Settings.allowOnly_eq_ok_iff.1 hallowed
  · exact occurs_testCode (Settings.eq_some_of_mem hsingle hv)
  · rw [CompoundPlan.validateOf_formed hallowed, hvalidate]
  · rw [List.forall₂_map_right_iff]
    exact hslots.imp fun _ _ => honoursSlot_of_plan lang

/-- **Settings take effect in the form that is looked up.**  Whatever settings stand at an item and
at its fields, and whichever library reads them, if the item describes a command or a compound then
all their names are known, each one in the form that is looked up takes effect in the code that is
generated, and each one in the other form leaves no trace there. -/
theorem settings_take_effect (item : Item) :
    (∀ plan, CommandPlan.ofItem lang item = .ok plan → HonoursCommand lang item plan) ∧
    ∀ plan, CompoundPlan.ofItem lang item = .ok plan → HonoursCompound lang item plan :=
  ⟨fun _ => honoursCommand_of_plan lang, fun _ => honoursCompound_of_plan lang⟩

end

/-- The attribute that holds the settings. -/
def settingAttribute (settings : Tokens) : Attribute := ⟨[.name "devcon"], some settings, []⟩

/-- A struct with one field. -/
def structOf (attributes : List Attribute) (field : Field) : Item :=
  ⟨attributes, "P", false, .record [field]⟩

/-- A command with a switch that is required, and has another setting of which the value is
missing. -/
def requiredSwitch : Item :=
  structOf [] ⟨[settingAttribute ([.name "short"] ++ code "=" ++ [.literal "'n'"] ++
    code ", required, default")], "name", [.name "String"], []⟩

/-- A compound with a condition and a slot that has a default. -/
def defaultSlot : Item :=
  structOf [settingAttribute (code "validate = small")]
    ⟨[settingAttribute (code "default = 1")], "number", [.name "u8"], []⟩

theorem exists_of_isSome {ε α : Type} {x : Except ε α} (h : x.toOption.isSome = true) :
    ∃ a, x = .ok a := by
  cases x with
  | error e => contradiction
  | ok a => exact ⟨a, rfl⟩

/-- A required switch, and a slot with a default. -/
theorem settings_take_effect_required :
    ∃ command compound, CommandPlan.ofItem rust requiredSwitch = .ok command ∧
      HonoursCommand rust requiredSwitch command ∧
      CompoundPlan.ofItem rust defaultSlot = .ok compound ∧
      HonoursCompound rust defaultSlot compound := by
  obtain ⟨command, hcommand⟩ : ∃ c, CommandPlan.ofItem rust requiredSwitch = .ok c :=
    exists_of_isSome (by decide +kernel)
  obtain ⟨compound, hcompound⟩ : ∃ c, CompoundPlan.ofItem rust defaultSlot = .ok c :=
    exists_of_isSome (by decide +kernel)
  exact ⟨command, compound, hcommand, (settings_take_effect rust requiredSwitch).1 command hcommand,
    hcompound, (settings_take_effect rust defaultSlot).2 compound hcompound⟩

/-- The attributes hold settings of these names, all in the form that is not looked up. -/
def Ignored (attributes : List Attribute) (names : List String) : Prop :=
  ∃ settings, Setting.collect rust attributes = .ok settings ∧ settings.map Setting.name = names ∧
    settings.formed parameterFlags parameterValues = []

theorem ignored_iff {attributes : List Attribute} {names : List String} :
    ((Setting.collect rust attributes).toOption.any fun settings =>
      settings.map Setting.name == names &&
        (settings.formed parameterFlags parameterValues).isEmpty) = true ↔
      Ignored attributes names := by
  rw [Ignored]
  cases Setting.collect rust attributes <;> simp [Except.toOption]

instance (attributes : List Attribute) (names : List String) :
    Decidable (Ignored attributes names) := decidable_of_iff _ ignored_iff

/-- A field that has settings in the other form only is a field without settings. -/
theorem ofField_of_ignored {attributes : List Attribute} {names : List String} {field : String}
    {type : Tokens} {p : ParameterPlan} (hignored : Ignored attributes names)
    (hknown : names ⊆ parameterSettings)
    (h : ParameterPlan.ofField rust ⟨[], field, type, []⟩ = .ok p) :
    ParameterPlan.ofField rust ⟨attributes, field, type, []⟩ = .ok p := by
  obtain ⟨settings, hcollect, rfl, hformed⟩ := hignored
  obtain ⟨howned, plain, hplain, hp⟩ := ParameterPlan.ofField_eq_ok_iff.1 h
  have hnone : Setting.collect rust [] = .ok [] := rfl
  obtain rfl : plain = [] := Except.ok.inj (hplain.symm.trans hnone)
  have hallowed : settings.allowOnly parameterSettings = .ok () :=
    Settings.allowOnly_eq_ok_iff.2 fun s hs => hknown (List.mem_map_of_mem hs)
  refine ParameterPlan.ofField_eq_ok_iff.2 ⟨howned, settings, hcollect, ?_⟩
  rw [← ParameterPlan.ofSettings_formed rust _ hallowed, hformed]
  simpa only [ParameterPlan.ofSettings] using hp

/-- The command of a single field. -/
theorem ofItem_structOf {field : Field} {p : ParameterPlan}
    (h : ParameterPlan.ofField rust field = .ok p) :
    CommandPlan.ofItem rust (structOf [] field) = .ok ⟨"P", [p]⟩ := by
  have hnone : Setting.collect rust [] = .ok [] := rfl
  have hfields : namedFields .command (structOf [] field) = .ok [field] := rfl
  exact CommandPlan.ofItem_eq_ok_iff.2 ⟨hnone, [field], hfields, rfl, .cons h .nil⟩

/-- **Not every setting takes effect that is accepted**: a short name without a value and `required`
with one make no difference. -/
theorem other_forms_are_ignored :
    Ignored [settingAttribute (code "short")] ["short"] ∧
    Ignored [settingAttribute (code "required = true")] ["required"] ∧
    ∃ plan, CommandPlan.ofItem rust (structOf [] ⟨[], "a", [.name "u32"], []⟩) = .ok plan ∧
      CommandPlan.ofItem rust (structOf []
        ⟨[settingAttribute (code "short")], "a", [.name "u32"], []⟩) = .ok plan ∧
      CommandPlan.ofItem rust (structOf []
        ⟨[settingAttribute (code "required = true")], "a", [.name "u32"], []⟩) = .ok plan := by
  have hshort : Ignored [settingAttribute (code "short")] ["short"] := by decide +kernel
  have hrequired : Ignored [settingAttribute (code "required = true")] ["required"] := by
    decide +kernel
  obtain ⟨p, hp⟩ : ∃ p, ParameterPlan.ofField rust ⟨[], "a", [.name "u32"], []⟩ = .ok p :=
    exists_of_isSome (by decide +kernel)
  exact ⟨hshort, hrequired, _, ofItem_structOf hp,
    ofItem_structOf (ofField_of_ignored hshort (by decide) hp),
    ofItem_structOf (ofField_of_ignored hrequired (by decide) hp)⟩

end TypedConsole.Derive
