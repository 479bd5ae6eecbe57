import TypedConsole.Proofs.Lowercasing
import TypedConsole.Proofs.TableOrder

/-!
# TypedConsole.Proofs.ConsoleTable

The console as a finite map from names to commands, and from pairs of names to verbs.

* A change is refused, and then the table of commands is as it was, or it is accepted and edits
  the table at the names that it is about (`Edits`, `apply_cases`).
* From the one description of an edit follow the form of the table (`WellKept`), what stands under
  the names in it (`Edits.content?_eq_some_iff`), what is touched (`Edits.touches`) and how an edit
  is undone.
-/

namespace TypedConsole

variable {σ : Type}

/-! ## names -/

/-- The form of a registered name: one word, in lower case. -/
structure IsName (name : String) : Prop where
  ne_empty : name ≠ ""
  no_blank : ∀ c ∈ name.toList, Text.isBlank c = false
  lowered : Text.lowercase name = name

theorem isName_iff {name : String} : IsName name ↔ name ≠ "" ∧
    (name.toList.all fun c => !Text.isBlank c) = true ∧ Text.lowercase name = name := by
  constructor
  · rintro ⟨hne, hblank, hlowered⟩
    exact ⟨hne, by simpa using hblank, hlowered⟩
  · rintro ⟨hne, hblank, hlowered⟩
    exact ⟨hne, by simpa using hblank, hlowered⟩

instance (name : String) : Decidable (IsName name) := decidable_of_iff' _ isName_iff

namespace Console

variable {c c' : Console σ} {name verb : String}

theorem isName_of_normalize {lowered : String} (h : normalize name = .ok lowered) :
    IsName lowered := by
  obtain rfl := normalize_eq_ok h
  simp only [normalize] at h
  split at h
  · cases h
  · next hword =>
      rw [Bool.or_eq_true, not_or, List.any_eq_true] at hword
      exact ⟨by simpa using hword.1, fun a ha => by simpa using fun hb => hword.2 ⟨a, ha, hb⟩,
        Text.lowercase_lowercase _⟩

theorem isName_of_insert {e : Entry σ} (h : c.insert name e = .ok c') :
    IsName (canonical name) := by
  obtain ⟨lowered, hlowered, -⟩ := Grammar.bind_eq_ok_iff.1 h
  exact normalize_eq_ok hlowered ▸ isName_of_normalize hlowered

theorem isName_of_insertVerb {v : Verb σ} (h : c.insertVerb name verb v = .ok c') :
    IsName (canonical verb) := by
  obtain ⟨lowered, hlowered, -⟩ := Grammar.bind_eq_ok_iff.1 h
  exact normalize_eq_ok hlowered ▸ isName_of_normalize hlowered

end Console

/-! ## what stands under names -/

/-- What is registered under the names of a command or of a verb: a description, and a handler
unless verbs take its place. -/
structure Content (σ : Type) where
  description : String
  handler? : Option (Handler σ)

/-- The content of a verb. -/
def Verb.content (v : Verb σ) : Content σ := ⟨v.description, some v.handler⟩

namespace Entry

/-- The verb of that name. -/
def verb? (e : Entry σ) (verb : String) : Option (Verb σ) :=
  match e.action with
  | .run _ => none
  | .verbs table => table.find? verb

/-- The content of the command. -/
def content (e : Entry σ) : Content σ :=
  match e.action with
  | .run handler => ⟨e.description, some handler⟩
  | .verbs _ => ⟨e.description, none⟩

/-- The content of the command, or of its verb. -/
def content? (e : Entry σ) : Option String → Option (Content σ)
  | none => some e.content
  | some verb => (e.verb? verb).map Verb.content

theorem content?_verbs {description : String} {table : NameTable (Verb σ)} {verb : Option String} :
    (⟨description, .verbs table⟩ : Entry σ).content? verb =
      match verb with
      | none => some ⟨description, none⟩
      | some v => (table.find? v).map Verb.content := by
  cases verb <;> rfl

/-- Without verbs there is nothing but the command itself. -/
theorem content?_of_no_verbs {e : Entry σ} (h : ∀ table, e.action = .verbs table → table = {})
    {verb : Option String} : e.content? verb = if verb = none then some e.content else none := by
  cases verb with
  | none => simp [content?]
  | some v =>
      cases haction : e.action with
      | run handler => simp [content?, verb?, haction]
      | verbs table => simp [content?, verb?, haction, h table haction, NameTable.find?]

end Entry

namespace NameTable

variable {t : NameTable (Entry σ)} {name name' : String} {e : Entry σ} {verb : Option String}
  {x : Content σ}

/-- What stands under the name of a command, or under the names of a command and a verb. -/
def content? (t : NameTable (Entry σ)) (name : String) (verb : Option String) :
    Option (Content σ) := (t.find? name).bind fun e => e.content? verb

/-- There is a command of that name, or a verb of the command. -/
def Lists (t : NameTable (Entry σ)) (name : String) (verb : Option String) : Prop :=
  ∃ x, t.content? name verb = some x

theorem content?_insert : (t.insert name' e).content? name verb =
    if name = name' then e.content? verb else t.content? name verb := by
  by_cases h : name = name'
  · subst h
    simp [content?, find?_insert_self]
  · simp [content?, find?_insert_of_ne h, h]

theorem content?_erase : (t.erase name').content? name verb =
    if name = name' then none else t.content? name verb := by
  by_cases h : name = name'
  · subst h
    simp [content?, find?_erase_self]
  · simp [content?, find?_erase_of_ne h, h]

theorem content?_of_find? (h : t.find? name = some e) :
    t.content? name verb = e.content? verb := by
  simp [content?, h]

theorem content?_of_find?_eq_none (h : t.find? name = none) : t.content? name verb = none := by
  simp [content?, h]

/-- A handler that stands there holds its place. -/
theorem holds_of_content? {handler : Handler σ} {description : String}
    (h : t.content? name verb = some ⟨description, some handler⟩) : t.Holds name verb handler := by
  obtain ⟨⟨d, action⟩, hentry, hcontent⟩ := Option.bind_eq_some_iff.1 h
  cases verb with
  | none =>
      cases action with
      | run handler' =>
          cases hcontent
          exact .command hentry
      | verbs table => cases hcontent
  | some verb =>
      cases action with
      | run handler' => cases hcontent
      | verbs table =>
          obtain ⟨v, hv, hverb⟩ := Option.map_eq_some_iff.1 hcontent
          cases hverb
          exact .verb hentry hv

end NameTable

/-! ## changes and their outcomes -/

namespace Change

/-- The error of an outcome. -/
def errorOf {α : Type} : Except ConsoleError α → Option ConsoleError
  | .ok _ => none
  | .error e => some e

/-- The error with which the console refuses a change. -/
def refusal? (c : Console σ) : Change σ → Option ConsoleError
  | register name description g run => errorOf (c.register name description g run)
  | registerRaw name description run => errorOf (c.registerRaw name description run)
  | registerVerbs name description => errorOf (c.registerVerbs name description)
  | registerCommand name description command run =>
    errorOf (c.registerCommand name description command run).1
  | registerVerb name verb description g run =>
    errorOf (c.registerVerb name verb description g run)
  | registerRawVerb name verb description run =>
    errorOf (c.registerRawVerb name verb description run)
  | registerVerbCommand name verb description command run =>
    errorOf (c.registerVerbCommand name verb description command run).1
  | unregister name => errorOf (c.unregister name)
  | unregisterVerb name verb => errorOf (c.unregisterVerb name verb)
  | setPrinter _ | setRegistry _ => none

/-- The change registers a command under the name, or a verb under the names. -/
def Adds (name : String) (verb : Option String) : Change σ → Prop
  | register n _ _ _ | registerRaw n _ _ | registerVerbs n _ | registerCommand n _ _ _ =>
    Console.canonical n = name ∧ verb = none
  | registerVerb n v _ _ _ | registerRawVerb n v _ _ | registerVerbCommand n v _ _ _ =>
    Console.canonical n = name ∧ verb = some (Console.canonical v)
  | _ => False

/-- What the change is given to register.  A declared command has its grammar built first. -/
def given? (c : Console σ) : Change σ → Option (Content σ)
  | register _ description g run | registerVerb _ _ description g run =>
    some ⟨description, some (.parsed g run)⟩
  | registerRaw _ description run | registerRawVerb _ _ description run =>
    some ⟨description, some (.raw run)⟩
  | registerVerbs _ description => some ⟨description, none⟩
  | registerCommand _ description command run
  | registerVerbCommand _ _ description command run =>
    (command.grammar c.registry).1.toOption.map fun g =>
      ⟨description, some (.parsed g (Console.commandHandler command run))⟩
  | unregister _ | unregisterVerb _ _ | setPrinter _ | setRegistry _ => none

/-- What an accepted change does to the table of commands, `given` being what it is given. -/
inductive Edits (given : Option (Content σ)) :
    Change σ → NameTable (Entry σ) → NameTable (Entry σ) → Prop
  | command {change t} (name : String) (e : Entry σ) (hadds : change.Adds name none)
      (hgiven : given = some e.content) (hname : IsName name) (hhelp : name ≠ Console.helpName)
      (hnew : t.find? name = none) (hverbs : ∀ table, e.action = .verbs table → table = {}) :
      Edits given change t (t.insert name e)
  | verb {change t description table} (name verb : String) (v : Verb σ)
      (hadds : change.Adds name (some verb)) (hgiven : given = some v.content)
      (hverb : IsName verb) (hentry : t.find? name = some ⟨description, .verbs table⟩)
      (hnew : table.find? verb = none) :
      Edits given change t (t.insert name ⟨description, .verbs (table.insert verb v)⟩)
  | removal {t e} (n : String) (hold : t.find? (Console.canonical n) = some e) :
      Edits given (.unregister n) t (t.erase (Console.canonical n))
  | verbRemoval {t description table w} (n v : String)
      (hentry : t.find? (Console.canonical n) = some ⟨description, .verbs table⟩)
      (hold : table.find? (Console.canonical v) = some w) :
      Edits given (.unregisterVerb n v) t
        (t.insert (Console.canonical n) ⟨description, .verbs (table.erase (Console.canonical v))⟩)
  | printer {t printer} : Edits given (.setPrinter printer) t t
  | registry {t registry} : Edits given (.setRegistry registry) t t

variable {change : Change σ} {c : Console σ} {t t' : NameTable (Entry σ)} {name : String}
  {verb : Option String} {given : Option (Content σ)}

/-- A change registers at most one thing. -/
theorem Adds.iff {name' : String} {verb' : Option String} (h : change.Adds name verb) :
    change.Adds name' verb' ↔ name' = name ∧ verb' = verb := by
  constructor
  · intro h'
    cases change <;> first
      | exact h.elim
      | exact ⟨h'.1.symm.trans h.1, h'.2.trans h.2.symm⟩
  · rintro ⟨rfl, rfl⟩
    exact h

/-- A change that registers removes nothing. -/
theorem Adds.not_removes {name' : String} {verb' : Option String} (h : change.Adds name verb) :
    ¬change.Removes name' verb' := by
  cases change <;> first
    | exact h.elim
    | exact fun h => h

end Change

/-! ## one change -/

namespace Console

open Change (Edits errorOf unlessRefused)

variable {c : Console σ} {change : Change σ}

theorem unregister_eq_ok_iff {c' : Console σ} {name : String} :
    c.unregister name = .ok c' ↔ ∃ e, c.commands.find? (canonical name) = some e ∧
      c' = { c with commands := c.commands.erase (canonical name) } := by
  simp only [Console.unregister]
  constructor
  · intro h
    split at h
    · next hold =>
        obtain ⟨e, he⟩ := NameTable.contains_iff.1 hold
        exact ⟨e, he, (Except.ok.inj h).symm⟩
    · cases h
  · intro h
    obtain ⟨e, he, rfl⟩ := h
    rw [if_pos (NameTable.contains_iff.2 ⟨e, he⟩)]

theorem verbTable_of_find? {name description : String} {table : NameTable (Verb σ)}
    (h : c.commands.find? (canonical name) = some ⟨description, .verbs table⟩) :
    c.verbTable name = .ok (canonical name, description, table) := by
  simp only [verbTable, h]

theorem unregisterVerb_eq_ok_iff {c' : Console σ} {name verb : String} :
    c.unregisterVerb name verb = .ok c' ↔ ∃ description table v,
      c.commands.find? (canonical name) = some ⟨description, .verbs table⟩ ∧
      table.find? (canonical verb) = some v ∧
      c' = c.setVerbs (canonical name) description (table.erase (canonical verb)) := by
  constructor
  · intro h
    obtain ⟨⟨_, description, table⟩, htable, h⟩ := Grammar.bind_eq_ok_iff.1 h
    obtain ⟨rfl, hentry⟩ := verbTable_eq_ok htable
    simp only at h
    split at h
    · next hold =>
        obtain ⟨v, hv⟩ := NameTable.contains_iff.1 hold
        exact ⟨description, table, v, hentry, hv, (Except.ok.inj h).symm⟩
    · cases h
  · intro h
    obtain ⟨description, table, v, hentry, hv, rfl⟩ := h
    refine Grammar.bind_eq_ok_iff.2 ⟨_, verbTable_of_find? hentry, ?_⟩
    exact if_pos (NameTable.contains_iff.2 ⟨v, hv⟩)

/-- The change was refused for that reason, or it was accepted and edited the table. -/
def Refuses (c : Console σ) (change : Change σ) (refusal : Option ConsoleError) (c' : Console σ) :
    Prop :=
  (∃ e, refusal = some e ∧ c'.commands = c.commands) ∨
    refusal = none ∧ change.Edits (change.given? c) c.commands c'.commands

theorem refuses_unlessRefused {outcome : Except ConsoleError (Console σ)}
    (h : ∀ c', outcome = .ok c' → change.Edits (change.given? c) c.commands c'.commands) :
    c.Refuses change (errorOf outcome) (unlessRefused c outcome) := by
  cases outcome with
  | error e => exact .inl ⟨e, rfl, rfl⟩
  | ok c' => exact .inr ⟨rfl, h c' rfl⟩

theorem refuses_addCommand {command : Command}
    {add : Console σ → Grammar → Except ConsoleError (Console σ)}
    (h : ∀ g c₁ c', (command.grammar c.registry).1.toOption = some g → add c₁ g = .ok c' →
      change.Edits (change.given? c) c₁.commands c'.commands) :
    c.Refuses change (errorOf (c.addCommand command add).1) (c.addCommand command add).2 := by
  rcases addCommand_cases c command add with ⟨e, he, hsame⟩ | ⟨g, c', hadd, hg, hc'⟩
  · exact .inl ⟨e, by rw [he]; rfl, hsame⟩
  · rw [hadd]
    have hedits := h g _ c' (by rw [hg]; rfl) hc'
    exact .inr ⟨rfl, hedits⟩

variable {given : Option (Content σ)}

theorem edits_insert {c c' : Console σ} {name : String} {e : Entry σ}
    (h : c.insert name e = .ok c') (hadds : change.Adds (canonical name) none)
    (hgiven : given = some e.content) (hverbs : ∀ table, e.action = .verbs table → table = {}) :
    change.Edits given c.commands c'.commands := by
  obtain ⟨hhelp, hnew, rfl⟩ := insert_eq_ok h
  exact .command _ e hadds hgiven (isName_of_insert h) hhelp hnew hverbs

theorem edits_insertVerb {c c' : Console σ} {name verb : String} {v : Verb σ}
    (h : c.insertVerb name verb v = .ok c')
    (hadds : change.Adds (canonical name) (some (canonical verb)))
    (hgiven : given = some v.content) : change.Edits given c.commands c'.commands := by
  obtain ⟨description, table, hentry, hnew, rfl⟩ := insertVerb_eq_ok h
  exact .verb _ _ v hadds hgiven (isName_of_insertVerb h) hentry hnew

/-- **A change is refused, or it edits the table at the names that it is about**, with what it is
given. -/
theorem apply_cases (change : Change σ) (c : Console σ) :
    c.Refuses change (change.refusal? c) (change.apply c) := by
  cases change with
  | register | registerRaw =>
      rw [Change.refusal?, Change.apply]
      exact refuses_unlessRefused fun _ h => edits_insert h ⟨rfl, rfl⟩ rfl (by simp)
  | registerVerbs =>
      rw [Change.refusal?, Change.apply]
      exact refuses_unlessRefused fun _ h =>
        edits_insert h ⟨rfl, rfl⟩ rfl fun _ hverbs => (Action.verbs.inj hverbs).symm
  | registerCommand name description command run =>
      rw [Change.refusal?, Change.apply]
      refine refuses_addCommand fun g c₁ c' hg h => ?_
      have hgiven : (Change.registerCommand name description command run).given? c =
          some (Entry.content ⟨description, .run (.parsed g (commandHandler command run))⟩) := by
        rw [Change.given?, hg]
        rfl
      exact edits_insert h ⟨rfl, rfl⟩ hgiven (by simp)
  | registerVerb | registerRawVerb =>
      rw [Change.refusal?, Change.apply]
      exact refuses_unlessRefused fun _ h => edits_insertVerb h ⟨rfl, rfl⟩ rfl
  | registerVerbCommand name verb description command run =>
      rw [Change.refusal?, Change.apply]
      refine refuses_addCommand fun g c₁ c' hg h => ?_
      have hgiven : (Change.registerVerbCommand name verb description command run).given? c =
          some (Verb.content ⟨description, .parsed g (commandHandler command run)⟩) := by
        rw [Change.given?, hg]
        rfl
      exact edits_insertVerb h ⟨rfl, rfl⟩ hgiven
  | unregister name =>
      rw [Change.refusal?, Change.apply]
      refine refuses_unlessRefused fun c' h => ?_
      obtain ⟨e, hold, rfl⟩ := unregister_eq_ok_iff.1 h
      exact .removal name hold
  | unregisterVerb name verb =>
      rw [Change.refusal?, Change.apply]
      refine refuses_unlessRefused fun c' h => ?_
      obtain ⟨description, table, v, hentry, hold, rfl⟩ := unregisterVerb_eq_ok_iff.1 h
      exact .verbRemoval name verb hentry hold
  | setPrinter | setRegistry => exact .inr ⟨rfl, by constructor⟩

end Console

/-! ## the form of the table -/

/-- Names are unique, in increasing order and well-formed, those of commands and those of verbs,
and no command is called `help`. -/
structure WellKept (t : NameTable (Entry σ)) : Prop where
  increasing : t.Increasing
  isName : ∀ name ∈ t.names, IsName name
  ne_help : Console.helpName ∉ t.names
  verbs : ∀ {name description table}, t.find? name = some ⟨description, .verbs table⟩ →
    table.Increasing ∧ ∀ verb ∈ table.names, IsName verb

namespace WellKept

variable {t t' : NameTable (Entry σ)} {name description : String} {e : Entry σ}
  {table : NameTable (Verb σ)} {change : Change σ}

theorem empty : WellKept ({} : NameTable (Entry σ)) where
  increasing := NameTable.increasing_empty
  isName _ h := absurd h List.not_mem_nil
  ne_help := List.not_mem_nil
  verbs h := by cases h

/-- A command has a well-formed name, and it is not the built-in command. -/
theorem isName_of_find? (h : WellKept t) (hentry : t.find? name = some e) : IsName name :=
  h.isName name (NameTable.mem_names_iff.2 ⟨e, hentry⟩)

theorem ne_help_of_find? (h : WellKept t) (hentry : t.find? name = some e) :
    name ≠ Console.helpName := fun hname =>
  h.ne_help (hname ▸ NameTable.mem_names_iff.2 ⟨e, hentry⟩)

/-- A well-formed entry may be stored under a well-formed name. -/
theorem insert (h : WellKept t) (hname : IsName name) (hhelp : name ≠ Console.helpName)
    (hverbs : ∀ table, e.action = .verbs table →
      table.Increasing ∧ ∀ verb ∈ table.names, IsName verb) : WellKept (t.insert name e) where
  increasing := h.increasing.insert name e
  isName n hn := by
    rcases NameTable.mem_names_insert.1 hn with rfl | hn
    · exact hname
    · exact h.isName n hn
  ne_help hn := by
    rcases NameTable.mem_names_insert.1 hn with he | hn
    · exact hhelp he.symm
    · exact h.ne_help hn
  verbs {n _ _} hn := by
    by_cases he : n = name
    · rw [he, NameTable.find?_insert_self] at hn
      exact hverbs _ (congrArg Entry.action (Option.some.inj hn))
    · rw [NameTable.find?_insert_of_ne he] at hn
      exact h.verbs hn

/-- The verbs of a command may be exchanged for well-formed ones. -/
theorem setVerbs (h : WellKept t) (hentry : t.find? name = some ⟨description, .verbs table⟩)
    {table' : NameTable (Verb σ)} (hincreasing : table'.Increasing)
    (hnames : ∀ verb ∈ table'.names, IsName verb) :
    WellKept (t.insert name ⟨description, .verbs table'⟩) := by
  refine h.insert (h.isName_of_find? hentry) (h.ne_help_of_find? hentry) fun table hverbs => ?_
  obtain rfl := Action.verbs.inj hverbs
  exact ⟨hincreasing, hnames⟩

theorem erase (h : WellKept t) (name : String) : WellKept (t.erase name) where
  increasing := h.increasing.erase name
  isName n hn := h.isName n (NameTable.mem_names_erase.1 hn).2
  ne_help hn := h.ne_help (NameTable.mem_names_erase.1 hn).2
  verbs {n _ _} hn := by
    by_cases he : n = name
    · rw [he, NameTable.find?_erase_self] at hn
      cases hn
    · rw [NameTable.find?_erase_of_ne he] at hn
      exact h.verbs hn

/-- **Every edit keeps the form of the table.** -/
theorem edits (h : WellKept t) {given : Option (Content σ)}
    (hedits : change.Edits given t t') : WellKept t' := by
  cases hedits with
  | command name e hadds hgiven hname hhelp hnew hverbs =>
      refine h.insert hname hhelp fun table htable => ?_
      rw [hverbs table htable]
      exact ⟨NameTable.increasing_empty, fun _ hv => absurd hv List.not_mem_nil⟩
  | verb name verb v hadds hgiven hverb hentry hnew =>
      obtain ⟨hincreasing, hnames⟩ := h.verbs hentry
      refine h.setVerbs hentry (hincreasing.insert verb v) fun n hn => ?_
      rcases NameTable.mem_names_insert.1 hn with rfl | hn
      · exact hverb
      · exact hnames n hn
  | removal n hold => exact h.erase _
  | verbRemoval n v hentry hold =>
      obtain ⟨hincreasing, hnames⟩ := h.verbs hentry
      exact h.setVerbs hentry (hincreasing.erase _) fun n hn =>
        hnames n (NameTable.mem_names_erase.1 hn).2
  | printer | registry => exact h

/-- No handler stands under the name of the built-in command. -/
theorem ne_help_of_holds {verb : Option String} {handler : Handler σ} (h : WellKept t)
    (hat : t.Holds name verb handler) : name ≠ Console.helpName := by
  cases hat with
  | command hentry | verb hentry => exact h.ne_help_of_find? hentry

end WellKept

/-- **The table stays well kept**, whether a change is refused or not. -/
theorem Console.wellKept_apply {c : Console σ} (change : Change σ) (h : WellKept c.commands) :
    WellKept (change.apply c).commands := by
  obtain ⟨_, _, hsame⟩ | ⟨_, hedits⟩ := Console.apply_cases change c
  · rwa [hsame]
  · exact h.edits hedits

theorem Console.wellKept_after {c : Console σ} (h : WellKept c.commands)
    (changes : List (Change σ)) : WellKept (c.after changes).commands := by
  induction changes generalizing c with
  | nil => exact h
  | cons change changes ih => exact ih (wellKept_apply change h)

/-! ## what stands under names afterwards -/

namespace Change

variable {change : Change σ} {t t' : NameTable (Entry σ)} {name : String} {verb : Option String}
  {given : Option (Content σ)} {x : Content σ}

/-- **What stands under names after an edit**: what the change registers there, and what stood there
and the change does not remove. -/
theorem Edits.content?_eq_some_iff (h : change.Edits given t t') :
    t'.content? name verb = some x ↔
      change.Adds name verb ∧ given = some x ∨
        t.content? name verb = some x ∧ ¬change.Removes name verb := by
  cases h with
  | command n e hadds hgiven _ _ hnew hverbs =>
      rw [NameTable.content?_insert, Entry.content?_of_no_verbs hverbs, hadds.iff, hgiven]
      by_cases hn : name = n
      · cases verb <;> simp [hn, NameTable.content?_of_find?_eq_none hnew]
      · simp [hn, hadds.not_removes]
  | verb n v w hadds hgiven _ hentry hnew =>
      rw [NameTable.content?_insert, Entry.content?_verbs, hadds.iff, hgiven]
      by_cases hn : name = n
      · subst hn
        rw [NameTable.content?_of_find? hentry, Entry.content?_verbs]
        cases verb with
        | none => simp [hadds.not_removes]
        | some v' =>
            by_cases hv : v' = v
            · simp [hv, NameTable.find?_insert_self, hnew]
            · simp [hv, NameTable.find?_insert_of_ne hv, hadds.not_removes]
      · simp [hn, hadds.not_removes]
  | removal n hold =>
      rw [NameTable.content?_erase]
      by_cases hn : name = Console.canonical n
      · simp [Adds, Removes, hn]
      · simp [Adds, Removes, hn, Ne.symm hn]
  | verbRemoval n v hentry hold =>
      rw [NameTable.content?_insert, Entry.content?_verbs]
      by_cases hn : name = Console.canonical n
      · subst hn
        rw [NameTable.content?_of_find? hentry, Entry.content?_verbs]
        cases verb with
        | none => simp [Adds, Removes]
        | some v' =>
            by_cases hv : v' = Console.canonical v
            · simp [Adds, Removes, hv, NameTable.find?_erase_self]
            · simp [Adds, Removes, hv, NameTable.find?_erase_of_ne hv]
      · simp [Adds, Removes, hn, Ne.symm hn]
  | printer => simp [Adds, Removes]
  | registry => simp [Adds, Removes]

/-- What is registered is what was given. -/
theorem Edits.exists_given (h : change.Edits given t t') (hadds : change.Adds name verb) :
    ∃ x, given = some x := by
  cases h with
  | command _ _ _ hgiven | verb _ _ _ _ hgiven => exact ⟨_, hgiven⟩
  | removal | verbRemoval | printer | registry => exact hadds.elim

/-! ## what is touched -/

/-- The command that the change is about, and the verb if it is about one. -/
def target : Change σ → Option (String × Option String)
  | register n _ _ _ | registerRaw n _ _ | registerVerbs n _ | registerCommand n _ _ _
  | unregister n => some (Console.canonical n, none)
  | registerVerb n v _ _ _ | registerRawVerb n v _ _ | registerVerbCommand n v _ _ _
  | unregisterVerb n v => some (Console.canonical n, some (Console.canonical v))
  | setPrinter _ | setRegistry _ => none

theorem Adds.target_eq (h : change.Adds name verb) : change.target = some (name, verb) := by
  cases change <;> first
    | exact h.elim
    | exact congrArg some (Prod.ext h.1 h.2.symm)

/-- **An edit touches one command**, and of its verbs one if it is about a verb. -/
theorem Edits.touches (h : change.Edits given t t') :
    (∀ name, change.target.map (·.1) ≠ some name → t'.find? name = t.find? name) ∧
      ∀ name verb, change.target = some (name, some verb) → ∃ description table table',
        t.find? name = some ⟨description, .verbs table⟩ ∧
        t'.find? name = some ⟨description, .verbs table'⟩ ∧
        ∀ verb', verb' ≠ verb → table'.find? verb' = table.find? verb' := by
  cases h with
  | command n e hadds =>
      refine ⟨fun name hname => NameTable.find?_insert_of_ne fun he => hname ?_,
        fun name verb htarget => ?_⟩
      · rw [hadds.target_eq, he]
        rfl
      · rw [hadds.target_eq] at htarget
        cases htarget
  | verb n v w hadds _ _ hentry =>
      refine ⟨fun name hname => NameTable.find?_insert_of_ne fun he => hname ?_,
        fun name verb htarget => ?_⟩
      · rw [hadds.target_eq, he]
        rfl
      · rw [hadds.target_eq] at htarget
        cases htarget
        exact ⟨_, _, _, hentry, NameTable.find?_insert_self,
          fun verb' hne => NameTable.find?_insert_of_ne hne⟩
  | removal n hold =>
      refine ⟨fun name hname => NameTable.find?_erase_of_ne fun he => hname ?_,
        fun name verb htarget => ?_⟩
      · rw [target, he, Option.map_some]
      · rw [target] at htarget
        simp at htarget
  | verbRemoval n v hentry hold =>
      refine ⟨fun name hname => NameTable.find?_insert_of_ne fun he => hname ?_,
        fun name verb htarget => ?_⟩
      · rw [target, he, Option.map_some]
      · rw [target, Option.some.injEq, Prod.mk.injEq, Option.some.injEq] at htarget
        obtain ⟨rfl, rfl⟩ := htarget
        exact ⟨_, _, _, hentry, NameTable.find?_insert_self,
          fun verb' hne => NameTable.find?_erase_of_ne hne⟩
  | printer | registry => exact ⟨fun _ _ => rfl, fun _ _ htarget => by cases htarget⟩

end Change

namespace Console

variable {c : Console σ} {change : Change σ} {name : String} {verb : Option String}

/-- What stands there can be removed. -/
theorem not_removes_of_refused {e : ConsoleError} {x : Content σ}
    (h : change.refusal? c = some e) (hx : c.commands.content? name verb = some x) :
    ¬change.Removes name verb := by
  obtain ⟨⟨description, action⟩, hentry, hcontent⟩ := Option.bind_eq_some_iff.1 hx
  cases change with
  | unregister n =>
      rintro rfl
      have hok := unregister_eq_ok_iff.2 ⟨_, hentry, rfl⟩
      rw [Change.refusal?, hok] at h
      cases h
  | unregisterVerb n v =>
      rintro ⟨rfl, rfl⟩
      cases action with
      | run handler => cases hcontent
      | verbs table =>
          obtain ⟨w, hw, -⟩ := Option.map_eq_some_iff.1 hcontent
          have hok := unregisterVerb_eq_ok_iff.2 ⟨description, table, w, hentry, hw, rfl⟩
          rw [Change.refusal?, hok] at h
          cases h
  | _ => exact fun h => h

/-- **What stands under names after a change**: what it registers there unless it is refused, and
what stood there and it does not remove. -/
theorem content?_apply {x : Content σ} : (change.apply c).commands.content? name verb = some x ↔
    (change.Adds name verb ∧ change.refusal? c = none ∧ change.given? c = some x) ∨
      c.commands.content? name verb = some x ∧ ¬change.Removes name verb := by
  rcases apply_cases change c with ⟨e, he, hsame⟩ | ⟨haccepted, hedits⟩
  · rw [hsame, he]
    simpa using fun hx => not_removes_of_refused he hx
  · rw [hedits.content?_eq_some_iff, haccepted]
    simp

/-- What is registered is what was given. -/
theorem exists_given (hadds : change.Adds name verb) (haccepted : change.refusal? c = none) :
    ∃ x, change.given? c = some x := by
  rcases apply_cases change c with ⟨e, he, -⟩ | ⟨-, hedits⟩
  · cases haccepted.symm.trans he
  · exact hedits.exists_given hadds

/-! ## undoing -/

/-- Unregistering a command right after its registration restores the table. -/
theorem unregister_registered (haccepted : change.refusal? c = none)
    (hadds : change.Adds name none) {n : String} (hn : canonical n = name) :
    ∃ c', (change.apply c).unregister n = .ok c' ∧ c'.commands = c.commands := by
  obtain ⟨e, he, -⟩ | ⟨-, hedits⟩ := apply_cases change c
  · cases haccepted.symm.trans he
  · generalize change.apply c = after at hedits ⊢
    generalize htable : after.commands = t' at hedits
    cases hedits with
    | command name' e hadds' _ _ _ hnew =>
        obtain ⟨rfl, -⟩ := hadds.iff.1 hadds'
        obtain rfl := hn
        refine ⟨_, unregister_eq_ok_iff.2 ⟨e, htable ▸ NameTable.find?_insert_self, rfl⟩, ?_⟩
        rw [htable]
        exact NameTable.erase_insert hnew
    | verb name' verb' _ hadds' => cases (hadds.iff.1 hadds').2
    | removal | verbRemoval | printer | registry => exact hadds.elim

/-- Unregistering a verb right after its registration restores the table. -/
theorem unregisterVerb_registered {verb : String} (hc : c.commands.Increasing)
    (haccepted : change.refusal? c = none) (hadds : change.Adds name (some verb)) {n v : String}
    (hn : canonical n = name) (hv : canonical v = verb) :
    ∃ c', (change.apply c).unregisterVerb n v = .ok c' ∧ c'.commands = c.commands := by
  obtain ⟨e, he, -⟩ | ⟨-, hedits⟩ := apply_cases change c
  · cases haccepted.symm.trans he
  · generalize change.apply c = after at hedits ⊢
    generalize htable : after.commands = t' at hedits
    cases hedits with
    | command name' e hadds' => cases (hadds.iff.1 hadds').2
    | verb name' verb' w hadds' _ _ hentry hnew =>
        obtain ⟨rfl, hverb⟩ := hadds.iff.1 hadds'
        obtain rfl := Option.some.inj hverb
        obtain rfl := hn
        obtain rfl := hv
        refine ⟨_, unregisterVerb_eq_ok_iff.2 ⟨_, _, w, htable ▸ NameTable.find?_insert_self,
          NameTable.find?_insert_self, rfl⟩, ?_⟩
        rw [setVerbs, htable, NameTable.insert_insert, NameTable.erase_insert hnew]
        exact hc.insert_eq_self hentry
    | removal | verbRemoval | printer | registry => exact hadds.elim

end Console

end TypedConsole
