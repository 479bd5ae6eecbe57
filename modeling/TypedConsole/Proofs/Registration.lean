import TypedConsole.Console
import TypedConsole.Proofs.TypedArguments

/-!
# TypedConsole.Proofs.Registration

The handlers of a console stay under their names, and those of declared commands take what their
grammars parse.

`Change` lists what can be done to a console, and `Step` says once what a change can do to its
table of commands (`step_apply`).  From it follow the two invariants of whole histories: a handler
stays where it was registered until it is removed (`holds_after`), and nothing is ever found
under the name of the built-in command (`find?_help_after`).
-/

namespace TypedConsole

/-! ## tables -/

namespace NameTable

variable {α : Type} {t : NameTable α} {name name' : String} {a : α}

theorem contains_eq_false_iff : t.contains name = false ↔ t.find? name = none := by
  rw [contains, Option.isSome_eq_false_iff, Option.isNone_iff_eq_none]

theorem find?_insert_self : (t.insert name a).find? name = some a := by
  obtain ⟨entries⟩ := t
  simp only [insert, find?]
  induction entries with
  | nil => simp [insertEntry]
  | cons e es ih =>
      simp only [insertEntry]
      split
      · simp
      · split
        · simp
        · next hne => simpa [List.find?_cons, Ne.symm hne] using ih

theorem find?_insert_of_ne (h : name' ≠ name) : (t.insert name a).find? name' = t.find? name' := by
  obtain ⟨entries⟩ := t
  simp only [insert, find?]
  induction entries with
  | nil => simp [insertEntry, h.symm]
  | cons e es ih =>
      simp only [insertEntry]
      split
      · simp [List.find?_cons, h.symm]
      · split
        · next heq => simp [← heq, h.symm]
        · by_cases he : e.1 = name'
          · simp [he]
          · simpa [List.find?_cons, he] using ih

theorem find?_erase_of_ne (h : name' ≠ name) : (t.erase name).find? name' = t.find? name' := by
  simp only [erase, find?, List.find?_filter]
  congr 2
  funext e
  by_cases he : e.1 = name' <;> simp [he, h]

theorem find?_erase_eq_none (h : t.find? name' = none) : (t.erase name).find? name' = none := by
  by_cases hne : name' = name
  · subst hne
    simp [erase, find?, List.find?_filter]
  · rw [find?_erase_of_ne hne, h]

end NameTable

/-! ## handlers -/

variable {σ : Type}

/-- `Holds t name verb handler`: the handler stands under the name of a command, or under the names
of a command and a verb. -/
inductive NameTable.Holds (t : NameTable (Entry σ)) : String → Option String → Handler σ → Prop
  | command (h : t.find? name = some ⟨description, .run handler⟩) : Holds t name none handler
  | verb (h : t.find? name = some ⟨description, .verbs table⟩) (hv : table.find? verb = some v) :
      Holds t name (some verb) v.handler

/-- What stands under the names of a command is decided by the entry of the command. -/
theorem NameTable.Holds.of_find?_eq {t t' : NameTable (Entry σ)} {name : String}
    {verb : Option String} {handler : Handler σ} (h : t.Holds name verb handler)
    (heq : t'.find? name = t.find? name) : t'.Holds name verb handler := by
  cases h with
  | command hentry => exact .command (heq.trans hentry)
  | verb hentry hv => exact .verb (heq.trans hentry) hv

/-- The handler can take its arguments from whatever its grammar parsed. -/
def Handler.Takes : Handler σ → Prop
  | .parsed g run => ∀ special text args state, g.parse special text = .ok args →
    ∃ output, (run args state).1 = .ok output
  | .raw _ => True

namespace Console

/-- **The handler of a declared command takes what its grammar parsed.** -/
theorem takes_commandHandler {command : Command} {r : Registry} {g : Grammar}
    (hcommand : ∀ f ∈ command.fields, f.parameter.Declared) (hb : (command.grammar r).1 = .ok g)
    (run : List Value → σ → String × σ) :
    (Handler.parsed g (commandHandler command run)).Takes := by
  intro special text args state hparse
  have hdeclared : ∀ p ∈ command.fields.map (·.parameter), p.Declared :=
    List.forall_mem_map.2 hcommand
  obtain ⟨vs, hvs, -⟩ :=
    Command.fromArguments_eq_ok (Grammar.matches_of_parse hdeclared hb hparse)
  exact ⟨(run vs state).1, by simp only [commandHandler, hvs]⟩

/-- A handler that can take its arguments does not fail to. -/
theorem runHandler_ne_arguments (c : Console σ) {h : Handler σ} (hh : h.Takes) (name : String)
    (text : List Char) (state : σ) (e : ArgumentError) :
    (c.runHandler name text h state).1 ≠ .error (.arguments e) := by
  cases h with
  | raw run => simp [runHandler]
  | parsed g run =>
      simp only [runHandler]
      split
      · simp
      · next args hparse =>
          obtain ⟨output, hrun⟩ := hh _ _ _ state hparse
          simp [hrun, Except.mapError]

/-! ## executing -/

/-- The first word of the line is the name in any letter case, and `text` follows it. -/
def Calls (line : List Char) (name : String) (text : List Char) : Prop :=
  ∃ word, Text.splitWord line = some (word, text) ∧ Text.lowercase (String.ofList word) = name

/-- `Addresses line name verb`: the line calls the command, or the verb of the command. -/
inductive Addresses : List Char → String → Option String → Prop
  | command (h : Calls line name text) : Addresses line name none
  | verb (h : Calls line name text) (hv : Calls text verb rest) : Addresses line name (some verb)

/-- A line that calls a handler which can take its arguments does not end with one that cannot be
taken. -/
theorem execute_ne_arguments {c : Console σ} {name : String} {verb : Option String}
    {h : Handler σ} (hname : name ≠ helpName) (hat : c.commands.Holds name verb h)
    (hh : h.Takes) {line : List Char} (hline : Addresses line name verb) (state : σ)
    (e : ArgumentError) : (c.execute line state).1 ≠ .error (.arguments e) := by
  cases hline with
  | @command text hcalls =>
      obtain ⟨word, hsplit, rfl⟩ := hcalls
      cases hat with
      | command hentry =>
          simp only [execute, hsplit, if_neg hname, hentry, runEntry]
          exact c.runHandler_ne_arguments hh _ text state e
  | @verb text verb rest hcalls hverb =>
      obtain ⟨word, hsplit, rfl⟩ := hcalls
      obtain ⟨word', hsplit', rfl⟩ := hverb
      cases hat with
      | verb hentry hv =>
          simp only [execute, hsplit, if_neg hname, hentry, runEntry, hsplit', hv]
          exact c.runHandler_ne_arguments hh _ rest state e

end Console

/-! ## changes -/

/-- What can be done to a console. -/
inductive Change (σ : Type)
  | register (name description : String) (g : Grammar)
      (run : Arguments → σ → Except ArgumentError String × σ)
  | registerRaw (name description : String) (run : String → σ → String × σ)
  | registerVerbs (name description : String)
  | registerCommand (name description : String) (command : Command)
      (run : List Value → σ → String × σ)
  | registerVerb (name verb description : String) (g : Grammar)
      (run : Arguments → σ → Except ArgumentError String × σ)
  | registerRawVerb (name verb description : String) (run : String → σ → String × σ)
  | registerVerbCommand (name verb description : String) (command : Command)
      (run : List Value → σ → String × σ)
  | unregister (name : String)
  | unregisterVerb (name verb : String)
  | setPrinter (printer : Printer)
  | setRegistry (registry : Registry)

namespace Change

/-- Refused changes leave a console as it is. -/
def unlessRefused (c : Console σ) : Except ConsoleError (Console σ) → Console σ
  | .ok c' => c'
  | .error _ => c

/-- The console after a change. -/
def apply (c : Console σ) : Change σ → Console σ
  | register name description g run => unlessRefused c (c.register name description g run)
  | registerRaw name description run => unlessRefused c (c.registerRaw name description run)
  | registerVerbs name description => unlessRefused c (c.registerVerbs name description)
  | registerCommand name description command run =>
    (c.registerCommand name description command run).2
  | registerVerb name verb description g run =>
    unlessRefused c (c.registerVerb name verb description g run)
  | registerRawVerb name verb description run =>
    unlessRefused c (c.registerRawVerb name verb description run)
  | registerVerbCommand name verb description command run =>
    (c.registerVerbCommand name verb description command run).2
  | unregister name => unlessRefused c (c.unregister name)
  | unregisterVerb name verb => unlessRefused c (c.unregisterVerb name verb)
  | setPrinter printer => { c with printer }
  | setRegistry registry => { c with registry }

/-- The change removes the command, or the verb of the command. Verbs go with their command. -/
def Removes (name : String) (verb : Option String) : Change σ → Prop
  | unregister n => Console.canonical n = name
  | unregisterVerb n v => Console.canonical n = name ∧ verb = some (Console.canonical v)
  | _ => False

/-- What a change can do to the table of commands. -/
inductive Step (change : Change σ) (t : NameTable (Entry σ)) : NameTable (Entry σ) → Prop
  | same : Step change t t
  | command (hname : name ≠ Console.helpName) (hnew : t.find? name = none) (e : Entry σ) :
      Step change t (t.insert name e)
  | removal (hremoves : ∀ verb, change.Removes name verb) : Step change t (t.erase name)
  | verb (hentry : t.find? name = some ⟨description, .verbs table⟩)
      (hnew : table.find? verb = none) (v : Verb σ) :
      Step change t (t.insert name ⟨description, .verbs (table.insert verb v)⟩)
  | verbRemoval (hentry : t.find? name = some ⟨description, .verbs table⟩)
      (hremoves : change.Removes name (some verb)) :
      Step change t (t.insert name ⟨description, .verbs (table.erase verb)⟩)

end Change

namespace Console

open Grammar (bind_eq_ok_iff)

variable {c c' : Console σ} {name verb : String}

theorem normalize_eq_ok {lowered : String} (h : normalize name = .ok lowered) :
    lowered = canonical name := by
  simp only [normalize] at h
  split at h
  · cases h
  · exact (Except.ok.inj h).symm

/-- An entry is registered under a new name. -/
theorem insert_eq_ok {e : Entry σ} (h : c.insert name e = .ok c') :
    canonical name ≠ helpName ∧ c.commands.find? (canonical name) = none ∧
      c' = { c with commands := c.commands.insert (canonical name) e } := by
  obtain ⟨lowered, hlowered, h⟩ := bind_eq_ok_iff.1 h
  obtain rfl := normalize_eq_ok hlowered
  split at h
  · cases h
  · next hnew =>
      rw [Bool.or_eq_true, not_or, decide_eq_true_eq, Bool.not_eq_true,
        NameTable.contains_eq_false_iff] at hnew
      exact ⟨hnew.1, hnew.2, (Except.ok.inj h).symm⟩

theorem verbTable_eq_ok {command lowered description : String} {table : NameTable (Verb σ)}
    (h : c.verbTable command = .ok (lowered, description, table)) :
    lowered = canonical command ∧
      c.commands.find? (canonical command) = some ⟨description, .verbs table⟩ := by
  simp only [verbTable] at h
  split at h
  · next hentry =>
      obtain ⟨rfl, rfl, rfl⟩ : _ ∧ _ ∧ _ := by simpa using h
      exact ⟨rfl, hentry⟩
  · cases h
  · cases h

/-- A verb is registered under a name that is new among the verbs of a command. -/
theorem insertVerb_eq_ok {v : Verb σ} (h : c.insertVerb name verb v = .ok c') :
    ∃ description table,
      c.commands.find? (canonical name) = some ⟨description, .verbs table⟩ ∧
      table.find? (canonical verb) = none ∧
      c' = c.setVerbs (canonical name) description (table.insert (canonical verb) v) := by
  obtain ⟨lowered, hlowered, h⟩ := bind_eq_ok_iff.1 h
  obtain rfl := normalize_eq_ok hlowered
  obtain ⟨⟨_, description, table⟩, htable, h⟩ := bind_eq_ok_iff.1 h
  obtain ⟨rfl, hentry⟩ := verbTable_eq_ok htable
  simp only at h
  split at h
  · cases h
  · next hnew =>
      rw [Bool.not_eq_true, NameTable.contains_eq_false_iff] at hnew
      exact ⟨description, table, hentry, hnew, (Except.ok.inj h).symm⟩

theorem unregisterVerb_eq_ok (h : c.unregisterVerb name verb = .ok c') :
    ∃ description table,
      c.commands.find? (canonical name) = some ⟨description, .verbs table⟩ ∧
      c' = c.setVerbs (canonical name) description (table.erase (canonical verb)) := by
  obtain ⟨⟨_, description, table⟩, htable, h⟩ := bind_eq_ok_iff.1 h
  obtain ⟨rfl, hentry⟩ := verbTable_eq_ok htable
  simp only at h
  split at h
  · exact ⟨description, table, hentry, (Except.ok.inj h).symm⟩
  · cases h

/-- A declared command is added with its grammar, or not at all. -/
theorem addCommand_cases (c : Console σ) (command : Command)
    (add : Console σ → Grammar → Except ConsoleError (Console σ)) :
    (∃ e, (c.addCommand command add).1 = .error e ∧
      (c.addCommand command add).2.commands = c.commands) ∨
    ∃ g c', (c.addCommand command add) = (.ok (), c') ∧ (command.grammar c.registry).1 = .ok g ∧
      add { c with registry := (command.grammar c.registry).2 } g = .ok c' := by
  simp only [addCommand]
  split
  · exact .inl ⟨_, rfl, rfl⟩
  · next g hg =>
      split
      · exact .inl ⟨_, rfl, rfl⟩
      · next c' hc' => exact .inr ⟨g, c', rfl, hg, hc'⟩

/-! ## one change -/

/-- Adding a declared command does to the table what registering its grammar does. -/
theorem step_addCommand {change : Change σ} {c : Console σ} {command : Command}
    {add : Console σ → Grammar → Except ConsoleError (Console σ)}
    (h : ∀ c g c', add c g = .ok c' → change.Step c.commands c'.commands) :
    change.Step c.commands (c.addCommand command add).2.commands := by
  rcases addCommand_cases c command add with ⟨_, -, hsame⟩ | ⟨g, c', hadd, -, hc'⟩
  · rw [hsame]
    exact .same
  · rw [hadd]
    exact h { c with registry := (command.grammar c.registry).2 } g c' hc'

/-- An accepted change is a step if what it does is, and so is a refused one. -/
theorem step_unlessRefused {change : Change σ} {c : Console σ}
    {outcome : Except ConsoleError (Console σ)}
    (h : ∀ c', outcome = .ok c' → change.Step c.commands c'.commands) :
    change.Step c.commands (Change.unlessRefused c outcome).commands := by
  cases outcome with
  | error e => exact .same
  | ok c' => exact h c' rfl

theorem step_insert {change : Change σ} {c c' : Console σ} {name : String} {e : Entry σ}
    (h : c.insert name e = .ok c') : change.Step c.commands c'.commands := by
  obtain ⟨hname, hnew, rfl⟩ := insert_eq_ok h
  exact .command hname hnew e

theorem step_insertVerb {change : Change σ} {c c' : Console σ} {name verb : String} {v : Verb σ}
    (h : c.insertVerb name verb v = .ok c') : change.Step c.commands c'.commands := by
  obtain ⟨description, table, hentry, hnew, rfl⟩ := insertVerb_eq_ok h
  exact .verb hentry hnew v

theorem step_unregister {c c' : Console σ} {name : String} (h : c.unregister name = .ok c') :
    (Change.unregister name).Step c.commands c'.commands := by
  simp only [Console.unregister] at h
  split at h
  · obtain rfl := Except.ok.inj h
    exact .removal fun _ => rfl
  · cases h

/-- **A change does one of five things to the table of commands.** -/
theorem step_apply (change : Change σ) (c : Console σ) :
    change.Step c.commands (change.apply c).commands := by
  cases change with
  | register | registerRaw | registerVerbs =>
      rw [Change.apply]
      exact step_unlessRefused fun _ h => step_insert h
  | registerVerb | registerRawVerb =>
      rw [Change.apply]
      exact step_unlessRefused fun _ h => step_insertVerb h
  | registerCommand =>
      rw [Change.apply]
      exact step_addCommand fun _ _ _ h => step_insert h
  | registerVerbCommand =>
      rw [Change.apply]
      exact step_addCommand fun _ _ _ h => step_insertVerb h
  | unregister name =>
      rw [Change.apply]
      exact step_unlessRefused fun _ h => step_unregister h
  | unregisterVerb name verb =>
      rw [Change.apply]
      refine step_unlessRefused fun _ h => ?_
      obtain ⟨description, table, hentry, rfl⟩ := unregisterVerb_eq_ok h
      exact .verbRemoval hentry ⟨rfl, rfl⟩
  | setPrinter | setRegistry => exact .same

end Console

namespace Change

variable {change : Change σ} {t t' : NameTable (Entry σ)} {name : String} {verb : Option String}
  {h : Handler σ}

/-- The name of a new command is none under which a handler stands. -/
theorem ne_of_holds {name' : String} (hat : t.Holds name verb h) (hnew : t.find? name' = none) :
    name ≠ name' := by
  rintro rfl
  cases hat with
  | command hentry | verb hentry => rw [hentry] at hnew; contradiction

/-- A handler stays under the verb of a command whose verbs change, if its verb is not touched. -/
theorem holds_insert_verbs {name' description : String} {table table' : NameTable (Verb σ)}
    (hat : t.Holds name verb h) (hentry : t.find? name' = some ⟨description, .verbs table⟩)
    (hkept : name = name' → ∀ v, verb = some v → ∀ w, table.find? v = some w →
      table'.find? v = some w) :
    (t.insert name' ⟨description, .verbs table'⟩).Holds name verb h := by
  by_cases hname : name = name'
  · subst hname
    cases hat with
    | command hentry' => rw [hentry'] at hentry; cases hentry
    | verb hentry' hv =>
        rw [hentry'] at hentry
        cases hentry
        exact .verb NameTable.find?_insert_self (hkept rfl _ rfl _ hv)
  · exact hat.of_find?_eq (NameTable.find?_insert_of_ne hname)

/-- **A handler stays under its names unless it is removed.** -/
theorem Step.holds (hstep : change.Step t t') (hat : t.Holds name verb h)
    (hkept : ¬change.Removes name verb) : t'.Holds name verb h := by
  cases hstep with
  | same => exact hat
  | command _ hnew =>
      exact hat.of_find?_eq (NameTable.find?_insert_of_ne (ne_of_holds hat hnew))
  | removal hremoves =>
      exact hat.of_find?_eq (NameTable.find?_erase_of_ne fun hname =>
        hkept (hname ▸ hremoves verb))
  | verb hentry hnew =>
      refine holds_insert_verbs hat hentry fun _ v _ w hw => ?_
      refine (NameTable.find?_insert_of_ne fun hv => ?_).trans hw
      rw [← hv, hw] at hnew
      contradiction
  | verbRemoval hentry hremoves =>
      refine holds_insert_verbs hat hentry fun hname v hverb w hw => ?_
      refine (NameTable.find?_erase_of_ne fun hv => hkept ?_).trans hw
      rw [hname, hverb, hv]
      exact hremoves

/-- Nothing comes to stand under the name of the built-in command. -/
theorem Step.find?_help (hstep : change.Step t t') (hhelp : t.find? Console.helpName = none) :
    t'.find? Console.helpName = none := by
  cases hstep with
  | same => exact hhelp
  | command hname => exact (NameTable.find?_insert_of_ne hname.symm).trans hhelp
  | removal => exact NameTable.find?_erase_eq_none hhelp
  | verb hentry | verbRemoval hentry =>
      refine (NameTable.find?_insert_of_ne fun hname => ?_).trans hhelp
      rw [← hname, hhelp] at hentry
      contradiction

end Change

/-! ## histories -/

namespace Console

variable {c : Console σ} {name : String} {verb : Option String} {h : Handler σ}

/-- The console after changes, one after the other. -/
def after (c : Console σ) (changes : List (Change σ)) : Console σ := changes.foldl Change.apply c

/-- **A handler stays under its names while no change removes it.** -/
theorem holds_after {changes : List (Change σ)} (hat : c.commands.Holds name verb h)
    (hkept : ∀ change ∈ changes, ¬change.Removes name verb) :
    (c.after changes).commands.Holds name verb h := by
  induction changes generalizing c with
  | nil => exact hat
  | cons change changes ih =>
      obtain ⟨hchange, hchanges⟩ := List.forall_mem_cons.1 hkept
      exact ih ((step_apply change c).holds hat hchange) hchanges

/-- **The built-in command is never covered by a registered one.** -/
theorem find?_help_after (changes : List (Change σ))
    (hhelp : c.commands.find? helpName = none) :
    (c.after changes).commands.find? helpName = none := by
  induction changes generalizing c with
  | nil => exact hhelp
  | cons change changes ih => exact ih ((step_apply change c).find?_help hhelp)

/-- A console starts without commands. -/
theorem find?_ofRegistry (r : Registry) (name : String) :
    (ofRegistry r : Console σ).commands.find? name = none := rfl

/-! ## declared commands -/

/-- `Registers c command name verb c'`: registering a declared command, or registering it as a verb
of another command, turns `c` into `c'`. -/
inductive Registers (c : Console σ) (command : Command) :
    String → Option String → Console σ → Prop
  | command {name description : String} {run : List Value → σ → String × σ} {c' : Console σ}
      (h : c.registerCommand name description command run = (.ok (), c')) :
      Registers c command (canonical name) none c'
  | verb {name verb description : String} {run : List Value → σ → String × σ} {c' : Console σ}
      (h : c.registerVerbCommand name verb description command run = (.ok (), c')) :
      Registers c command (canonical name) (some (canonical verb)) c'

variable {c' : Console σ} {command : Command}

/-- A declared command that was added has a grammar. -/
theorem addCommand_eq_ok {add : Console σ → Grammar → Except ConsoleError (Console σ)}
    (h : c.addCommand command add = (.ok (), c')) :
    ∃ g, (command.grammar c.registry).1 = .ok g ∧
      add { c with registry := (command.grammar c.registry).2 } g = .ok c' := by
  rcases addCommand_cases c command add with ⟨e, he, -⟩ | ⟨g, d, hadd, hg, hd⟩
  · rw [h] at he
    cases he
  · obtain rfl := (Prod.mk.inj (hadd.symm.trans h)).2
    exact ⟨g, hg, hd⟩

/-- A declared command that was registered stands under its names, with the grammar of its own. -/
theorem Registers.holds (h : Registers c command name verb c')
    (hhelp : c.commands.find? helpName = none) :
    name ≠ helpName ∧ ∃ g run, (command.grammar c.registry).1 = .ok g ∧
      c'.commands.Holds name verb (.parsed g (commandHandler command run)) := by
  cases h with
  | @command name _ run _ h =>
      obtain ⟨g, hg, hadd⟩ := addCommand_eq_ok h
      obtain ⟨hname, -, rfl⟩ := insert_eq_ok hadd
      exact ⟨hname, g, run, hg, .command NameTable.find?_insert_self⟩
  | @verb name verb _ run _ h =>
      obtain ⟨g, hg, hadd⟩ := addCommand_eq_ok h
      obtain ⟨description, table, hentry, -, rfl⟩ := insertVerb_eq_ok hadd
      refine ⟨fun hname => ?_, g, run, hg,
        .verb NameTable.find?_insert_self NameTable.find?_insert_self⟩
      rw [hname] at hentry
      cases hhelp.symm.trans hentry

/-- **A declared command that is registered never ends with an argument that it cannot take**,
whatever was done to the console before, and whatever is done to it later but for removing the
command. -/
theorem Registers.ne_arguments {r : Registry} {before later : List (Change σ)}
    (h : Registers ((ofRegistry r).after before) command name verb c')
    (hcommand : ∀ f ∈ command.fields, f.parameter.Declared)
    (hkept : ∀ change ∈ later, ¬change.Removes name verb) {line : List Char}
    (hline : Addresses line name verb) (state : σ) (e : ArgumentError) :
    ((c'.after later).execute line state).1 ≠ .error (.arguments e) := by
  obtain ⟨hname, g, run, hg, hat⟩ := h.holds (find?_help_after before (find?_ofRegistry r _))
  exact execute_ne_arguments hname (holds_after hat hkept) (takes_commandHandler hcommand hg run)
    hline state e

end Console

end TypedConsole
