import TypedConsole.Proofs.ConsoleTable

/-!
# TypedConsole.Proofs.ConsoleHistory

Whole histories of calls on a console: registrations and removals that may be refused, queries, and
command lines that run handlers.

`Registered` says of a history what it has registered under which names and not removed since,
without looking at any table.  Exactly this stands in the tables (`content?_afterCalls`), and
`Faithful` collects what holds of a console at every point of its history.
-/

namespace TypedConsole

variable {σ : Type}

/-! ## calls -/

/-- A call on a console. -/
inductive Call (σ : Type)
  | change (change : Change σ)
  | execute (line : List Char)
  | usage (name : String)
  | commands
  | verbs (command : String)

namespace Call

/-- The console and the state of the application after a call. Nothing but a change has an effect
on the console. -/
def apply : Console σ × σ → Call σ → Console σ × σ
  | (c, state), change ch => (ch.apply c, state)
  | (c, state), execute line => (c, (c.execute line state).2)
  | (c, state), usage _ | (c, state), commands | (c, state), verbs _ => (c, state)

/-- The call registers a command under the name, or a verb under the names, with that content, and
is accepted. -/
def Registers (c : Console σ) (name : String) (verb : Option String) (x : Content σ) :
    Call σ → Prop
  | change ch => ch.Adds name verb ∧ ch.refusal? c = none ∧ ch.given? c = some x
  | _ => False

/-- The call removes the command, or the verb of the command. -/
def Removes (name : String) (verb : Option String) : Call σ → Prop
  | change ch => ch.Removes name verb
  | _ => False

variable {c : Console σ} {state : σ} {name : String} {verb : Option String} {x : Content σ}

theorem content?_apply (call : Call σ) :
    (call.apply (c, state)).1.commands.content? name verb = some x ↔
      call.Registers c name verb x ∨
        c.commands.content? name verb = some x ∧ ¬call.Removes name verb := by
  cases call with
  | change ch => exact Console.content?_apply
  | execute | usage | commands | verbs => simp [apply, Registers, Removes]

theorem wellKept_apply (call : Call σ) (h : WellKept c.commands) :
    WellKept (call.apply (c, state)).1.commands := by
  cases call with
  | change ch => exact Console.wellKept_apply ch h
  | execute | usage | commands | verbs => exact h

end Call

namespace Console

/-! ## histories -/

variable {c : Console σ} {state : σ} {calls : List (Call σ)} {name : String}
  {verb : Option String} {x : Content σ}

/-- The console after calls, one after the other, the application being in that state at first. -/
def afterCalls (c : Console σ) (state : σ) (calls : List (Call σ)) : Console σ :=
  (calls.foldl Call.apply (c, state)).1

/-- The history has registered the command, or the verb of the command, with that content, and not
removed it since. -/
def Registered (c : Console σ) (state : σ) (calls : List (Call σ)) (name : String)
    (verb : Option String) (x : Content σ) : Prop :=
  ∃ before call later, calls = before ++ call :: later ∧
    call.Registers (c.afterCalls state before) name verb x ∧
    ∀ call' ∈ later, ¬call'.Removes name verb

/-- One more call at the end of a history. -/
theorem afterCalls_concat (c : Console σ) (state : σ) (calls : List (Call σ)) (call : Call σ) :
    ∃ state', c.afterCalls state (calls ++ [call]) =
      (call.apply (c.afterCalls state calls, state')).1 :=
  ⟨(calls.foldl Call.apply (c, state)).2, by rw [afterCalls, List.foldl_append]; rfl⟩

theorem registered_concat {call : Call σ} : Registered c state (calls ++ [call]) name verb x ↔
    call.Registers (c.afterCalls state calls) name verb x ∨
      Registered c state calls name verb x ∧ ¬call.Removes name verb := by
  constructor
  · rintro ⟨before, call', later, hcalls, hregisters, hkept⟩
    rcases List.eq_nil_or_concat later with rfl | ⟨later, last, rfl⟩
    · obtain ⟨rfl, hcall⟩ := List.append_inj' hcalls rfl
      obtain rfl := List.singleton_inj.1 hcall
      exact .inl hregisters
    · rw [List.concat_eq_append, ← List.cons_append, ← List.append_assoc] at hcalls
      obtain ⟨rfl, hcall⟩ := List.append_inj' hcalls rfl
      obtain rfl := List.singleton_inj.1 hcall
      rw [List.concat_eq_append] at hkept
      exact .inr ⟨⟨before, call', later, rfl, hregisters, fun d hd =>
        hkept d (List.mem_append_left _ hd)⟩, hkept call (by simp)⟩
  · rintro (hregisters | ⟨⟨before, call', later, rfl, hregisters, hkept⟩, hlast⟩)
    · exact ⟨calls, call, [], rfl, hregisters, fun _ h => absurd h List.not_mem_nil⟩
    · refine ⟨before, call', later ++ [call], by simp, hregisters, fun d hd => ?_⟩
      rcases List.mem_append.1 hd with hd | hd
      · exact hkept d hd
      · exact List.mem_singleton.1 hd ▸ hlast

/-- **In the tables stands what was registered and not removed since.** -/
theorem content?_afterCalls (hempty : c.commands = {}) (state : σ) (calls : List (Call σ)) :
    (c.afterCalls state calls).commands.content? name verb = some x ↔
      Registered c state calls name verb x := by
  induction calls using List.reverseRecOn with
  | nil =>
      constructor
      · intro h
        rw [afterCalls, List.foldl_nil, hempty] at h
        cases h
      · rintro ⟨before, call, later, h, -⟩
        simp at h
  | append_singleton calls call ih =>
      obtain ⟨state', hafter⟩ := afterCalls_concat c state calls call
      rw [hafter, call.content?_apply, registered_concat, ih]

/-- The table of commands is well kept throughout. -/
theorem wellKept_afterCalls (hempty : c.commands = {}) (state : σ) (calls : List (Call σ)) :
    WellKept (c.afterCalls state calls).commands := by
  induction calls using List.reverseRecOn with
  | nil =>
      rw [afterCalls, List.foldl_nil, hempty]
      exact .empty
  | append_singleton calls call ih =>
      obtain ⟨state', hafter⟩ := afterCalls_concat c state calls call
      exact hafter ▸ call.wellKept_apply ih

/-! ## reaching a handler -/

/-- `Served c name text state handler result`: the handler is run once on what the text says, or the
text does not fit its grammar and the handler is not run, so that the state is the same. -/
inductive Served (c : Console σ) (name : String) (text : List Char) (state : σ) :
    Handler σ → Except ExecuteError String × σ → Prop
  | raw (run : String → σ → String × σ) :
      Served c name text state (.raw run) (.ok (run (Text.trim (String.ofList text)) state).1,
        (run (Text.trim (String.ofList text)) state).2)
  | parsed (g : Grammar) (run : Arguments → σ → Except ArgumentError String × σ) {args : Arguments}
      (h : g.parse c.registry.special text = .ok args) :
      Served c name text state (.parsed g run)
        ((run args state).1.mapError .arguments, (run args state).2)
  | refused (g : Grammar) (run : Arguments → σ → Except ArgumentError String × σ) {e : ParseError}
      (h : g.parse c.registry.special text = .error e) :
      Served c name text state (.parsed g run)
        (.error (.usage name (Printer.usage name g) e), state)

theorem served_runHandler (c : Console σ) (name : String) (text : List Char) (h : Handler σ)
    (state : σ) : Served c name text state h (c.runHandler name text h state) := by
  cases h with
  | raw run => exact .raw run
  | parsed g run =>
      rw [runHandler]
      split
      · next e he => exact .refused g run he
      · next args hargs => exact .parsed g run hargs

/-- A line whose first word is the name of a command reaches its handler. -/
theorem served_command {h : Handler σ} {line text : List Char} (hhelp : name ≠ helpName)
    (hat : c.commands.Holds name none h) (hline : Calls line name text) (state : σ) :
    Served c name text state h (c.execute line state) := by
  obtain ⟨word, hsplit, rfl⟩ := hline
  cases hat with
  | command hentry =>
      simp only [execute, hsplit, if_neg hhelp, hentry, runEntry]
      exact served_runHandler c _ text h state

/-- A line whose first words are the names of a command and of its verb reaches the handler of the
verb. -/
theorem served_verb {verb : String} {h : Handler σ} {line text rest : List Char}
    (hhelp : name ≠ helpName) (hat : c.commands.Holds name (some verb) h)
    (hline : Calls line name text) (htext : Calls text verb rest) (state : σ) :
    Served c s!"{name} {verb}" rest state h (c.execute line state) := by
  obtain ⟨word, hsplit, rfl⟩ := hline
  obtain ⟨word', hsplit', rfl⟩ := htext
  cases hat with
  | verb hentry hv =>
      simp only [execute, hsplit, if_neg hhelp, hentry, runEntry, hsplit', hv]
      exact served_runHandler c _ rest _ state

/-! ## listings -/

theorem map_commandRows (c : Console σ) : c.commandRows.map (·.1) = c.commands.names := by
  simp [commandRows, NameTable.names]

theorem mem_commandRows {c : Console σ} :
    name ∈ c.commandRows.map (·.1) ↔ c.commands.Lists name none := by
  rw [map_commandRows, NameTable.mem_names_iff, NameTable.Lists]
  constructor
  · rintro ⟨e, he⟩
    exact ⟨e.content, NameTable.content?_of_find? he⟩
  · rintro ⟨x, hx⟩
    obtain ⟨e, he, -⟩ := Option.bind_eq_some_iff.1 hx
    exact ⟨e, he⟩

theorem verbRows_eq_some_iff {c : Console σ} {rows : List (String × String)} :
    c.verbRows name = some rows ↔ ∃ description table,
      c.commands.find? (canonical name) = some ⟨description, .verbs table⟩ ∧
        rows = table.verbRows := by
  simp only [verbRows]
  constructor
  · intro h
    split at h
    · next hentry => exact ⟨_, _, hentry, (Option.some.inj h).symm⟩
    · cases h
  · rintro ⟨description, table, hentry, rfl⟩
    rw [hentry]

theorem map_verbRows (table : NameTable (Verb σ)) : table.verbRows.map (·.1) = table.names := by
  simp [NameTable.verbRows, NameTable.names]

theorem mem_verbRows {c : Console σ} {verb : String} :
    (∃ rows, c.verbRows name = some rows ∧ verb ∈ rows.map (·.1)) ↔
      c.commands.Lists (canonical name) (some verb) := by
  simp only [verbRows_eq_some_iff, NameTable.Lists]
  constructor
  · rintro ⟨rows, ⟨description, table, hentry, rfl⟩, hverb⟩
    rw [map_verbRows, NameTable.mem_names_iff] at hverb
    obtain ⟨v, hv⟩ := hverb
    refine ⟨v.content, ?_⟩
    rw [NameTable.content?_of_find? hentry, Entry.content?_verbs]
    simp [hv]
  · rintro ⟨x, hx⟩
    obtain ⟨⟨description, action⟩, hentry, hcontent⟩ := Option.bind_eq_some_iff.1 hx
    obtain ⟨v, hv, -⟩ := Option.map_eq_some_iff.1 hcontent
    cases action with
    | run handler => cases hv
    | verbs table =>
        refine ⟨_, ⟨description, table, hentry, rfl⟩, ?_⟩
        rw [map_verbRows, NameTable.mem_names_iff]
        exact ⟨v, hv⟩

/-! ## the map -/

/-- `Faithful c₀ state calls c`: what holds of the console `c` after a history of calls on `c₀`. -/
structure Faithful (c₀ : Console σ) (state : σ) (calls : List (Call σ)) (c : Console σ) :
    Prop where
  /-- Names are words in lower case, and no command is called `help`. -/
  wellKept : WellKept c.commands
  /-- In the tables stand the description and the handler that were registered and not removed
  since. -/
  contents : ∀ name verb x, c.commands.content? name verb = some x ↔
    Registered c₀ state calls name verb x
  /-- The commands are those registered and not removed since, in strictly increasing order. -/
  commands : ∀ name, name ∈ c.commandRows.map (·.1) ↔ ∃ x, Registered c₀ state calls name none x
  commands_increasing : (c.commandRows.map (·.1)).Pairwise (· < ·)
  /-- So are the verbs of a command. -/
  verbs : ∀ name verb, (∃ rows, c.verbRows name = some rows ∧ verb ∈ rows.map (·.1)) ↔
    ∃ x, Registered c₀ state calls (canonical name) (some verb) x
  verbs_increasing : ∀ name rows, c.verbRows name = some rows →
    (rows.map (·.1)).Pairwise (· < ·)
  /-- A change that is refused leaves the table as it is. -/
  refused : ∀ (change : Change σ) e, change.refusal? c = some e →
    (change.apply c).commands = c.commands
  /-- A registration that is accepted stores what it is given. -/
  stored : ∀ (change : Change σ) name verb, change.Adds name verb → change.refusal? c = none →
    ∃ x, change.given? c = some x ∧ (change.apply c).commands.content? name verb = some x
  /-- A change that is accepted touches one command, and of its verbs one if it is about a verb. -/
  touches : ∀ change : Change σ, change.refusal? c = none →
    (∀ name, change.target.map (·.1) ≠ some name →
      (change.apply c).commands.find? name = c.commands.find? name) ∧
    ∀ name verb, change.target = some (name, some verb) → ∃ description table table',
      c.commands.find? name = some ⟨description, .verbs table⟩ ∧
      (change.apply c).commands.find? name = some ⟨description, .verbs table'⟩ ∧
      ∀ verb', verb' ≠ verb → table'.find? verb' = table.find? verb'
  /-- Unregistering a command right after its registration restores the table. -/
  undone : ∀ (change : Change σ) name, change.Adds (canonical name) none →
    change.refusal? c = none →
    ∃ c', (change.apply c).unregister name = .ok c' ∧ c'.commands = c.commands
  /-- So does unregistering a verb. -/
  verb_undone : ∀ (change : Change σ) name verb,
    change.Adds (canonical name) (some (canonical verb)) → change.refusal? c = none →
    ∃ c', (change.apply c).unregisterVerb name verb = .ok c' ∧ c'.commands = c.commands
  /-- A line that names a command in any letter case reaches the handler that was registered. -/
  served : ∀ name description h line text state',
    Registered c₀ state calls name none ⟨description, some h⟩ → Calls line name text →
    Served c name text state' h (c.execute line state')
  /-- A line that names a command and its verb reaches the handler of the verb. -/
  verb_served : ∀ name verb description h line text rest state',
    Registered c₀ state calls name (some verb) ⟨description, some h⟩ →
    Calls line name text → Calls text verb rest →
    Served c s!"{name} {verb}" rest state' h (c.execute line state')

/-- **A console is a finite map from names to commands and verbs**, through every history of calls
on a fresh one. -/
theorem faithful_afterCalls (r : Registry) (state : σ) (calls : List (Call σ)) :
    Faithful (ofRegistry r) state calls ((ofRegistry r).afterCalls state calls) := by
  have hempty : (ofRegistry r : Console σ).commands = {} := rfl
  have hkept := wellKept_afterCalls hempty state calls
  generalize hc : (ofRegistry r).afterCalls state calls = c at hkept ⊢
  have hcontents : ∀ name verb x, c.commands.content? name verb = some x ↔
      Registered (ofRegistry r) state calls name verb x :=
    fun name verb x => hc ▸ content?_afterCalls hempty state calls
  have hlists : ∀ name verb, c.commands.Lists name verb ↔
      ∃ x, Registered (ofRegistry r) state calls name verb x :=
    fun name verb => exists_congr (hcontents name verb)
  have hholds : ∀ {name verb description h},
      Registered (ofRegistry r) state calls name verb ⟨description, some h⟩ →
      c.commands.Holds name verb h :=
    fun h => NameTable.holds_of_content? ((hcontents _ _ _).2 h)
  refine
    { wellKept := hkept
      contents := hcontents
      commands := fun name => mem_commandRows.trans (hlists name none)
      commands_increasing := ?_
      verbs := fun name verb => mem_verbRows.trans (hlists _ _)
      verbs_increasing := fun name rows hrows => ?_
      refused := fun change e he => ?_
      stored := fun change name verb hadds haccepted => ?_
      touches := fun change haccepted => ?_
      undone := fun change name hadds haccepted => unregister_registered haccepted hadds rfl
      verb_undone := fun change name verb hadds haccepted =>
        unregisterVerb_registered hkept.increasing haccepted hadds rfl rfl
      served := fun name _ h line text state' hregistered hline =>
        served_command (hkept.ne_help_of_holds (hholds hregistered)) (hholds hregistered) hline
          state'
      verb_served := fun name verb _ h line text rest state' hregistered hline htext =>
        served_verb (hkept.ne_help_of_holds (hholds hregistered)) (hholds hregistered) hline htext
          state' }
  · rw [map_commandRows]
    exact hkept.increasing
  · obtain ⟨description, table, hentry, rfl⟩ := verbRows_eq_some_iff.1 hrows
    rw [map_verbRows]
    exact (hkept.verbs hentry).1
  · obtain ⟨_, _, hsame⟩ | ⟨haccepted, _⟩ := apply_cases change c
    · exact hsame
    · cases haccepted.symm.trans he
  · obtain ⟨x, hx⟩ := exists_given hadds haccepted
    exact ⟨x, hx, content?_apply.2 (.inl ⟨hadds, haccepted, hx⟩)⟩
  · obtain ⟨e, he, _⟩ | ⟨_, hedits⟩ := apply_cases change c
    · cases haccepted.symm.trans he
    · exact hedits.touches

end Console

end TypedConsole
