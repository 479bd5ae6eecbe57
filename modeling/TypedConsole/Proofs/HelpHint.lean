import TypedConsole.Proofs.HelpGrammar
import TypedConsole.Proofs.HelpSections
import TypedConsole.Proofs.UsageErrors

/-!
# TypedConsole.Proofs.HelpHint

The help that a usage error points to.

When a text does not fit its grammar, the message ends with the hint to try `help` and the name of
the command.  The built-in command reads that name as a string argument, while the console reads
it as the first word of a line.  The two agree on readable words and, but for quotes and the mark
`--`, only on these.

`Documented` says which names have help and what it is.  `HelpWorks` collects what the built-in
command does for them; it holds of every console that changes lead to (`helpWorks_after`).
-/

namespace TypedConsole.Console

variable {σ : Type}

/-! ## what is documented -/

/-- `Documented c name verb help`: the built-in command, a command or a verb stands under the names,
and `help` is its help message, if that can be laid out. -/
inductive Documented (c : Console σ) : String → Option String → Option String → Prop
  | builtIn : Documented c helpName none (c.printer.help? helpName (some helpDescription) c.help)
  | command (h : c.commands.find? name = some e) :
      Documented c name none (e.help? c.printer name)
  | verb (h : c.commands.find? name = some ⟨description, .verbs table⟩)
      (hv : table.find? verb = some v) :
      Documented c name (some verb) (v.help? c.printer (title name (some verb)))

/-- The line that the hint behind a usage error suggests. -/
def hint (title : String) : List Char := (helpName ++ " " ++ title).toList

theorem message_usage (n u : String) (e : ParseError) : (ExecuteError.usage n u e).message =
    u ++ "\nTry '" ++ String.ofList (hint n) ++ "' for more information." := by
  have htry : "\nTry 'help " = "\nTry '" ++ (helpName ++ " ") := by decide
  show u ++ "\nTry 'help " ++ n ++ "' for more information." = _
  rw [hint, String.ofList_toList, htry]
  simp only [String.append_assoc]

variable {c : Console σ} {name : String} {verb help : Option String}

/-- What is documented has well-formed names. -/
theorem Documented.isName (h : Documented c name verb help) (hc : WellKept c.commands) :
    IsName name ∧ ∀ v ∈ verb, IsName v := by
  cases h with
  | builtIn => exact ⟨isName_helpName, by simp⟩
  | command hentry => exact ⟨hc.isName_of_find? hentry, by simp⟩
  | verb hentry hv =>
      refine ⟨hc.isName_of_find? hentry, fun v hverb => ?_⟩
      obtain rfl := Option.some.inj hverb
      exact (hc.verbs hentry).2 _ (NameTable.mem_names_iff.2 ⟨_, hv⟩)

/-- The built-in command finds what is documented. -/
theorem Documented.helpText_eq (h : Documented c name verb help) (hc : WellKept c.commands) :
    c.helpText name (verb.getD "") = shown (title name verb) help := by
  obtain ⟨hname, hverb⟩ := h.isName hc
  have hcanonical := hname.canonical_eq
  have hne : name.isEmpty = false := by simpa using hname.ne_empty
  have hnone : (canonical "").isEmpty = true := by decide
  cases h with
  | builtIn => simp [helpText, hcanonical, hne, title]
  | @command _ e hentry =>
      have hhelp := hc.ne_help_of_find? hentry
      simp [helpText, hcanonical, hne, hhelp, hentry, hnone, title]
  | @verb _ description table word v hentry hv =>
      have hhelp := hc.ne_help_of_find? hentry
      have hword := hverb word rfl
      have hwordne : word.isEmpty = false := by simpa using hword.ne_empty
      simp [helpText, hcanonical, hne, hhelp, hentry, hword.canonical_eq, hwordne, hv, title]

theorem calls_hint (title : String) : Calls (hint title) helpName (' ' :: title.toList) := by
  have h := isName_helpName.calls (t := ' ' :: title.toList) rfl
  rw [hint, String.toList_append, String.toList_append, List.append_assoc]
  exact h

theorem executeHelp_of_parse {text : List Char} {command verb : String}
    (hhelp : c.help = helpGrammar)
    (h : helpGrammar.parse c.registry.special text = .ok (spoken command verb)) :
    c.executeHelp text = c.helpText command verb := by
  simp only [executeHelp, hhelp, h]
  rfl

/-- **What is documented under readable names is shown.** -/
theorem Documented.execute_hint (h : Documented c name verb help) (hc : WellKept c.commands)
    (hhelp : c.help = helpGrammar) (hname : Readable c.registry.special name)
    (hverb : ∀ v ∈ verb, Readable c.registry.special v) (state : σ) :
    c.execute (hint (title name verb)) state = (shown (title name verb) help, state) := by
  obtain ⟨hisName, hisVerb⟩ := h.isName hc
  have hparse : helpGrammar.parse c.registry.special (' ' :: (title name verb).toList) =
      .ok (spoken name (verb.getD "")) := by
    cases verb with
    | none => exact parse_word hisName hname
    | some v =>
        rw [toList_title]
        exact parse_words hisName hname (hisVerb v rfl) (hverb v rfl)
  rw [execute_help (calls_hint _), executeHelp_of_parse hhelp hparse, h.helpText_eq hc]

/-- What starts with a name that is not readable is a fault of the text behind `help`. -/
theorem execute_hint_unreadable (hname : IsName name) (hhelp : c.help = helpGrammar)
    (hquote : ∀ ch ∈ name.toList.head?, ch ≠ '"' ∧ ch ≠ '\'') (hmark : name ≠ "--")
    (h : ¬Readable c.registry.special name) (verb : Option String) (state : σ) :
    ∃ u e, c.execute (hint (title name verb)) state = (.error (.usage helpName u e), state) := by
  obtain ⟨t, ht, htitle⟩ : ∃ t, Text.atBoundary t = true ∧
      (title name verb).toList = name.toList ++ t := by
    cases verb with
    | none => exact ⟨[], rfl, by rw [List.append_nil]; rfl⟩
    | some v => exact ⟨' ' :: v.toList, rfl, toList_title name v⟩
  rw [execute_help (calls_hint _), htitle]
  cases hparse : helpGrammar.parse c.registry.special (' ' :: (name.toList ++ t)) with
  | ok args => exact absurd (readable_of_parse hname ht hquote hmark hparse) h
  | error e =>
      refine ⟨Printer.usage helpName helpGrammar, e, ?_⟩
      simp only [executeHelp, hhelp, hparse]

/-! ## commands with verbs -/

/-- A command with verbs, called alone, shows its help. -/
theorem execute_alone {description : String} {table : NameTable (Verb σ)} (hname : IsName name)
    (hhelp : name ≠ helpName)
    (hentry : c.commands.find? name = some ⟨description, .verbs table⟩) (state : σ) :
    c.execute name.toList state = (.ok (table.verbHelp name description), state) := by
  obtain ⟨word, hsplit, rfl⟩ := hname.calls (t := []) rfl
  rw [List.append_nil] at hsplit
  simp only [execute, hsplit, if_neg hhelp, hentry, runEntry]
  rfl

/-! ## usage errors -/

/-- What has a handler is documented. -/
theorem exists_documented_of_holds {handler : Handler σ}
    (hat : c.commands.Holds name verb handler) : ∃ help, Documented c name verb help := by
  cases hat with
  | command hentry => exact ⟨_, .command hentry⟩
  | verb hentry hv => exact ⟨_, .verb hentry hv⟩

/-- **A usage error names what the line addresses.** -/
theorem documented_of_usage {line : List Char} {state : σ} {n u : String} {e : ParseError}
    (h : (c.execute line state).1 = .error (.usage n u e)) :
    ∃ name verb help, n = title name verb ∧ Addresses line name verb ∧
      Documented c name verb help := by
  obtain ⟨g, text, hparses, -⟩ := exists_parses_of_usage h
  cases hparses with
  | builtIn hcalls => exact ⟨helpName, none, _, rfl, .command hcalls, .builtIn⟩
  | command hcalls hat =>
      obtain ⟨help, hdocumented⟩ := exists_documented_of_holds hat
      exact ⟨_, none, help, rfl, .command hcalls, hdocumented⟩
  | verb hcalls hverb hat =>
      obtain ⟨help, hdocumented⟩ := exists_documented_of_holds hat
      exact ⟨_, some _, help, rfl, .verb hcalls hverb, hdocumented⟩

/-! ## help -/

/-- There is help if no parameter has an empty template. -/
theorem Documented.isSome (h : Documented c name verb help) (hhelp : c.help = helpGrammar)
    (htemplates : ∀ g run, c.commands.Holds name verb (.parsed g run) →
      ∀ d ∈ g.parameters, d.template ≠ some "") : help.isSome = true := by
  have hhandler : ∀ (n description : String) (handler : Handler σ),
      c.commands.Holds name verb handler →
        (handler.help? c.printer n description).isSome = true := fun n description handler hat => by
    cases handler with
    | raw => rfl
    | parsed g run => exact c.printer.isSome_help? n (some description) (htemplates g run hat)
  cases h with
  | builtIn =>
      refine c.printer.isSome_help? _ _ fun d hd => ?_
      obtain ⟨index, metavar, rfl⟩ := mem_helpGrammar (hhelp ▸ hd)
      rintro ⟨⟩
  | @command _ e hentry =>
      obtain ⟨description, action⟩ := e
      cases action with
      | run handler => exact hhandler _ _ _ (.command hentry)
      | verbs table => rfl
  | verb hentry hv => exact hhandler _ _ _ (.verb hentry hv)

/-- `HelpWorks c`: what the built-in command does on the console `c`. -/
structure HelpWorks (c : Console σ) : Prop where
  /-- The help of a command or verb whose names are readable is shown. -/
  shows : ∀ name verb help state, Documented c name verb help →
    Readable c.registry.special name → (∀ v ∈ verb, Readable c.registry.special v) →
    c.execute (hint (title name verb)) state = (shown (title name verb) help, state)
  /-- There is help to show unless a template is empty. -/
  printed : ∀ name verb help, Documented c name verb help →
    (∀ g run, c.commands.Holds name verb (.parsed g run) →
      ∀ d ∈ g.parameters, d.template ≠ some "") → help.isSome = true
  /-- For a command with verbs it is what the command shows when it is called alone. -/
  alone : ∀ name description table state,
    c.commands.find? name = some ⟨description, .verbs table⟩ →
    Readable c.registry.special name → c.execute (hint name) state = c.execute name.toList state
  /-- A usage error names the command or verb that the line addresses, and the line that its message
  suggests shows the help of that. -/
  suggested : ∀ line state n u e, (c.execute line state).1 = .error (.usage n u e) →
    (ExecuteError.usage n u e).message =
      u ++ "\nTry '" ++ String.ofList (hint n) ++ "' for more information." ∧
    ∃ name verb help, n = title name verb ∧ Addresses line name verb ∧
      Documented c name verb help ∧
      (Readable c.registry.special name → (∀ v ∈ verb, Readable c.registry.special v) →
        ∀ state, c.execute (hint n) state = (shown n help, state))
  /-- A name that is not readable is not taken, unless a quote starts it or it is the mark. -/
  refused : ∀ name verb help state, Documented c name verb help →
    ¬Readable c.registry.special name → (∀ ch ∈ name.toList.head?, ch ≠ '"' ∧ ch ≠ '\'') →
    name ≠ "--" →
    ∃ u e, c.execute (hint (title name verb)) state = (.error (.usage helpName u e), state)

/-- **The help that a usage error points to is shown**, whatever was registered and unregistered
before, for the names that are readable. -/
theorem helpWorks_after (r : Registry) (hr : ∀ p, r.lookup .string = some p → p = .string)
    (changes : List (Change σ)) : HelpWorks ((ofRegistry r).after changes) := by
  have hhelp : ((ofRegistry r : Console σ).after changes).help = helpGrammar :=
    (help_after _ changes).trans (help_ofRegistry hr)
  have hkept : WellKept ((ofRegistry r : Console σ).after changes).commands :=
    wellKept_after .empty changes
  generalize (ofRegistry r).after changes = c at hhelp hkept ⊢
  refine
    { shows := fun name verb help state h hname hverb =>
        h.execute_hint hkept hhelp hname hverb state
      printed := fun name verb help h htemplates => h.isSome hhelp htemplates
      alone := fun name description table state hentry hname => ?_
      suggested := fun line state n u e h => ?_
      refused := fun name verb help state h hname hquote hmark =>
        execute_hint_unreadable (h.isName hkept).1 hhelp hquote hmark hname verb state }
  · rw [execute_alone (hkept.isName_of_find? hentry) (hkept.ne_help_of_find? hentry) hentry]
    exact (Documented.command hentry).execute_hint hkept hhelp hname (by simp) state
  · obtain ⟨name, verb, help, rfl, hline, hdocumented⟩ := documented_of_usage h
    exact ⟨message_usage _ u e, name, verb, help, rfl, hline, hdocumented, fun hname hverb =>
      hdocumented.execute_hint hkept hhelp hname hverb⟩

/-- A console with one command, which takes no arguments. -/
def single (name : String) : Console Unit :=
  (ofRegistry (.empty fun _ _ => none)).after
    [.register name "Stop." ⟨[]⟩ fun _ state => (.ok "", state)]

/-- The help of a command whose name is readable. -/
theorem helpWorks_quit :
    (∀ p, (Registry.empty fun _ _ => none).lookup .string = some p → p = .string) ∧
    (single "quit").execute (hint "quit") () = (.ok "usage: quit\n\nStop.", ()) := by
  refine ⟨fun _ h => (by cases h), ?_⟩
  have hentry : (single "quit").commands.find? "quit" =
      some ⟨"Stop.", .run (.parsed ⟨[]⟩ fun _ state => (.ok "", state))⟩ := by rfl
  have hreadable : Readable .builtIn "quit" := by decide
  exact (helpWorks_after (.empty fun _ _ => none) (fun _ h => by cases h) _).shows "quit" none _ ()
    (.command hentry) hreadable (by simp)

/-- A name with a comma can be registered and called, and the usage error suggests a line that
fails. -/
theorem help_cuts_names :
    Documented (single "a,b") "a,b" none (some "usage: a,b\n\nStop.") ∧
    (∃ u e, (single "a,b").execute "a,b c".toList () = (.error (.usage "a,b" u e), ())) ∧
    ∃ u e, (single "a,b").execute (hint "a,b") () = (.error (.usage helpName u e), ()) := by
  have hname : IsName "a,b" := by decide
  have hentry : (single "a,b").commands.find? "a,b" =
      some ⟨"Stop.", .run (.parsed ⟨[]⟩ fun _ state => (.ok "", state))⟩ := by rfl
  have hparse : Grammar.parse ⟨[]⟩ .builtIn [' ', 'c'] = .error (.unexpectedArgument 1) := by
    rw [Grammar.parse, Grammar.items]
    rfl
  refine ⟨.command hentry, ⟨"usage: a,b", .unexpectedArgument 1, ?_⟩, ?_⟩
  · have hsplit : Text.splitWord "a,b c".toList = some (['a', ',', 'b'], [' ', 'c']) := by decide
    have hlowered : Text.lowercase (String.ofList ['a', ',', 'b']) = "a,b" := by decide
    have hspecial : (single "a,b").registry.special = .builtIn := by rfl
    simp only [execute, hsplit, hlowered, hentry, runEntry, runHandler, hspecial, hparse]
    rfl
  · have hunreadable : ¬Readable .builtIn "a,b" := by decide
    refine execute_hint_unreadable (c := single "a,b") hname rfl (fun c hc => ?_) (by decide)
      hunreadable none ()
    obtain rfl := Option.some.inj hc
    decide

end TypedConsole.Console
