import TypedConsole.Proofs.ConsoleHistory

/-!
# TypedConsole.Proofs.UsageErrors

The text that a usage error is about.

A line is taken apart twice.  To execute it, words are split off until a grammar gets what is
left; `Parses` says which text that is.  To show a fault, words are split off again, and all that is
known is the name in the error: as many as it has spaces, and one more.

The two arrive at the same text (`Parses.afterWords_eq`) because the names of commands and verbs
are single words.  What was typed may differ from them in case and in length, and the blanks
around it may be any: words are counted, never characters.
-/

namespace TypedConsole

variable {σ : Type}

/-! ## handlers under names -/

section Holds

variable {t : NameTable (Entry σ)} {name : String} {verb : Option String} {h h' : Handler σ}

/-- One handler at most stands under a name. -/
theorem NameTable.Holds.unique (hat : t.Holds name verb h)
    (hat' : t.Holds name verb h') : h' = h := by
  cases hat with
  | command hentry =>
      cases hat' with
      | command hentry' =>
          cases hentry'.symm.trans hentry
          rfl
  | verb hentry hv =>
      cases hat' with
      | verb hentry' hv' =>
          cases hentry'.symm.trans hentry
          cases hv'.symm.trans hv
          rfl

/-- A command with a handler of its own has no verbs. -/
theorem NameTable.Holds.no_verbs {word : String} (hat : t.Holds name none h)
    (hat' : t.Holds name (some word) h') : False := by
  cases hat with
  | command hentry =>
      cases hat' with
      | verb hentry' _ => cases hentry'.symm.trans hentry

/-- The names of a handler are well-formed. -/
theorem WellKept.isName_of_holds (ht : WellKept t) (hat : t.Holds name verb h) :
    IsName name ∧ ∀ v ∈ verb, IsName v := by
  cases hat with
  | command hentry => exact ⟨ht.isName_of_find? hentry, by simp⟩
  | verb hentry hv =>
      refine ⟨ht.isName_of_find? hentry, fun v hverb => ?_⟩
      obtain rfl := Option.some.inj hverb
      exact (ht.verbs hentry).2 _ (NameTable.mem_names_iff.2 ⟨_, hv⟩)

end Holds

namespace Console

/-! ## the text for a grammar -/

/-- `Parses c line name g text`: on the line, the console `c` gives the text to the grammar `g`,
that of the built-in command, of a command or of a verb, known by this name. -/
inductive Parses (c : Console σ) : List Char → String → Grammar → List Char → Prop
  | builtIn (h : Calls line helpName text) : Parses c line helpName c.help text
  | command (h : Calls line name text) (hat : c.commands.Holds name none (.parsed g run)) :
      Parses c line name g text
  | verb (h : Calls line name text) (hv : Calls text word rest)
      (hat : c.commands.Holds name (some word) (.parsed g run)) :
      Parses c line s!"{name} {word}" g rest

variable {c : Console σ} {line text : List Char} {name : String} {g : Grammar} {state : σ}

/-- A line has one first word. -/
theorem Calls.unique {name' : String} {text' : List Char} (h : Calls line name text)
    (h' : Calls line name' text') : name' = name ∧ text' = text := by
  obtain ⟨word, hsplit, rfl⟩ := h
  obtain ⟨word', hsplit', rfl⟩ := h'
  cases hsplit'.symm.trans hsplit
  exact ⟨rfl, rfl⟩

/-- A line gives one text to one grammar at most. -/
theorem Parses.unique {name' : String} {g' : Grammar} {text' : List Char}
    (hc : WellKept c.commands) (h : c.Parses line name g text)
    (h' : c.Parses line name' g' text') : name' = name ∧ g' = g ∧ text' = text := by
  cases h with
  | builtIn hcalls =>
      cases h' with
      | builtIn hcalls' => exact ⟨rfl, rfl, (hcalls.unique hcalls').2⟩
      | command hcalls' hat' | verb hcalls' _ hat' =>
          exact absurd (hcalls.unique hcalls').1 (hc.ne_help_of_holds hat')
  | command hcalls hat =>
      cases h' with
      | builtIn hcalls' => exact absurd (hcalls.unique hcalls').1.symm (hc.ne_help_of_holds hat)
      | command hcalls' hat' =>
          obtain ⟨rfl, rfl⟩ := hcalls.unique hcalls'
          cases hat.unique hat'
          exact ⟨rfl, rfl, rfl⟩
      | verb hcalls' _ hat' =>
          obtain ⟨rfl, -⟩ := hcalls.unique hcalls'
          exact (hat.no_verbs hat').elim
  | verb hcalls hv hat =>
      cases h' with
      | builtIn hcalls' => exact absurd (hcalls.unique hcalls').1.symm (hc.ne_help_of_holds hat)
      | command hcalls' hat' =>
          obtain ⟨rfl, -⟩ := hcalls.unique hcalls'
          exact (hat'.no_verbs hat).elim
      | verb hcalls' hv' hat' =>
          obtain ⟨rfl, rfl⟩ := hcalls.unique hcalls'
          obtain ⟨rfl, rfl⟩ := hv.unique hv'
          cases hat.unique hat'
          exact ⟨rfl, rfl, rfl⟩

/-! ## the words of a name -/

/-- The name of a command, or of a command and its verb, in messages. -/
def title (name : String) : Option String → String
  | none => name
  | some verb => s!"{name} {verb}"

theorem toList_title (name verb : String) :
    (title name (some verb)).toList = name.toList ++ ' ' :: verb.toList := by
  rw [title, String.toList_append, String.toList_append, List.append_assoc]
  rfl

/-- A name is one word. -/
theorem count_space_of_isName (h : IsName name) : name.toList.count ' ' = 0 :=
  List.count_eq_zero.2 fun hmem => absurd (h.no_blank ' ' hmem) (by decide)

/-- The names of a command and its verb are two words. -/
theorem count_space_of_isName_verb {word : String} (h : IsName name) (hv : IsName word) :
    (title name (some word)).toList.count ' ' = 1 := by
  rw [toList_title, List.count_append, List.count_cons, count_space_of_isName h,
    count_space_of_isName hv]
  rfl

/-- A line without its first word. -/
theorem Calls.afterWords_succ (h : Calls line name text) (count : Nat) :
    ExecuteError.afterWords (count + 1) line = ExecuteError.afterWords count text := by
  obtain ⟨word, hsplit, -⟩ := h
  rw [ExecuteError.afterWords, hsplit]
  rfl

/-- **Without as many words as the name has, the line is the text that the grammar got.** -/
theorem Parses.afterWords_eq (hc : WellKept c.commands) (h : c.Parses line name g text) :
    ExecuteError.afterWords (name.toList.count ' ' + 1) line = text := by
  cases h with
  | builtIn hcalls =>
      rw [hcalls.afterWords_succ, count_space_of_isName (by decide)]
      rfl
  | command hcalls hat =>
      rw [hcalls.afterWords_succ, count_space_of_isName (hc.isName_of_holds hat).1]
      rfl
  | verb hcalls hv hat =>
      obtain ⟨hname, hverb⟩ := hc.isName_of_holds hat
      have hcount := count_space_of_isName_verb hname (hverb _ rfl)
      rw [title] at hcount
      rw [hcalls.afterWords_succ, hcount, hv.afterWords_succ]
      rfl

/-! ## usage errors -/

/-- A handler is not run on a text that does not fit its grammar. -/
theorem Served.eq_of_error {run : Arguments → σ → Except ArgumentError String × σ}
    {result : Except ExecuteError String × σ} (h : Served c name text state (.parsed g run) result)
    {e : ParseError} (he : g.parse c.registry.special text = .error e) :
    result = (.error (.usage name (Printer.usage name g) e), state) := by
  cases h with
  | parsed _ _ hok => cases hok.symm.trans he
  | refused _ _ he' =>
      cases he'.symm.trans he
      rfl

/-- A usage error of a handler is about the text that its grammar got. -/
theorem Served.exists_of_usage {handler : Handler σ} {result : Except ExecuteError String × σ}
    (h : Served c name text state handler result) {n u : String} {e : ParseError}
    (hresult : result.1 = .error (.usage n u e)) :
    ∃ g run, handler = .parsed g run ∧ n = name ∧ u = Printer.usage name g ∧
      g.parse c.registry.special text = .error e := by
  cases h with
  | raw => cases hresult
  | @parsed g run args _ =>
      simp only at hresult
      cases houtput : (run args state).1 <;> rw [houtput] at hresult <;> cases hresult
  | refused g run he =>
      cases hresult
      exact ⟨g, run, rfl, rfl, rfl, he⟩

/-- A line that calls the built-in command. -/
theorem execute_help (h : Calls line helpName text) (state : σ) :
    c.execute line state = (c.executeHelp text, state) := by
  obtain ⟨word, hsplit, hword⟩ := h
  simp only [execute, hsplit, hword, if_pos]

/-- **A text that does not fit its grammar is a usage error**, and nothing else happens. -/
theorem Parses.execute_eq (hc : WellKept c.commands) (h : c.Parses line name g text)
    {e : ParseError} (he : g.parse c.registry.special text = .error e) (state : σ) :
    c.execute line state = (.error (.usage name (Printer.usage name g) e), state) := by
  cases h with
  | builtIn hcalls =>
      rw [execute_help hcalls]
      simp only [executeHelp, he]
  | command hcalls hat =>
      exact (served_command (hc.ne_help_of_holds hat) hat hcalls state).eq_of_error he
  | verb hcalls hv hat =>
      exact (served_verb (hc.ne_help_of_holds hat) hat hcalls hv state).eq_of_error he

theorem shown_ne_usage {n u : String} {help : Option String} {e : ParseError} :
    shown name help ≠ .error (.usage n u e) := by
  cases help <;> rintro ⟨⟩

theorem helpText_ne_usage {command verb n u : String} {e : ParseError} :
    c.helpText command verb ≠ .error (.usage n u e) := by
  simp only [helpText]
  split
  · rintro ⟨⟩
  · split
    · exact shown_ne_usage
    · split
      · rintro ⟨⟩
      · split
        · exact shown_ne_usage
        · split
          · rintro ⟨⟩
          · split
            · exact shown_ne_usage
            · rintro ⟨⟩

/-- The built-in command finds faults in the text that its grammar got. -/
theorem eq_of_executeHelp_usage {n u : String} {e : ParseError}
    (h : c.executeHelp text = .error (.usage n u e)) :
    n = helpName ∧ u = Printer.usage helpName c.help ∧
      c.help.parse c.registry.special text = .error e := by
  simp only [executeHelp] at h
  split at h
  · next he =>
      cases h
      exact ⟨rfl, rfl, he⟩
  · split at h
    · cases h
    · exact absurd h helpText_ne_usage
    · cases h

/-- **Every usage error comes from a text that did not fit its grammar.** -/
theorem exists_parses_of_usage {n u : String} {e : ParseError}
    (h : (c.execute line state).1 = .error (.usage n u e)) :
    ∃ g text, c.Parses line n g text ∧ u = Printer.usage n g ∧
      g.parse c.registry.special text = .error e := by
  simp only [execute] at h
  split at h
  · cases h
  · next word text hsplit =>
      have hcalls : Calls line (Text.lowercase (String.ofList word)) text := ⟨word, hsplit, rfl⟩
      split at h
      · next hname =>
          obtain ⟨rfl, rfl, he⟩ := eq_of_executeHelp_usage h
          exact ⟨_, text, .builtIn (hname ▸ hcalls), rfl, he⟩
      · split at h
        · next entry hentry =>
            obtain ⟨description, action⟩ := entry
            cases action with
            | run handler =>
                obtain ⟨g, run, rfl, rfl, rfl, he⟩ :=
                  (served_runHandler c _ text handler state).exists_of_usage h
                exact ⟨g, text, .command hcalls (.command hentry), rfl, he⟩
            | verbs table =>
                simp only [runEntry] at h
                split at h
                · cases h
                · next word' rest hsplit' =>
                    split at h
                    · next v hv =>
                        obtain ⟨g, run, hhandler, rfl, rfl, he⟩ :=
                          (served_runHandler c _ rest v.handler state).exists_of_usage h
                        have hat := NameTable.Holds.verb hentry hv
                        rw [hhandler] at hat
                        exact ⟨g, rest, .verb hcalls ⟨word', hsplit', rfl⟩ hat, rfl, he⟩
                    · cases h
        · cases h

/-! ## the caret -/

/-- **The caret stands under the text that did not fit.**  On every console that calls lead to: a
usage error, of a command, a verb or the built-in command, is shown with the very text that its
grammar got from the line, and the line gives a text to no other grammar; conversely a text that
does not fit its grammar is such an error.  Every other error is shown without a text.  Parsers from
outside keep the contract of `CustomParser`. -/
theorem context_eq_parsed_text (r : Registry) (state₀ : σ) (calls : List (Call σ))
    (line : List Char) (state : σ) :
    let c := (ofRegistry r).afterCalls state₀ calls
    (∀ name usage e, (c.execute line state).1 = .error (.usage name usage e) →
      ∃ g text, c.Parses line name g text ∧
        (∀ name' g' text', c.Parses line name' g' text' →
          name' = name ∧ g' = g ∧ text' = text) ∧
        g.parse c.registry.special text = .error e ∧
        (ExecuteError.usage name usage e).context line = some (e.context text)) ∧
    (∀ name g text e, c.Parses line name g text → g.parse c.registry.special text = .error e →
      c.execute line state = (.error (.usage name (Printer.usage name g) e), state)) ∧
    (∀ e, (c.execute line state).1 = .error e → (∀ name usage e', e ≠ .usage name usage e') →
      e.context line = none) := by
  intro c
  have hc : WellKept c.commands := wellKept_afterCalls rfl state₀ calls
  refine ⟨fun name usage e h => ?_, fun name g text e hparses he => hparses.execute_eq hc he state,
    fun e _ he => ?_⟩
  · obtain ⟨g, text, hparses, -, herror⟩ := exists_parses_of_usage h
    refine ⟨g, text, hparses, fun _ _ _ => hparses.unique hc, herror, ?_⟩
    rw [ExecuteError.context, hparses.afterWords_eq hc]
  · cases e with
    | usage name usage e' => exact absurd rfl (he name usage e')
    | _ => rfl

/-- A console with a command and a verb whose names are longer than what was typed for them: the
lower case of a capital I with a dot is two characters. -/
def dotted : Console Unit :=
  (ofRegistry (.empty fun _ _ => none)).afterCalls ()
    [.change (.registerVerbs "İ" ""),
      .change (.registerVerb "İ" "İİ" "" ⟨[]⟩ fun _ state => (.ok "", state))]

/-- The caret under a line in capitals, with blanks of several kinds between its words. -/
theorem context_eq_parsed_text_dotted :
    let line := ['\u3000', 'İ', '\u2003', 'İ', 'İ', '\t', 'x']
    dotted.Parses line "i\u0307 i\u0307i\u0307" ⟨[]⟩ ['\t', 'x'] ∧
    Grammar.parse ⟨[]⟩ dotted.registry.special ['\t', 'x'] = .error (.unexpectedArgument 1) ∧
    ∃ e, dotted.execute line () = (.error e, ()) ∧ e.context line = some "\tx\n ^" := by
  intro line
  have hentry : dotted.commands.find? "i\u0307" =
      some ⟨"", .verbs (({} : NameTable (Verb Unit)).insert "i\u0307i\u0307"
        ⟨"", .parsed ⟨[]⟩ fun _ state => (.ok "", state)⟩)⟩ := by rfl
  have hcalls : Calls line "i\u0307" ['\u2003', 'İ', 'İ', '\t', 'x'] :=
    ⟨['İ'], by decide, by decide⟩
  have hverb : Calls ['\u2003', 'İ', 'İ', '\t', 'x'] "i\u0307i\u0307" ['\t', 'x'] :=
    ⟨['İ', 'İ'], by decide, by decide⟩
  have hat := NameTable.Holds.verb hentry NameTable.find?_insert_self
  have hparses : dotted.Parses line "i\u0307 i\u0307i\u0307" ⟨[]⟩ ['\t', 'x'] :=
    .verb hcalls hverb hat
  have hparse : Grammar.parse ⟨[]⟩ dotted.registry.special ['\t', 'x'] =
      .error (.unexpectedArgument 1) := by
    rw [Grammar.parse, Grammar.items]
    rfl
  obtain ⟨hshown, husage, -⟩ := context_eq_parsed_text (.empty fun _ _ => none) ()
    [.change (.registerVerbs "İ" ""),
      .change (.registerVerb "İ" "İİ" "" ⟨[]⟩ fun _ state => (.ok "", state))] line ()
  have hexecute := husage _ _ _ _ hparses hparse
  obtain ⟨g, text, -, hunique, -, hcontext⟩ := hshown _ _ _ (congrArg Prod.fst hexecute)
  obtain ⟨-, -, rfl⟩ := hunique _ _ _ hparses
  exact ⟨hparses, hparse, _, hexecute, hcontext⟩

end Console

end TypedConsole
