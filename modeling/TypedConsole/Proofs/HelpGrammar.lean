import TypedConsole.Proofs.ConsoleTable
import TypedConsole.Proofs.Acceptance
import TypedConsole.Proofs.Creation
import TypedConsole.Proofs.RoundTrip

/-!
# TypedConsole.Proofs.HelpGrammar

How the built-in command reads its text: as one or two strings, by the grammar `helpGrammar`, which
no change of the console touches (`help_after`).

The names behind `help` are words, and a word is a string argument exactly if it is *readable*:
`parse_word` and `parse_words` say that readable words are taken as they stand, `readable_of_parse`
that no others are, but for those with a quote in front and the mark `--`.
-/

namespace TypedConsole

variable {σ : Type}

/-! ## readable words -/

/-- The text starts with a dash and another one or a letter. -/
def startsOption : List Char → Bool
  | a :: c :: _ => a = Grammar.dash && (c = Grammar.dash || Text.isAlphabetic c)
  | _ => false

/-- A string argument spells the word as it stands. -/
structure Readable (special : SpecialSet) (word : String) : Prop where
  /-- No character of it ends a token. -/
  whole : ∀ c ∈ word.toList, special.terminates c = false
  /-- It is not read as a quoted string. -/
  unquoted : ∀ c ∈ word.toList.head?, c ≠ '"' ∧ c ≠ '\''
  /-- It is not read as an option. -/
  no_option : startsOption word.toList = false

theorem readable_iff {special : SpecialSet} {word : String} : Readable special word ↔
    (word.toList.all fun c => !special.terminates c) = true ∧
    (word.toList.head?.all fun c => !(c = '"' || c = '\'')) = true ∧
    startsOption word.toList = false := by
  constructor
  · rintro ⟨hwhole, hunquoted, hoption⟩
    exact ⟨by simpa using hwhole, by simpa [Option.all_eq_true] using hunquoted, hoption⟩
  · rintro ⟨hwhole, hunquoted, hoption⟩
    exact ⟨by simpa using hwhole, by simpa [Option.all_eq_true] using hunquoted, hoption⟩

instance (special : SpecialSet) (word : String) : Decidable (Readable special word) :=
  decidable_of_iff' _ readable_iff

/-! ## names -/

namespace IsName

variable {name : String}

theorem toList_ne_nil (h : IsName name) : name.toList ≠ [] := fun hnil =>
  h.ne_empty (String.toList_eq_nil_iff.1 hnil)

theorem atBoundary_append (h : IsName name) (t : List Char) :
    Text.atBoundary (name.toList ++ t) = false := by
  obtain ⟨c, r, hname⟩ := List.exists_cons_of_ne_nil h.toList_ne_nil
  rw [hname]
  exact h.no_blank c (hname ▸ List.mem_cons_self)

/-- A registered name is found under itself. -/
theorem canonical_eq (h : IsName name) : Console.canonical name = name := by
  rw [Console.canonical, Text.trim_eq_self h.no_blank, h.lowered]

/-- A line that starts with the name calls it. -/
theorem calls (h : IsName name) {t : List Char} (ht : Text.atBoundary t = true) :
    Console.Calls (name.toList ++ t) name t :=
  ⟨name.toList, Text.splitWord_append h.toList_ne_nil h.no_blank ht, by
    rw [String.ofList_toList, h.lowered]⟩

end IsName

/-! ## the grammar of the built-in command -/

namespace Console

theorem isName_helpName : IsName helpName := by decide

open Grammar (IsValue Line Spelled doubleDash)

/-- A word as an optional argument. -/
def wordAt (index : Nat) (name : String) : Descriptor :=
  Grammar.describe index (Parameter.positional .string name).optional .string (.string "")

/-- The grammar of `help`, as registries build it that have no other parser for strings. -/
def helpGrammar : Grammar := ⟨[wordAt 0 "command", wordAt 1 "verb"]⟩

theorem declared_helpParameters : ∀ p ∈ helpParameters, p.Declared := by
  intro p hp
  rcases List.mem_cons.1 hp with rfl | hp
  · exact .optional (.positional _ _)
  · obtain rfl := List.mem_singleton.1 hp
    exact .optional (.positional _ _)

theorem resolve_string {r : Registry} (hr : ∀ p, r.lookup .string = some p → p = .string) :
    ∃ r', r.resolve .string = (.ok .string, r') ∧ r'.lookup .string = some .string := by
  cases hstored : r.lookup .string with
  | some p =>
      obtain rfl := hr p hstored
      obtain ⟨hok, hsame⟩ := (Resolution.runs_resolve r .string).of_stored hstored
      exact ⟨r, Prod.ext hok hsame, hstored⟩
  | none =>
      refine ⟨r.register .string .string, ?_, r.lookup_register_self .string .string⟩
      rw [Registry.resolve, Resolution.resolve_eq_resolveWithin]
      show (Resolution.resolveWithin (63 + 1) .string).on r = _
      simp only [Resolution.resolveWithin, Resolution.on_bind, Resolution.on_get, hstored,
        Resolution.create, Resolution.on_pure, Resolution.on_storeIfAbsent]

/-- Every registry without another parser for strings builds this grammar. -/
theorem build_helpParameters {r : Registry} (hr : ∀ p, r.lookup .string = some p → p = .string) :
    (Grammar.build helpParameters r).1 = .ok helpGrammar := by
  obtain ⟨r₁, hfirst, hstored⟩ := resolve_string hr
  obtain ⟨r₂, hsecond, -⟩ := resolve_string (r := r₁) fun p hp =>
    Option.some.inj (hp.symm.trans hstored)
  have hcommand : Grammar.check {} (Parameter.positional .string "command").optional =
      .ok { metavars := ["command"], optionalPositional := true } := by rfl
  have hverb : Grammar.check { metavars := ["command"], optionalPositional := true }
      (Parameter.positional .string "verb").optional =
      .ok { metavars := ["verb", "command"], optionalPositional := true } := by rfl
  have hparser : ∀ name r, Grammar.parserFor (Parameter.positional .string name).optional r =
      r.resolve .string := fun _ _ => rfl
  simp only [Grammar.build, Grammar.buildFrom, helpParameters, hcommand, hverb, hparser, hfirst,
    hsecond]
  rfl

theorem help_ofRegistry {r : Registry} (hr : ∀ p, r.lookup .string = some p → p = .string) :
    (ofRegistry r : Console σ).help = helpGrammar := by
  simp only [ofRegistry, build_helpParameters hr]
  rfl

/-! ## the grammar is kept -/

theorem help_unlessRefused {c : Console σ} {outcome : Except ConsoleError (Console σ)}
    (h : ∀ c', outcome = .ok c' → c'.help = c.help) :
    (Change.unlessRefused c outcome).help = c.help := by
  cases outcome with
  | error e => rfl
  | ok c' => exact h c' rfl

theorem help_addCommand (c : Console σ) (command : Command)
    {add : Console σ → Grammar → Except ConsoleError (Console σ)}
    (h : ∀ c g c', add c g = .ok c' → c'.help = c.help) :
    (c.addCommand command add).2.help = c.help := by
  simp only [addCommand]
  split
  · rfl
  · split
    · rfl
    · next hadd => exact h { c with registry := (command.grammar c.registry).2 } _ _ hadd

theorem help_insert {c c' : Console σ} {name : String} {e : Entry σ}
    (h : c.insert name e = .ok c') : c'.help = c.help := by
  obtain ⟨-, -, rfl⟩ := insert_eq_ok h
  rfl

theorem help_insertVerb {c c' : Console σ} {name verb : String} {v : Verb σ}
    (h : c.insertVerb name verb v = .ok c') : c'.help = c.help := by
  obtain ⟨_, _, -, -, rfl⟩ := insertVerb_eq_ok h
  rfl

/-- No change is about the built-in command. -/
theorem help_apply (change : Change σ) (c : Console σ) : (change.apply c).help = c.help := by
  cases change with
  | register | registerRaw | registerVerbs =>
      rw [Change.apply]
      exact help_unlessRefused fun _ h => help_insert h
  | registerVerb | registerRawVerb =>
      rw [Change.apply]
      exact help_unlessRefused fun _ h => help_insertVerb h
  | registerCommand =>
      rw [Change.apply]
      exact help_addCommand _ _ fun _ _ _ h => help_insert h
  | registerVerbCommand =>
      rw [Change.apply]
      exact help_addCommand _ _ fun _ _ _ h => help_insertVerb h
  | unregister =>
      rw [Change.apply]
      refine help_unlessRefused fun c' h => ?_
      obtain ⟨_, -, rfl⟩ := unregister_eq_ok_iff.1 h
      rfl
  | unregisterVerb =>
      rw [Change.apply]
      refine help_unlessRefused fun c' h => ?_
      obtain ⟨_, _, _, -, -, rfl⟩ := unregisterVerb_eq_ok_iff.1 h
      rfl
  | setPrinter | setRegistry => rfl

theorem help_after (c : Console σ) (changes : List (Change σ)) :
    (c.after changes).help = c.help := by
  induction changes generalizing c with
  | nil => rfl
  | cons change changes ih => exact (ih _).trans (help_apply change c)

/-! ## arguments of the built-in command -/

variable {special : SpecialSet} {word : String}

theorem atTokenEnd_of_atBoundary {t : List Char} (ht : Text.atBoundary t = true) :
    special.atTokenEnd t = true :=
  Reader.atTokenEnd_iff.2 fun c hc => by
    rw [SpecialSet.terminates, Text.head?_of_atBoundary ht c hc, Bool.true_or]

/-- A readable word is the value of a string argument. -/
theorem isValue_word (hword : IsName word) (h : Readable special word) (index : Nat)
    (name : String) {t : List Char} (ht : Text.atBoundary t = true) :
    IsValue special (wordAt index name) (.string word) (word.toList ++ t) t where
  starts := hword.atBoundary_append t
  read := by
    have hread : Reader.string special (word.toList ++ t) = (some word, t) := by
      have htoken := Reader.token_append_eq h.whole (atTokenEnd_of_atBoundary ht)
      have hofList : String.ofList word.toList = word := String.ofList_toList
      have hne := hword.toList_ne_nil
      have hunquoted := h.unquoted
      generalize word.toList = w at htoken hofList hne hunquoted ⊢
      obtain ⟨c, r, rfl⟩ := List.exists_cons_of_ne_nil hne
      obtain ⟨hdouble, hsingle⟩ := hunquoted c rfl
      rw [List.cons_append] at htoken ⊢
      simp [Reader.string, htoken, hofList, hdouble, hsingle]
    show (Reader.string special).map Value.string (word.toList ++ t) = _
    simp only [Reader.map, Reader.mapOption, hread]
    rfl
  ends := ht
  permitted := fun _ h => by cases h

theorem not_hasShort {c : Char} {d : Descriptor} : ¬helpGrammar.HasShort c d := fun h =>
  absurd h.1 List.not_mem_nil

theorem not_hasLong {long : List Char} {d : Descriptor} : ¬helpGrammar.HasLong long d := fun h =>
  absurd h.1 List.not_mem_nil

/-- The grammar has no names, so a text looks like an option by its first two characters. -/
theorem looksLikeOption_iff {s : List Char} :
    helpGrammar.LooksLikeOption s ↔ startsOption s = true := by
  constructor
  · rintro (⟨r, rfl⟩ | ⟨c, r, rfl, halphabetic | ⟨d, hd⟩⟩)
    · rfl
    · simp [startsOption, halphabetic]
    · exact absurd hd not_hasShort
  · intro h
    match s with
    | [] | [_] => contradiction
    | a :: c :: r =>
        simp only [startsOption, Bool.and_eq_true, Bool.or_eq_true, decide_eq_true_eq] at h
        obtain ⟨rfl, rfl | halphabetic⟩ := h
        · exact .inl ⟨r, rfl⟩
        · exact .inr ⟨c, r, rfl, .inl halphabetic⟩

/-- A word alone decides whether it starts like an option. -/
theorem startsOption_append {w t : List Char} (hw : w ≠ []) (ht : Text.atBoundary t = true) :
    startsOption (w ++ t) = startsOption w := by
  match w, t with
  | [], _ => contradiction
  | [_], [] => rfl
  | [a], c :: t =>
      -- a dash alone is followed by a blank
      have hdash : c ≠ Grammar.dash := by
        rintro rfl
        contradiction
      have hletter : Text.isAlphabetic c = false := by
        by_contra halphabetic
        rw [Bool.not_eq_false] at halphabetic
        rw [Text.atBoundary_cons, Text.isBlank_of_isAlphabetic halphabetic] at ht
        contradiction
      simp [startsOption, hdash, hletter]
  | _ :: _ :: _, _ => rfl

/-- A readable word is an item of a line. -/
theorem spelled_word (hword : IsName word) (h : Readable special word) (index : Nat)
    (name : String) {t : List Char} (ht : Text.atBoundary t = true) :
    Spelled helpGrammar special true (.positional ⟨wordAt index name, .string word⟩)
      (word.toList ++ t) t := by
  refine .value (isValue_word hword h index name ht) fun hlooks => ?_
  rw [looksLikeOption_iff, startsOption_append hword.toList_ne_nil ht, h.no_option] at hlooks
  contradiction

/-- One more word in front of a line. -/
theorem line_word {items : List Grammar.Item} {t : List Char} (hword : IsName word)
    (h : Readable special word) (index : Nat) (name : String) (ht : Text.atBoundary t = true)
    (hline : Line helpGrammar special true items t) :
    Line helpGrammar special true (.positional ⟨wordAt index name, .string word⟩ :: items)
      (' ' :: (word.toList ++ t)) :=
  .item (b := [' ']) (by simp; decide) (spelled_word hword h index name ht) hline

/-- The arguments of `help`. -/
def spoken (command verb : String) : Arguments :=
  ⟨[some ⟨.string, .string command⟩, some ⟨.string, .string verb⟩]⟩

/-- Both arguments are optional words. -/
theorem mem_helpGrammar {d : Descriptor} (hd : d ∈ helpGrammar.parameters) :
    ∃ index name, d = wordAt index name := by
  rcases List.mem_cons.1 hd with rfl | hd
  · exact ⟨0, "command", rfl⟩
  · exact ⟨1, "verb", List.mem_singleton.1 hd⟩

theorem parse_helpGrammar_iff {text : List Char} {args : Arguments} :
    helpGrammar.parse special text = .ok args ↔
      ∃ items, helpGrammar.Accepts special items text ∧
        args = helpGrammar.argumentsOf special items :=
  Grammar.parse_eq_ok_iff declared_helpParameters
    (build_helpParameters (r := .empty fun _ _ => none) fun _ h => by cases h) special text args

/-- Nothing is required of a line. -/
theorem complete_helpGrammar (os : List Supply) : ∀ d ∈ helpGrammar.parameters,
    d.required = true → ∃ o ∈ os, o.parameter = d := by
  intro d hd hrequired
  obtain ⟨index, name, rfl⟩ := mem_helpGrammar hd
  exact absurd hrequired Bool.false_ne_true

theorem parse_word {name : String} (hname : IsName name) (h : Readable special name) :
    helpGrammar.parse special (' ' :: name.toList) = .ok (spoken name "") := by
  have hline := line_word hname h 0 "command" Text.atBoundary_nil (.done Text.blank_nil)
  rw [List.append_nil] at hline
  refine parse_helpGrammar_iff.2
    ⟨_, ⟨hline, ⟨[wordAt 1 "verb"], rfl⟩, List.nodup_singleton _, complete_helpGrammar _⟩, rfl⟩

theorem parse_words {name verb : String} (hname : IsName name) (h : Readable special name)
    (hverb : IsName verb) (hv : Readable special verb) :
    helpGrammar.parse special (' ' :: (name.toList ++ ' ' :: verb.toList)) =
      .ok (spoken name verb) := by
  have hlast := line_word hverb hv 1 "verb" Text.atBoundary_nil (.done Text.blank_nil)
  rw [List.append_nil] at hlast
  have hline := line_word hname h 0 "command" (by rfl) hlast
  refine parse_helpGrammar_iff.2
    ⟨_, ⟨hline, List.prefix_refl _, ?_, complete_helpGrammar _⟩, rfl⟩
  simp [Grammar.Item.supplies, wordAt, Grammar.describe]

/-- What a string argument takes of a text without a quote in front is a token. -/
theorem token_of_isValue {index : Nat} {name : String} {v : Value} {s t : List Char}
    (hquote : ∀ c ∈ s.head?, c ≠ '"' ∧ c ≠ '\'') (h : IsValue special (wordAt index name) v s t) :
    ∃ w, s = w ++ t ∧ ∀ c ∈ w, special.terminates c = false := by
  obtain ⟨c, r, rfl, -⟩ := Text.atBoundary_eq_false_iff.1 h.starts
  obtain ⟨hdouble, hsingle⟩ := hquote c rfl
  have hread : ((Reader.string special).map Value.string (c :: r)).2 = t := congrArg Prod.snd h.read
  have htoken : (Reader.token special (c :: r)).2 = t := by
    rw [← hread]
    simp [Reader.map, Reader.mapOption, Reader.string, hdouble, hsingle]
  refine ⟨(Reader.token special (c :: r)).1, ?_, fun d hd => ?_⟩
  · rw [← htoken, Reader.token, List.takeWhile_append_dropWhile]
  · simpa using List.mem_takeWhile_imp hd

/-- An item of `help` at the front of a word is the mark, or a string argument that the word
spells. -/
theorem readable_of_spelled {enabled : Bool} {item : Grammar.Item} {s t u : List Char}
    {name : String} (hname : IsName name) (ht : Text.atBoundary t = true)
    (hquote : ∀ c ∈ name.toList.head?, c ≠ '"' ∧ c ≠ '\'') (hmark : name ≠ "--")
    (hitem : ∀ d ∈ item.positional?, d ∈ helpGrammar.parameters)
    (h : Spelled helpGrammar special enabled item s u) (henabled : enabled = true)
    (hs : s = name.toList ++ t) : Readable special name := by
  cases h with
  | cluster hc =>
      cases hc with
      | flag hc | merged hc | attached hc | spaced hc => exact absurd hc not_hasShort
  | longFlag hl | longAttached hl | longSpaced hl => exact absurd hl not_hasLong
  | mark hu =>
      have hdashes : IsName "--" := by decide
      obtain ⟨hword, -⟩ :=
        Text.word_append_inj (w := doubleDash) hdashes.no_blank hname.no_blank hu ht hs
      exact absurd (String.toList_inj.1 (hword.symm.trans (by rfl))) hmark
  | @value d v _ _ hv ho =>
      obtain ⟨index, metavar, rfl⟩ := mem_helpGrammar (hitem d rfl)
      subst hs
      obtain ⟨w, hw, hwhole⟩ := token_of_isValue
        (by rwa [List.head?_append_of_ne_nil _ hname.toList_ne_nil]) hv
      obtain ⟨hword, -⟩ := Text.word_append_inj hname.no_blank
        (fun c hc => (Bool.or_eq_false_iff.1 (hwhole c hc)).1) ht hv.ends hw
      rw [looksLikeOption_iff, startsOption_append hname.toList_ne_nil ht] at ho
      exact ⟨hword ▸ hwhole, hquote, Bool.eq_false_iff.2 ho⟩
  | valueBehindMark => contradiction

/-- **Only readable words are read**, quotes in front and the mark apart. -/
theorem readable_of_parse {name : String} {t : List Char} {args : Arguments} (hname : IsName name)
    (ht : Text.atBoundary t = true) (hquote : ∀ c ∈ name.toList.head?, c ≠ '"' ∧ c ≠ '\'')
    (hmark : name ≠ "--")
    (h : helpGrammar.parse special (' ' :: (name.toList ++ t)) = .ok args) :
    Readable special name := by
  obtain ⟨items, haccepts, -⟩ := parse_helpGrammar_iff.1 h
  have hline := haccepts.line
  generalize hs : ' ' :: (name.toList ++ t) = s at hline
  have hstart := hname.atBoundary_append t
  cases hline with
  | done hb =>
      obtain ⟨c, r, hr, hc⟩ := Text.atBoundary_eq_false_iff.1 hstart
      rw [← hs, hr] at hb
      exact absurd (hb c (by simp)) (by simp [hc])
  | @item b _ i s u is hb hi _ =>
      have hskip : s = name.toList ++ t := by
        obtain ⟨c, r, rfl, hc⟩ := Text.atBoundary_eq_false_iff.1 hi.starts
        obtain ⟨c', r', hr, hc'⟩ := Text.atBoundary_eq_false_iff.1 hstart
        rw [← Text.skipBlanks_append_cons hb hc, ← hs, hr]
        exact Text.skipBlanks_append_cons (b := [' ']) (by simp; decide) hc'
      refine readable_of_spelled hname ht hquote hmark (fun d hd => ?_) hi rfl hskip
      refine (Grammar.mem_positionals.1 (haccepts.inOrder.subset ?_)).1
      exact List.mem_filterMap.2 ⟨i, List.mem_cons_self, hd⟩

end Console

end TypedConsole
