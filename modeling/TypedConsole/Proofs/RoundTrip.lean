import TypedConsole.Proofs.Claims
import TypedConsole.Proofs.Writing

/-!
# TypedConsole.Proofs.RoundTrip

Reading what has been written: a literal of a value is read as that value, and what follows the
literal is left as it is.

The section is layered like the parsers.  The *atoms* (`read_quoted`, `read_decimalText`) read one
scalar in front of the end of a token; the *walker* `members_of_body` goes through the members of
a group, each of which ends where the next gap or the closing character begins; `Literal.read_eq`
puts them together by induction on the literal.
-/

namespace TypedConsole

/-! ## special characters -/

namespace SpecialSet

variable {special : SpecialSet} {c : Char}

/-- No other characters are special than those of the outset and the angle brackets with their
separator. -/
def Usual (special : SpecialSet) : Prop :=
  ∀ c ∈ special.toList, c ∈ builtIn.toList ∨ c ∈ ['<', '>', ';']

theorem terminates_of_mem (hc : c ∈ special.toList) : special.terminates c = true := by
  simp [terminates, contains, hc]

/-- Characters of a class without blanks and special characters end no token. -/
theorem Usual.terminates_eq_false {f : Char → Bool} (h : special.Usual)
    (hblank : ∀ c, f c = true → Text.isBlank c = false)
    (hspecial : ((builtIn.toList ++ ['<', '>', ';']).all fun c => !f c) = true)
    (hc : f c = true) : special.terminates c = false := by
  have hnot : c ∉ special.toList := fun hmem => by
    have hf := List.all_eq_true.1 hspecial c (List.mem_append.2 (h c hmem))
    simp [hc] at hf
  simp [terminates, contains, hblank c hc, hnot]

/-- A digit ends no token. -/
theorem Usual.terminates_digit (h : special.Usual) (hc : Decimal.isDigit c = true) :
    special.terminates c = false := by
  refine h.terminates_eq_false (fun c hd => ?_) (by decide) hc
  by_contra hb
  rw [Text.isDigit_of_isBlank (by simpa using hb)] at hd
  contradiction

/-- What ends a token is no digit. -/
theorem Usual.isDigit_of_terminates (h : special.Usual) (hc : special.terminates c = true) :
    Decimal.isDigit c = false := by
  by_contra hd
  rw [h.terminates_digit (by simpa using hd)] at hc
  contradiction

/-- The characters of the truth values, the quotes and the minus. -/
def wordCharacters : List Char := ['t', 'r', 'u', 'e', 'f', 'a', 'l', 's', '"', '\'', '-']

/-- None of them ends a token. -/
theorem Usual.terminates_word (h : special.Usual) (hc : wordCharacters.contains c = true) :
    special.terminates c = false := by
  have hblank : (wordCharacters.all fun c => !Text.isBlank c) = true := by decide
  refine h.terminates_eq_false (fun c hc => ?_) (by decide) hc
  simpa using List.all_eq_true.1 hblank c (List.contains_iff_mem.1 hc)

/-- Behind blanks, a special character is the end of a token. -/
theorem atTokenEnd_append {b s : List Char} (hb : Text.Blank b) (hc : c ∈ special.toList) :
    special.atTokenEnd (b ++ c :: s) = true := by
  cases b with
  | nil => exact terminates_of_mem hc
  | cons a b => simp [atTokenEnd, terminates, (Text.blank_cons.1 hb).1]

end SpecialSet

/-! ## strings -/

namespace Reader

variable {special : SpecialSet}

/-- A text that is not empty does not start with the quote once its quotes are escaped. -/
theorem escaped_eq_cons {quote : Char} (hq : quote ≠ '\\') {s : List Char} (hs : s ≠ []) :
    ∃ c r, escaped quote s = c :: r ∧ c ≠ quote := by
  cases s with
  | nil => contradiction
  | cons a s =>
      by_cases ha : a = quote
      · exact ⟨'\\', _, by rw [escaped, if_pos ha], hq.symm⟩
      · exact ⟨a, _, by rw [escaped, if_neg ha], ha⟩

/-- A text is read up to its closing quote.  It may not end with a backslash, which would be read
together with the quote. -/
theorem quotedText_escaped_append {quote : Char} (hq : quote ≠ '\\') {s : List Char}
    (hs : s.getLast? ≠ some '\\') (rest : List Char) :
    quotedText quote (escaped quote s ++ quote :: rest) = (some s, rest) := by
  induction s with
  | nil => exact quotedText_quote hq rest
  | cons c s ih =>
      have hlast : s.getLast? ≠ some '\\' := by
        cases s with
        | nil => simp
        | cons a s => rwa [List.getLast?_cons_cons] at hs
      by_cases hc : c = quote
      · subst hc
        rw [escaped, if_pos rfl, List.cons_append, List.cons_append, quotedText_escaped,
          ih hlast]
        rfl
      · rw [escaped, if_neg hc, List.cons_append]
        by_cases hb : c = '\\'
        · subst hb
          have hne : s ≠ [] := fun h => by
            subst h
            exact hs rfl
          obtain ⟨a, r, ha, hane⟩ := escaped_eq_cons hq hne
          have hrest := ih hlast
          rw [ha, List.cons_append] at hrest ⊢
          rw [quotedText_backslash hane, hrest]
          rfl
        · rw [quotedText_char hc hb, ih hlast]
          rfl

/-- A quoted text is read as the string. -/
theorem read_quoted {quote : Char} (hq : quote = '"' ∨ quote = '\'') {s : String}
    (hs : s.toList.getLast? ≠ some '\\') (rest : List Char) :
    string special (quoted quote s.toList ++ rest) = (some s, rest) := by
  have hne : quote ≠ '\\' := by
    rcases hq with rfl | rfl
    · decide
    · decide
  have hquote : (quote = '"' || quote = '\'') = true := by simpa using hq
  have htext : quoted quote s.toList ++ rest =
      quote :: (escaped quote s.toList ++ quote :: rest) := by simp [quoted]
  rw [htext, string, if_pos hquote, quotedText_escaped_append hne hs]
  simp

/-! ## truth values and characters -/

/-- A word ends at the end of a token. -/
theorem token_append_eq {w rest : List Char} (hw : ∀ c ∈ w, special.terminates c = false)
    (hrest : special.atTokenEnd rest = true) : token special (w ++ rest) = (w, rest) := by
  have hw' : ∀ c ∈ w, (!special.terminates c) = true := fun c hc => by simp [hw c hc]
  have hrest' : ∀ c ∈ rest.head?, (!special.terminates c) = false := fun c hc => by
    simp [atTokenEnd_iff.1 hrest c hc]
  exact Prod.ext (takeWhile_append_eq_left hw' hrest') (dropWhile_append_eq_right hw' hrest')

/-- The word of a truth value is read up to the end of a token. -/
theorem read_truthValue (h : special.Usual) {w rest : List Char} {b : Bool}
    (hw : w.all SpecialSet.wordCharacters.contains = true)
    (hb : truthValue (Text.lowercase (String.ofList w)) = some b)
    (hrest : special.atTokenEnd rest = true) : bool special (w ++ rest) = (some b, rest) := by
  have hends : ∀ c ∈ w, special.terminates c = false := fun c hc =>
    h.terminates_word (List.all_eq_true.1 hw c hc)
  simp only [bool, token_append_eq hends hrest, hb]

theorem read_bare {c : Char} (hc : special.terminates c = false) {rest : List Char}
    (hrest : special.atTokenEnd rest = true) : char special (c :: rest) = (some c, rest) := by
  have hb : Text.isBlank c = false := by
    simp only [SpecialSet.terminates, Bool.or_eq_false_iff] at hc
    exact hc.1
  simp [char, hb, hrest]

/-! ## integers -/

theorem isDigit_of_mem_toDigits {n : Nat} {c : Char} (hc : c ∈ Nat.toDigits 10 n) :
    Decimal.isDigit c = true := by
  have hdigit := Nat.isDigit_of_mem_toDigits (by decide) (by decide) hc
  simpa [Char.isDigit, Decimal.isDigit, Char.le_def, UInt32.le_iff_toNat_le] using hdigit

theorem value_toDigits (n : Nat) : Decimal.value (Nat.toDigits 10 n) = n :=
  Nat.ofDigitChars_ten_toDigits

/-- A run of digits, perhaps with a sign in front, is read up to the end of a token. -/
theorem integer_append {type : IntegerType} {s digits rest : List Char} {sgn : Option Char}
    (h : special.Usual) (hsign : sign (s ++ rest) = (sgn, digits ++ rest)) (hne : digits ≠ [])
    (hdigits : ∀ c ∈ digits, Decimal.isDigit c = true) (hrest : special.atTokenEnd rest = true) :
    integer type special (s ++ rest) = (integerValue type sgn digits, rest) := by
  have hend : ∀ c ∈ rest.head?, Decimal.isDigit c = false := fun c hc =>
    h.isDigit_of_terminates (atTokenEnd_iff.1 hrest c hc)
  simp [integer, hsign, takeWhile_append_eq_left hdigits hend,
    dropWhile_append_eq_right hdigits hend, hne, hrest]

/-- An unsigned type holds no negative number. -/
theorem signed_of_holds {type : IntegerType} {n : Int} (hn : type.holds n = true) (hneg : n < 0) :
    type.signed = true := by
  by_contra hs
  simp only [IntegerType.holds, IntegerType.least, hs, if_false, Bool.and_eq_true,
    decide_eq_true_eq] at hn
  omega

/-- The digits of a number are read as the number. -/
theorem read_decimalText {type : IntegerType} {n : Int} (h : special.Usual)
    (hn : type.holds n = true) {rest : List Char} (hrest : special.atTokenEnd rest = true) :
    integer type special (decimalText n ++ rest) = (some n, rest) := by
  cases n with
  | ofNat n =>
      obtain ⟨c, r, hc⟩ := List.exists_cons_of_ne_nil (Nat.toDigits_ne_nil (n := n) (b := 10))
      have hdigit : Decimal.isDigit c = true :=
        isDigit_of_mem_toDigits (n := n) (hc ▸ List.mem_cons_self)
      have hsign : sign (Nat.toDigits 10 n ++ rest) = (none, Nat.toDigits 10 n ++ rest) := by
        have hplus : c ≠ '+' := fun he => by
          subst he
          exact absurd hdigit (by decide)
        have hminus : c ≠ '-' := fun he => by
          subst he
          exact absurd hdigit (by decide)
        simp [hc, sign, hplus, hminus]
      rw [decimalText, integer_append h hsign Nat.toDigits_ne_nil
        (fun _ => isDigit_of_mem_toDigits) hrest, integerValue, value_toDigits]
      show (if type.holds (Int.ofNat n) = true then some (Int.ofNat n) else none, rest) = _
      rw [if_pos hn]
  | negSucc n =>
      have hsign : sign ('-' :: Nat.toDigits 10 (n + 1) ++ rest) =
          (some '-', Nat.toDigits 10 (n + 1) ++ rest) := by simp [sign]
      have hsigned := signed_of_holds hn (Int.negSucc_lt_zero n)
      rw [decimalText, integer_append h hsign Nat.toDigits_ne_nil
        (fun _ => isDigit_of_mem_toDigits) hrest, integerValue, value_toDigits]
      have hvalue : -((n + 1 : Nat) : Int) = Int.negSucc n := rfl
      simp only [hvalue, hsigned, hn, Bool.and_self, if_true]

/-! ## groups -/

/-- Blanks in front of the members of a group do not matter. -/
theorem Members.skipBlanks {closing separator : Char} {element : Nat → Reader α} {i : Nat}
    {b : Bool} {s v : List Char} {as : List α} (h : Members closing separator element i b s as v) :
    Members closing separator element i b (Text.skipBlanks s) as v := by
  have hskip := Text.skipBlanks_skipBlanks s
  cases h with
  | close hs => exact .close (hskip.trans hs)
  | separated hs hclose hsep he hlt hu rest =>
      exact .separated (hskip.trans hs) hclose hsep he hlt hu rest
  | adjacent hs hclose hsep he hlt hu hd rest =>
      exact .adjacent (hskip.trans hs) hclose hsep he hlt hu hd rest

end Reader

/-- The characters that open groups. -/
def openings : List Char := ['[', '(', '\x7b', '<']

/-- A literal starts with a character that is neither a blank nor special, unless it opens a
group. -/
def Starts (special : SpecialSet) (s : List Char) : Prop :=
  ∃ c r, s = c :: r ∧ Text.isBlank c = false ∧ (c ∉ special.toList ∨ c ∈ openings)

/-- What ends and what separates the members of a group: special characters that open none. -/
structure Ends (special : SpecialSet) (closing separator : Char) : Prop where
  closing_blank : Text.isBlank closing = false
  closing_special : closing ∈ special.toList
  closing_opening : closing ∉ openings
  separator_blank : Text.isBlank separator = false
  separator_special : separator ∈ special.toList
  separator_opening : separator ∉ openings
  ne : closing ≠ separator

section Groups

variable {special : SpecialSet} {closing separator : Char}

/-- A literal starts with neither of them. -/
theorem Ends.ne_of_starts (h : Ends special closing separator) {s : List Char}
    (hs : Starts special s) :
    ∃ c r, s = c :: r ∧ Text.isBlank c = false ∧ c ≠ closing ∧ c ≠ separator := by
  obtain ⟨c, r, rfl, hblank, hc⟩ := hs
  refine ⟨c, r, rfl, hblank, fun he => ?_, fun he => ?_⟩
  · subst he
    exact hc.elim (fun hn => hn h.closing_special) h.closing_opening
  · subst he
    exact hc.elim (fun hn => hn h.separator_special) h.separator_opening

/-- Behind blanks, a member of a group starts with a character that is neither of them. -/
theorem Ends.member (h : Ends special closing separator) {b w : List Char} (hb : Text.Blank b)
    (hw : Starts special w) (t : List Char) :
    ∃ c r, w ++ t = c :: r ∧ Text.skipBlanks (b ++ (w ++ t)) = c :: r ∧ c ≠ closing ∧
      c ≠ separator ∧ t.length < (c :: r).length := by
  obtain ⟨c, r, rfl, hblank, hclose, hsep⟩ := h.ne_of_starts hw
  refine ⟨c, r ++ t, rfl, Text.skipBlanks_append_cons hb hblank, hclose, hsep, ?_⟩
  simp only [List.length_cons, List.length_append]
  omega

/-- A gap puts an end to a token, and behind its blanks stands the separator or what follows. -/
theorem Gap.cases_append {g : List Char} (hg : Gap separator g) (h : Ends special closing separator)
    (s : List Char) :
    special.atTokenEnd (g ++ s) = true ∧
      (Text.skipBlanks (g ++ s) = Text.skipBlanks s ∨
        Text.skipBlanks (g ++ s) = separator :: s) := by
  cases hg with
  | @blanks b hb hne =>
      refine ⟨?_, .inl (Text.skipBlanks_append hb)⟩
      obtain ⟨a, b, rfl⟩ := List.exists_cons_of_ne_nil hne
      simp [SpecialSet.atTokenEnd, SpecialSet.terminates, (Text.blank_cons.1 hb).1]
  | @separator b hb =>
      rw [List.append_assoc, List.singleton_append]
      refine ⟨SpecialSet.atTokenEnd_append hb h.separator_special, .inr ?_⟩
      exact Text.skipBlanks_append_cons hb h.separator_blank

/-- A body with members starts with the first one, behind blanks. -/
theorem Body.skipBlanks_append {w : List Char} {ws : List (List Char)} {s : List Char}
    (hbody : Body separator (w :: ws) s) {c : Char} {r : List Char} (hw : w = c :: r)
    (hc : Text.isBlank c = false) (t : List Char) :
    ∃ u, Text.skipBlanks (s ++ t) = c :: u := by
  subst hw
  have hskip : ∀ {b v : List Char}, Text.Blank b →
      Text.skipBlanks (b ++ c :: r ++ v ++ t) = c :: (r ++ v ++ t) := fun {b v} hb => by
    rw [List.append_assoc, List.append_assoc, List.cons_append,
      Text.skipBlanks_append_cons hb hc, List.append_assoc]
  cases hbody with
  | last hb _ => exact ⟨_, hskip hb⟩
  | more hb _ _ => exact ⟨_, hskip hb⟩

/-- **The members of a body are read one after the other**, if each of them is read up to the end
of a token. -/
theorem members_of_body {α : Type} {element : Nat → Reader α} (h : Ends special closing separator)
    {es : List (α × List Char)} {s : List Char} (hbody : Body separator (es.map (·.2)) s)
    (hstarts : ∀ e ∈ es, Starts special e.2) {i : Nat} {b : Bool} (hne : b = true → es ≠ [])
    (hread : ∀ j e, es[j]? = some e → ∀ rest, special.atTokenEnd rest = true →
      element (i + j) (e.2 ++ rest) = (some e.1, rest)) (rest : List Char) :
    Reader.Members closing separator element i b (s ++ closing :: rest) (es.map (·.1)) rest := by
  generalize hws : es.map (·.2) = ws at hbody
  induction hbody generalizing es i b with
  | @empty b' hb =>
      obtain rfl := List.map_eq_nil_iff.1 hws
      obtain rfl : b = false := by simpa using hne
      exact .close (Text.skipBlanks_append_cons hb h.closing_blank)
  | @last b₁ b₂ w hb₁ hb₂ =>
      obtain ⟨e, rfl, rfl⟩ := List.map_eq_singleton_iff.1 hws
      obtain ⟨c, r, hw, hskip, hclose, hsep, hlt⟩ :=
        h.member hb₁ (hstarts e List.mem_cons_self) (b₂ ++ closing :: rest)
      have hend : special.atTokenEnd (b₂ ++ closing :: rest) = true :=
        SpecialSet.atTokenEnd_append hb₂ h.closing_special
      have helement := hread 0 e rfl _ hend
      rw [hw] at helement
      rw [List.append_assoc, List.append_assoc]
      exact .adjacent hskip hclose hsep helement hlt
        (Text.skipBlanks_append_cons hb₂ h.closing_blank) h.ne
        (.close (Text.skipBlanks_cons h.closing_blank))
  | @more b₁ g w' ws u w hb₁ hg hrest ih =>
      obtain ⟨e, es', rfl, rfl, hws'⟩ := List.map_eq_cons_iff.1 hws
      obtain ⟨c, r, hw, hskip, hclose, hsep, hlt⟩ :=
        h.member hb₁ (hstarts e List.mem_cons_self) (g ++ (u ++ closing :: rest))
      have hes' : es' ≠ [] := fun he => by
        subst he
        contradiction
      obtain ⟨hend, hgap⟩ := hg.cases_append h (u ++ closing :: rest)
      have helement := hread 0 e rfl _ hend
      rw [hw] at helement
      have hread' : ∀ j e, es'[j]? = some e → ∀ rest, special.atTokenEnd rest = true →
          element (i + 1 + j) (e.2 ++ rest) = (some e.1, rest) := fun j e hj rest hr => by
        rw [Nat.add_assoc, Nat.add_comm 1 j]
        exact hread (j + 1) e hj rest hr
      have hmembers := fun b => ih (b := b) (fun e he => hstarts e (List.mem_cons_of_mem _ he))
        (fun _ => hes') hread' hws'
      rw [List.map_cons, List.append_assoc, List.append_assoc, List.append_assoc]
      rcases hgap with hgap | hgap
      · obtain ⟨e', es'', rfl⟩ := List.exists_cons_of_ne_nil hes'
        obtain ⟨d, v, hw', hblank', -, hsep'⟩ := h.ne_of_starts
          (hstarts e' (List.mem_cons_of_mem _ List.mem_cons_self))
        obtain ⟨x, hx⟩ := hrest.skipBlanks_append
          ((List.cons.inj hws').1.symm.trans hw') hblank' (closing :: rest)
        refine .adjacent hskip hclose hsep helement hlt (hgap.trans hx) hsep' ?_
        exact hx ▸ (hmembers false).skipBlanks
      · exact .separated hskip hclose hsep helement hlt hgap (hmembers true)

/-! ## delimiters -/

/-- The opening character of a grouping selects it. -/
theorem Delimiters.opening {g : Groupings} {p : Grouping} (h : Delimiters g separator)
    (hp : p ∈ g.toList) :
    g.openedBy p.opening = some p ∧ p.opening ∈ openings ∧ Text.isBlank p.opening = false := by
  revert p
  cases h with
  | brackets => decide
  | braces => decide
  | angles => decide

/-- The closing character and the separator end the members of a group. -/
theorem Delimiters.ends {g : Groupings} {p : Grouping} (h : Delimiters g separator)
    (hp : p ∈ g.toList) (hs : ∀ c ∈ g.characters ++ [separator], c ∈ special.toList) :
    Ends special p.closing separator := by
  have hclosing : p.closing ∈ special.toList := hs p.closing
    (List.mem_append_left _ (List.mem_flatMap.2 ⟨p, hp, by simp⟩))
  have hseparator : separator ∈ special.toList := hs separator (by simp)
  have hfacts : ∀ p ∈ g.toList, Text.isBlank p.closing = false ∧ p.closing ∉ openings ∧
      Text.isBlank separator = false ∧ separator ∉ openings ∧ p.closing ≠ separator := by
    cases h with
    | brackets => decide
    | braces => decide
    | angles => decide
  obtain ⟨hcb, hco, hsb, hso, hne⟩ := hfacts p hp
  exact ⟨hcb, hclosing, hco, hsb, hseparator, hso, hne⟩

/-- **A group is read as its members.** -/
theorem group_of_grouped {α : Type} {element : Nat → Reader α} {g : Groupings}
    (hg : Delimiters g separator)
    (hs : ∀ c ∈ g.characters ++ [separator], c ∈ special.toList)
    {es : List (α × List Char)} {s : List Char} (hgrouped : Grouped g separator (es.map (·.2)) s)
    (hstarts : ∀ e ∈ es, Starts special e.2)
    (hread : ∀ j e, es[j]? = some e → ∀ rest, special.atTokenEnd rest = true →
      element j (e.2 ++ rest) = (some e.1, rest)) (rest : List Char) :
    Reader.group g separator element (s ++ rest) = (some (es.map (·.1)), rest) := by
  obtain ⟨p, hp, body, hbody, rfl⟩ := hgrouped
  refine Reader.group_eq_some_iff.2
    ⟨p.opening, body ++ p.closing :: rest, p, by simp, (hg.opening hp).1, ?_⟩
  exact members_of_body (hg.ends hp hs) hbody hstarts (fun h => absurd h Bool.false_ne_true)
    (fun j e hj => by rw [Nat.zero_add]; exact hread j e hj) rest

/-- A group starts with a character that opens one. -/
theorem Grouped.starts {g : Groupings} (hg : Delimiters g separator) {ws : List (List Char)}
    {s : List Char} (h : Grouped g separator ws s) : Starts special s := by
  obtain ⟨p, hp, body, -, rfl⟩ := h
  obtain ⟨-, hopening, hblank⟩ := hg.opening hp
  exact ⟨p.opening, _, rfl, hblank, .inr hopening⟩

end Groups

/-! ## literals -/

section Literals

variable {types : Declarations} {special : SpecialSet} {t : Ty} {v : Value} {s : List Char}

/-- A text that starts like a literal does so whatever follows it. -/
theorem Starts.append (h : Starts special s) (u : List Char) : Starts special (s ++ u) := by
  obtain ⟨c, r, rfl, hblank, hc⟩ := h
  exact ⟨c, r ++ u, rfl, hblank, hc⟩

/-- A character that ends no token may start a literal. -/
theorem starts_of_terminates {c : Char} (hc : special.terminates c = false) (r : List Char) :
    Starts special (c :: r) := by
  simp only [SpecialSet.terminates, SpecialSet.contains, Bool.or_eq_false_iff,
    List.contains_eq_mem, decide_eq_false_iff_not] at hc
  exact ⟨c, r, rfl, hc.1, .inl hc.2⟩

/-- A literal starts with a character that is no blank and, unless it opens a group, not
special. -/
theorem Literal.starts (hu : special.Usual) (h : Literal types special t v s) :
    Starts special s := by
  induction h with
  | string s quote hq hs =>
      refine starts_of_terminates (hu.terminates_word ?_) _
      rcases hq with rfl | rfl
      · decide
      · decide
  | char c hc => exact starts_of_terminates hc _
  | boolTrue => exact starts_of_terminates (hu.terminates_word (by decide)) _
  | boolFalse => exact starts_of_terminates (hu.terminates_word (by decide)) _
  | integer type n hn =>
      cases n with
      | ofNat n =>
          obtain ⟨c, r, hc⟩ := List.exists_cons_of_ne_nil (Nat.toDigits_ne_nil (n := n) (b := 10))
          have hdigit : Decimal.isDigit c = true :=
            Reader.isDigit_of_mem_toDigits (n := n) (hc ▸ List.mem_cons_self)
          rw [decimalText, hc]
          exact starts_of_terminates (hu.terminates_digit hdigit) r
      | negSucc n => exact starts_of_terminates (hu.terminates_word (by decide)) _
  | present _ ih => exact ih
  | sequence _ _ _ _ hs => exact hs.starts .brackets
  | set _ _ _ _ _ hs => exact hs.starts .braces
  | map _ _ _ _ _ hs => exact hs.starts .braces
  | pair _ _ _ _ ihk _ => exact ihk.append _
  | record _ _ _ hg _ _ _ hs => exact hs.starts hg
  | renamed _ _ _ _ ih => exact ih

/-- A record with an element for every slot is assembled from them. -/
theorem complete_eq {slots : List (Slot Parser)} {es : List (SlotSpec × Value × List Char)}
    (h : es.map (·.1) = slots.map Slot.spec) (form : RecordForm) :
    Parser.complete slots form (es.map (·.2.1)) =
      form.assemble (es.map fun e => ⟨e.1.type, e.2.1⟩) := by
  have hlength : (es.map (·.2.1)).length = slots.length := by
    have := congrArg List.length h
    simpa using this
  have hsupplied : List.zipWith (fun (slot : Slot Parser) v => (⟨slot.type, v⟩ : TypedValue)) slots
      (es.map (·.2.1)) = es.map fun e => ⟨e.1.type, e.2.1⟩ := by
    clear hlength
    induction es generalizing slots with
    | nil => simp
    | cons e es ih =>
        obtain ⟨slot, slots, rfl, hslot, hslots⟩ := List.map_eq_cons_iff.1 h.symm
        have htype : slot.type = e.1.type := congrArg SlotSpec.type hslot
        rw [List.map_cons, List.map_cons, List.zipWith_cons_cons, ih hslots.symm, htype]
  rw [Parser.complete, hlength, List.drop_length, hsupplied]
  simp [Parser.defaults]

/-- The element at a place of a record is read by the parser of its slot. -/
theorem slotReader_eq {slots : List (Slot Parser)} {es : List (SlotSpec × Value × List Char)}
    (h : es.map (·.1) = slots.map Slot.spec) {j : Nat} {e : SlotSpec × Value × List Char}
    (hj : es[j]? = some e) (special : SpecialSet) :
    ∃ slot ∈ slots, slot.type = e.1.type ∧
      Parser.slotReader special slots j = slot.parser.read special := by
  have hspec : (slots.map Slot.spec)[j]? = some e.1 := by
    rw [← h, List.getElem?_map, hj]
    rfl
  rw [List.getElem?_map, Option.map_eq_some_iff] at hspec
  obtain ⟨slot, hslot, heq⟩ := hspec
  refine ⟨slot, List.mem_of_getElem? hslot, congrArg SlotSpec.type heq, ?_⟩
  rw [Parser.slotReader, Parser.readSlots_eq_map, List.getD_eq_getElem?_getD, List.getElem?_map,
    hslot]
  rfl

/-- A key and a value with a colon between them are read as a pair. -/
theorem readPair_append {key value : Reader Value} {a a' : Value} {ks vs b b' rest : List Char}
    (hb : Text.Blank b) (hb' : Text.Blank b') (hstarts : Starts special vs)
    (hk : key (ks ++ (b ++ keySeparator :: (b' ++ (vs ++ rest)))) =
      (some a, b ++ keySeparator :: (b' ++ (vs ++ rest))))
    (hv : value (vs ++ rest) = (some a', rest)) :
    Parser.readPair key value (ks ++ (b ++ keySeparator :: (b' ++ vs)) ++ rest) =
      (some (a, a'), rest) := by
  obtain ⟨c, r, hvs, hblank, -⟩ := hstarts.append rest
  rw [List.append_assoc, List.append_assoc, List.cons_append, List.append_assoc]
  refine Parser.readPair_eq_some_iff.2 ⟨_, b' ++ (vs ++ rest), hk, ?_, ?_⟩
  · exact Text.skipBlanks_append_cons hb (by decide)
  · rw [hvs, Text.skipBlanks_append_cons hb' hblank, ← hvs]
    exact hv

/-- A group of pairs in any order is read as the map of its bindings. -/
theorem map_of_grouped {q : Parser} {name : String} {es : List ((Value × Value) × List Char)}
    {fs : List (Value × Value)}
    (hspecial : ∀ c ∈ Groupings.braces.characters ++ [memberSeparator], c ∈ special.toList)
    (hs : Grouped .braces memberSeparator (es.map (·.2)) s)
    (hstarts : ∀ e ∈ es, Starts special e.2)
    (hread : ∀ e ∈ es, ∀ rest, special.atTokenEnd rest = true →
      q.read special (e.2 ++ rest) = (some (.pair e.1.1 e.1.2), rest))
    (hperm : (es.map (·.1)).Perm fs) (hfs : fs.Pairwise fun e f => e.1.Before f.1)
    (rest : List Char) :
    (Parser.map q name bindSorted).read special (s ++ rest) =
      (some (Value.ofEntries fs), rest) := by
  let pairs := es.map fun e => (Value.pair e.1.1 e.1.2, e.2)
  have htexts : pairs.map (·.2) = es.map (·.2) := by simp [pairs]
  have hvalues : pairs.map (·.1) = (es.map (·.1)).map fun e => Value.pair e.1 e.2 := by
    simp [pairs]
  refine Reader.mapOption_eq_some_iff.2 ⟨pairs.map (·.1), ?_, ?_⟩
  · refine group_of_grouped .braces hspecial (htexts ▸ hs) (fun e he => ?_)
      (fun j e hj rest hr => ?_) rest
    · obtain ⟨f, hf, rfl⟩ := List.mem_map.1 he
      exact hstarts f hf
    · obtain ⟨f, hf, rfl⟩ := List.mem_map.1 (List.mem_of_getElem? hj)
      exact hread f hf rest hr
  · rw [hvalues, List.filterMap_map]
    show (Parser.bindAll bindSorted ((es.map (·.1)).filterMap some)).map Value.ofEntries = _
    rw [List.filterMap_some, Value.bindAll_eq_of_perm hperm hfs]
    rfl

/-- A group with an element for every slot is read as the record of the elements. -/
theorem record_of_grouped {slots : List (Slot Parser)} {form : RecordForm}
    {es : List (SlotSpec × Value × List Char)} (hg : Delimiters form.groupings form.separator)
    (hspecial : ∀ c ∈ form.groupings.characters ++ [form.separator], c ∈ special.toList)
    (hs : Grouped form.groupings form.separator (es.map (·.2.2)) s)
    (hstarts : ∀ e ∈ es, Starts special e.2.2) (hes : es.map (·.1) = slots.map Slot.spec)
    (hread : ∀ e ∈ es, ∀ slot ∈ slots, slot.type = e.1.type →
      ∀ rest, special.atTokenEnd rest = true →
        slot.parser.read special (e.2.2 ++ rest) = (some e.2.1, rest))
    (hv : form.assemble (es.map fun e => ⟨e.1.type, e.2.1⟩) = some v) (rest : List Char) :
    (Parser.record slots form).read special (s ++ rest) = (some v, rest) := by
  have hvalues : es.map (·.2.1) = (es.map (·.2)).map (·.1) := by
    rw [List.map_map]
    rfl
  rw [Parser.read_record]
  refine Reader.mapOption_eq_some_iff.2 ⟨es.map (·.2.1), ?_, ?_⟩
  · rw [hvalues]
    refine group_of_grouped hg hspecial ?_ (fun e he => ?_) (fun j e hj rest hr => ?_) rest
    · rw [List.map_map]
      exact hs
    · obtain ⟨f, hf, rfl⟩ := List.mem_map.1 he
      exact hstarts f hf
    · rw [List.getElem?_map, Option.map_eq_some_iff] at hj
      obtain ⟨f, hf, rfl⟩ := hj
      obtain ⟨slot, hslot, htype, heq⟩ := slotReader_eq hes hf special
      rw [heq]
      exact hread f (List.mem_of_getElem? hf) slot hslot htype rest hr
  · rw [complete_eq hes, hv]

/-- **A literal is read as its value**, and what follows the end of its last token is left. -/
theorem Literal.read_eq (hu : special.Usual) (h : Literal types special t v s) {p : Parser}
    (hp : Makes types special t p) {rest : List Char} (hrest : special.atTokenEnd rest = true) :
    p.read special (s ++ rest) = (some v, rest) := by
  induction h generalizing p rest with
  | string s quote hq hs =>
      rw [hp.composes.eq_scalar rfl]
      exact Reader.map_eq_some_iff.2 ⟨s, Reader.read_quoted hq hs rest, rfl⟩
  | char c hc =>
      rw [hp.composes.eq_scalar rfl]
      exact Reader.map_eq_some_iff.2 ⟨c, Reader.read_bare hc hrest, rfl⟩
  | boolTrue =>
      rw [hp.composes.eq_scalar rfl]
      exact Reader.map_eq_some_iff.2 ⟨_, Reader.read_truthValue hu rfl rfl hrest, rfl⟩
  | boolFalse =>
      rw [hp.composes.eq_scalar rfl]
      exact Reader.map_eq_some_iff.2 ⟨_, Reader.read_truthValue hu rfl rfl hrest, rfl⟩
  | integer type n hn =>
      rw [hp.composes.eq_scalar rfl]
      exact Reader.map_eq_some_iff.2 ⟨n, Reader.read_decimalText hu hn hrest, rfl⟩
  | present _ ih =>
      obtain ⟨q, rfl, hq⟩ := hp.composes.eq_optional
      exact Reader.map_eq_some_iff.2 ⟨_, ih hq hrest, rfl⟩
  | sequence kind es h hv hs ih =>
      obtain ⟨q, name, rfl, hq, hspecial⟩ := hp.composes.eq_sequence
      refine Reader.mapOption_eq_some_iff.2 ⟨es.map (·.1), ?_, hv⟩
      exact group_of_grouped .brackets hspecial hs (fun e he => (h e he).starts hu)
        (fun _ e hj _ hr => ih e (List.mem_of_getElem? hj) hq hr) rest
  | set i es h hperm hvs hs ih =>
      obtain ⟨q, name, rfl, hq, hspecial⟩ := hp.composes.eq_set
      refine Reader.mapOption_eq_some_iff.2 ⟨es.map (·.1), ?_, ?_⟩
      · exact group_of_grouped .braces hspecial hs (fun e he => (h e he).starts hu)
          (fun _ e hj _ hr => ih e (List.mem_of_getElem? hj) hq hr) rest
      · rw [collectSet, Value.distinct_eq_of_perm hperm hvs]
  | map i es h hperm hfs hs ih =>
      obtain ⟨q, name, rfl, hq, hspecial⟩ := hp.composes.eq_map
      exact map_of_grouped hspecial hs (fun e he => (h e he).starts hu)
        (fun e he _ hr => ih e he hq hr) hperm hfs rest
  | @pair k a _ _ _ _ a' _ _ hb₁ hb₂ hv ihk ihv =>
      obtain ⟨q, q', rfl, hq, hq', hcolon⟩ := hp.composes.eq_pair
      refine Reader.map_eq_some_iff.2 ⟨(a, a'), ?_, rfl⟩
      exact readPair_append hb₁ hb₂ (hv.starts hu)
        (ihk hq (SpecialSet.atTokenEnd_append hb₁ hcolon)) (ihv hq' hrest)
  | record spec es hspec hg hes h hv hs ih =>
      obtain ⟨slots, rfl, hslots, hparsers, hspecial⟩ := hp.composes.eq_record hspec
      exact record_of_grouped hg hspecial hs (fun e he => (h e he).starts hu)
        (hes.trans hslots.symm)
        (fun e he slot hslot htype _ hr => ih e he (htype ▸ hparsers slot hslot) hr) hv rest
  | renamed name zero ht _ ih =>
      obtain ⟨q, rfl, hq⟩ := hp.composes.eq_renamed ht
      exact ih hq hrest

end Literals

/-- **Round trip.**  In a registry without registered parsers whose special characters are those of
the outset, and perhaps the angle brackets with their separator, every value of a type that can be
written has a literal, and the parser of the type reads each of its literals, in front of anything
that ends a token, as exactly that value, leaving exactly what follows. -/
theorem literal_round_trip {r r' : Registry} {t : Ty} {p : Parser} {v : Value}
    (hr : r.Uncustomized) (h : r.resolve t = (.ok p, r')) (hspecial : r'.special.Usual)
    (hv : Writable r'.types r'.special t v) :
    (∃ s, Literal r'.types r'.special t v s) ∧
      ∀ s, Literal r'.types r'.special t v s →
        ∀ rest, r'.special.atTokenEnd rest = true → r'.read p (s ++ rest) = (some v, rest) :=
  ⟨hv.exists_literal, fun _ hs _ hrest => hs.read_eq hspecial (hr.made_of_resolve h) hrest⟩

/-- A set of two numbers, written in the order that is not theirs, in front of a bracket. -/
theorem literal_round_trip_set :
    ∃ p r', (Registry.empty fun _ _ => none).resolve (.set .ordered (.integer .i32)) =
        (.ok p, r') ∧
      r'.special.Usual ∧
      Writable r'.types r'.special (.set .ordered (.integer .i32))
        (.list [.integer (-1), .integer 2]) ∧
      r'.read p ['\x7b', '2', ',', '-', '1', '\x7d', ']'] =
        (some (.list [.integer (-1), .integer 2]), [']']) := by
  let t : Ty := .set .ordered (.integer .i32)
  let r' := ((Registry.empty fun _ _ => none).resolve t).2
  have hresolve : (Registry.empty fun _ _ => none).resolve t =
      (.ok (.sequence (.integer .i32) .braces "BTreeSet<i32>" collectSet), r') := rfl
  have hspecial : r'.special.Usual := fun c hc => .inl hc
  have hbefore : [Value.integer (-1), .integer 2].Pairwise Value.Before := by
    simp [Value.Before, Value.compare]
    decide
  have hw : Writable r'.types r'.special t (.list [.integer (-1), .integer 2]) := by
    refine .set .ordered _ (fun e he => ?_) hbefore
    rcases List.mem_cons.1 he with rfl | he
    · exact .integer _ _ (by decide)
    · obtain rfl := List.mem_singleton.1 he
      exact .integer _ _ (by decide)
  have hs : Literal r'.types r'.special t (.list [.integer (-1), .integer 2])
      ['\x7b', '2', ',', '-', '1', '\x7d'] := by
    refine .set .ordered [(.integer 2, ['2']), (.integer (-1), ['-', '1'])] (fun e he => ?_)
      (.swap _ _ _) hbefore
      ⟨⟨'\x7b', '\x7d'⟩, by decide, ['2', ',', '-', '1'], ?_, rfl⟩
    · rcases List.mem_cons.1 he with rfl | he
      · exact .integer _ 2 (by decide)
      · obtain rfl := List.mem_singleton.1 he
        exact .integer _ (-1) (by decide)
    · exact .more Text.blank_nil (.separator Text.blank_nil) (.last Text.blank_nil Text.blank_nil)
  exact ⟨_, r', hresolve, hspecial, hw,
    (literal_round_trip (.empty _) hresolve hspecial hw).2 _ hs [']'] (by decide)⟩

end TypedConsole
