import TypedConsole.Proofs.RoundTrip

/-!
# TypedConsole.Proofs.StringLiterals

The literals of strings, all of them.

Escaping the quotes of a text is undone by the reader, and nothing else is: a quoted text has one
written form for each kind of quote (`quotedText_eq_some_iff`).  It ends at the first quote without
a backslash in front, and without such a quote it is rejected (`quotedText_eq_none_iff`).

A backslash in front of the closing quote would escape it.  So a text that ends with a backslash
has no quoted literal, and can only stand for itself, as a token.
-/

namespace TypedConsole.Reader

variable {special : SpecialSet} {quote : Char}

/-! ## the forms of a literal -/

/-- The characters that enclose strings. -/
def IsQuote (c : Char) : Prop := c = '"' ∨ c = '\''

/-- A text that is a literal of itself: a token that does not start with a quote. -/
structure Bare (special : SpecialSet) (w : List Char) : Prop where
  ne_nil : w ≠ []
  head : ∀ c ∈ w.head?, ¬IsQuote c
  token : ∀ c ∈ w, Text.isBlank c = false ∧ c ∉ special.toList

/-- No quote closes the text: each one has a backslash in front. -/
def Unterminated (quote : Char) (s : List Char) : Prop :=
  ∀ u t, s = u ++ quote :: t → u.getLast? = some '\\'

theorem IsQuote.ne_backslash (h : IsQuote quote) : quote ≠ '\\' := by
  rcases h with rfl | rfl <;> decide

theorem terminates_eq_false_iff {c : Char} :
    special.terminates c = false ↔ Text.isBlank c = false ∧ c ∉ special.toList := by
  simp [SpecialSet.terminates, SpecialSet.contains]

/-! ## quoted texts -/

/-- Escaping keeps the last character. -/
theorem getLast?_escaped (quote : Char) (s : List Char) :
    (escaped quote s).getLast? = s.getLast? := by
  induction s with
  | nil => rfl
  | cons c s ih =>
      by_cases hc : c = quote
      · simp [escaped, hc, List.getLast?_cons, ih]
      · simp [escaped, hc, List.getLast?_cons, ih]

/-- **A quoted text has one written form.**  It is read from the text with its quotes escaped, with
the closing quote behind it, and from nothing else. -/
theorem quotedText_eq_some_iff (hq : quote ≠ '\\') {s t v : List Char} :
    quotedText quote s = (some v, t) ↔
      v.getLast? ≠ some '\\' ∧ s = escaped quote v ++ quote :: t := by
  constructor
  · intro h
    fun_induction quotedText quote s generalizing v t with
    | case1 => simp at h
    | case2 s w u hw ih =>
        obtain ⟨hv, rfl⟩ := Prod.mk.inj h
        obtain ⟨a, rfl, rfl⟩ := Option.map_eq_some_iff.1 hv
        obtain ⟨hlast, rfl⟩ := ih hw
        refine ⟨?_, by simp [escaped]⟩
        cases a with
        | nil => simpa using hq
        | cons b a => rwa [List.getLast?_cons_cons]
    | case3 c s hc w u hw ih =>
        obtain ⟨hv, rfl⟩ := Prod.mk.inj h
        obtain ⟨a, rfl, rfl⟩ := Option.map_eq_some_iff.1 hv
        obtain ⟨hlast, htext⟩ := ih hw
        cases a with
        -- the backslash would stand in front of the closing quote
        | nil => exact absurd (List.cons.inj htext).1 hc
        | cons b a =>
            refine ⟨by rwa [List.getLast?_cons_cons], ?_⟩
            rw [htext, escaped.eq_def quote ('\\' :: b :: a)]
            simp [hq.symm]
    | case4 s hs =>
        obtain ⟨hv, rfl⟩ := Prod.mk.inj h
        obtain rfl := Option.some.inj hv
        exact ⟨by simp, rfl⟩
    | case5 c s hs hc w u hw ih =>
        obtain ⟨hv, rfl⟩ := Prod.mk.inj h
        obtain ⟨a, rfl, rfl⟩ := Option.map_eq_some_iff.1 hv
        obtain ⟨hlast, rfl⟩ := ih hw
        refine ⟨?_, by simp [escaped, hc]⟩
        cases a with
        | nil => exact fun hb => hs quote _ (by simpa using hb) rfl
        | cons b a => rwa [List.getLast?_cons_cons]
  · rintro ⟨hlast, rfl⟩
    exact quotedText_escaped_append hq hlast t

/-! ## texts without a closing quote -/

/-- Another character in front closes nothing. -/
theorem Unterminated.cons {c : Char} {s : List Char} (hs : Unterminated quote s)
    (hc : c ≠ quote) : Unterminated quote (c :: s) := by
  rintro (_ | ⟨d, u⟩) t h
  · exact absurd (List.cons.inj h).1 hc
  · obtain ⟨rfl, htail⟩ := List.cons.inj h
    rw [List.getLast?_cons, hs u t htail]
    rfl

/-- An escaped quote in front closes nothing. -/
theorem Unterminated.escape {s : List Char} (hs : Unterminated quote s) (hq : quote ≠ '\\') :
    Unterminated quote ('\\' :: quote :: s) := by
  rintro (_ | ⟨d, _ | ⟨e, u⟩⟩) t h
  · exact absurd (List.cons.inj h).1.symm hq
  · obtain ⟨rfl, -⟩ := List.cons.inj h
    rfl
  · obtain ⟨rfl, htail⟩ := List.cons.inj (List.cons.inj h).2
    rw [List.getLast?_cons_cons, List.getLast?_cons, hs u t htail]
    rfl

/-- **What is rejected behind a quote is what no quote closes.** -/
theorem quotedText_eq_none_iff (hq : quote ≠ '\\') {s : List Char} :
    (quotedText quote s).1 = none ↔ Unterminated quote s := by
  constructor
  · intro h
    fun_induction quotedText quote s with
    | case1 => exact fun u t h => absurd h (by simp)
    | case2 s w u hw ih => exact (ih (by rw [hw]; simpa using h)).escape hq
    | case3 c s hc w u hw ih => exact (ih (by rw [hw]; simpa using h)).cons hq.symm
    | case4 => simp at h
    | case5 c s hs hc w u hw ih => exact (ih (by rw [hw]; simpa using h)).cons hc
  · intro h
    cases hv : (quotedText quote s).1 with
    | none => rfl
    | some v =>
        obtain ⟨hlast, htext⟩ := (quotedText_eq_some_iff hq).1 (Prod.ext hv rfl)
        exact absurd ((getLast?_escaped quote v).symm.trans (h _ _ htext)) hlast

/-! ## strings -/

/-- Behind a quote, a string is a quoted text. -/
theorem string_of_isQuote (hq : IsQuote quote) (s : List Char) :
    string special (quote :: s) =
      ((quotedText quote s).1.map String.ofList, (quotedText quote s).2) := by
  have hquote : (quote = '"' || quote = '\'') = true := by simpa [IsQuote] using hq
  rw [string, if_pos hquote]

/-- Otherwise it is a token. -/
theorem string_of_not_isQuote {c : Char} (hc : ¬IsQuote c) (s : List Char) :
    string special (c :: s) =
      (if (token special (c :: s)).1.isEmpty then none
        else some (String.ofList (token special (c :: s)).1), (token special (c :: s)).2) := by
  have hquote : ¬(c = '"' || c = '\'') = true := by simpa [IsQuote] using hc
  rw [string, if_neg hquote]

/-- A token is the text up to the first character that ends one. -/
theorem token_eq_append (special : SpecialSet) (s : List Char) :
    s = (token special s).1 ++ (token special s).2 ∧
      (∀ c ∈ (token special s).1, Text.isBlank c = false ∧ c ∉ special.toList) ∧
      special.atTokenEnd (token special s).2 = true := by
  refine ⟨List.takeWhile_append_dropWhile.symm, fun c hc => ?_, atTokenEnd_iff.2 fun c hc => ?_⟩
  · exact terminates_eq_false_iff.1 (by simpa using List.mem_takeWhile_imp hc)
  · have hend := List.head?_dropWhile_not (!special.terminates ·) s
    simp only [token] at hc
    rw [Option.mem_def.1 hc] at hend
    simpa using hend

/-- A token that does not start with a quote is read as it stands. -/
theorem string_of_bare {w t : List Char} (hw : Bare special w)
    (ht : special.atTokenEnd t = true) :
    string special (w ++ t) = (some (String.ofList w), t) := by
  obtain ⟨c, r, rfl⟩ := List.exists_cons_of_ne_nil hw.ne_nil
  have htoken : token special (c :: (r ++ t)) = (c :: r, t) :=
    token_append_eq (fun d hd => terminates_eq_false_iff.2 (hw.token d hd)) ht
  rw [List.cons_append, string_of_not_isQuote (hw.head c rfl), htoken]
  rfl

/-- **The literals of a string**: the string in quotes of either kind with those quotes escaped,
or the string itself. -/
theorem string_eq_some_iff {s t : List Char} {v : String} :
    string special s = (some v, t) ↔
      (∃ quote, IsQuote quote ∧ v.toList.getLast? ≠ some '\\' ∧
        s = quoted quote v.toList ++ t) ∨
      Bare special v.toList ∧ special.atTokenEnd t = true ∧ s = v.toList ++ t := by
  constructor
  · intro h
    cases s with
    | nil => simp [string] at h
    | cons c s =>
        by_cases hc : IsQuote c
        · rw [string_of_isQuote hc] at h
          obtain ⟨hv, rfl⟩ := Prod.mk.inj h
          obtain ⟨w, hw, rfl⟩ := Option.map_eq_some_iff.1 hv
          obtain ⟨hlast, htext⟩ := (quotedText_eq_some_iff hc.ne_backslash).1 (Prod.ext hw rfl)
          rw [String.toList_ofList]
          refine .inl ⟨c, hc, hlast, ?_⟩
          rw [quoted, List.cons_append, List.append_assoc, List.singleton_append, ← htext]
        · obtain ⟨htext, htoken, hend⟩ := token_eq_append special (c :: s)
          rw [string_of_not_isQuote hc] at h
          obtain ⟨hv, rfl⟩ := Prod.mk.inj h
          split at hv
          · cases hv
          · next hne =>
              obtain rfl := Option.some.inj hv
              rw [String.toList_ofList]
              refine .inr ⟨⟨by simpa using hne, fun d hd => ?_, htoken⟩, hend, htext⟩
              have hhead : (c :: s).head? = (token special (c :: s)).1.head? := by
                conv_lhs => rw [htext]
                exact List.head?_append_of_ne_nil _ (by simpa using hne)
              rw [Option.mem_def.1 hd] at hhead
              exact Option.some.inj hhead ▸ hc
  · rintro (⟨quote, hq, hlast, rfl⟩ | ⟨hbare, ht, rfl⟩)
    · exact read_quoted hq hlast t
    · rw [string_of_bare hbare ht, String.ofList_toList]

/-- **Strings and their literals.**  Under every set of special characters, a string in quotes,
with those quotes escaped, is read as the string, whatever follows, unless it ends with a
backslash.  The strings that have a literal are exactly those that do not end with a backslash, and
those that are a token which does not start with a quote.  Behind a quote, exactly the texts without
a closing quote are rejected. -/
theorem string_inverts_quoting (special : SpecialSet) :
    (∀ quote, IsQuote quote → ∀ v : String, v.toList.getLast? ≠ some '\\' → ∀ rest,
      string special (quoted quote v.toList ++ rest) = (some v, rest)) ∧
    (∀ v : String, (∃ s, string special s = (some v, [])) ↔
      v.toList.getLast? ≠ some '\\' ∨ Bare special v.toList) ∧
    (∀ quote, IsQuote quote → ∀ s,
      (string special (quote :: s)).1 = none ↔ Unterminated quote s) := by
  refine ⟨fun quote hq v hv rest => read_quoted hq hv rest, fun v => ⟨?_, ?_⟩,
    fun quote hq s => ?_⟩
  · rintro ⟨s, hs⟩
    rcases string_eq_some_iff.1 hs with ⟨_, -, hlast, -⟩ | ⟨hbare, -⟩
    · exact .inl hlast
    · exact .inr hbare
  · rintro (hlast | hbare)
    · exact ⟨_, string_eq_some_iff.2 (.inl ⟨'"', .inl rfl, hlast, rfl⟩)⟩
    · exact ⟨_, string_eq_some_iff.2 (.inr ⟨hbare, rfl, rfl⟩)⟩
  · rw [string_of_isQuote hq, Option.map_eq_none_iff, quotedText_eq_none_iff hq.ne_backslash]

/-- A backslash in front of a quote, both inside a string; a backslash at the end, which has a
literal only without quotes, because it escapes the quote behind it. -/
theorem string_inverts_quoting_backslash :
    IsQuote '\'' ∧ (String.ofList ['a', '\\', '\'']).toList.getLast? ≠ some '\\' ∧
    string .builtIn ['\'', 'a', '\\', '\\', '\'', '\'', 'b'] =
      (some (String.ofList ['a', '\\', '\'']), ['b']) ∧
    (∃ s, string .builtIn s = (some (String.ofList ['a', '\\']), [])) ∧
    (¬∃ s, string .builtIn s = (some (String.ofList ['a', ' ', '\\']), [])) ∧
    (string .builtIn ['\'', 'a', '\\', '\'']).1 = none := by
  obtain ⟨hread, hliterals, hrejects⟩ := string_inverts_quoting .builtIn
  have hlast : (String.ofList ['a', '\\', '\'']).toList.getLast? ≠ some '\\' := by simp
  have hbare : Bare .builtIn (String.ofList ['a', '\\']).toList := by
    refine ⟨by simp, fun c hc => ?_, fun c hc => ?_⟩
    · obtain rfl : 'a' = c := by simpa using hc
      simp [IsQuote]
    · rcases (by simpa using hc : c = 'a' ∨ c = '\\') with rfl | rfl <;> decide
  refine ⟨.inr rfl, hlast, ?_, (hliterals _).2 (.inr hbare), fun h => ?_,
    (hrejects '\'' (.inr rfl) _).2 ?_⟩
  · simpa [quoted, escaped] using hread '\'' (.inr rfl) _ hlast ['b']
  · rcases (hliterals _).1 h with hlast | hspaced
    · simp at hlast
    · exact absurd (hspaced.token ' ' (by simp)).1 (by decide)
  · exact (Unterminated.escape (fun u t h => absurd h (by simp)) (by decide)).cons (by decide)

end TypedConsole.Reader
