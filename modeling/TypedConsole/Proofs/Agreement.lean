import TypedConsole.Interpretation
import TypedConsole.Proofs.Claims
import TypedConsole.Proofs.Spans

/-!
# TypedConsole.Proofs.Agreement

Reading depends on the special characters only through those that occur in the text.  Two sets that
agree on the characters of a text (`SpecialSet.AgreeOn`) read it alike: first the scalars, then
groups and pairs, then every parser (`Parser.read_of_agreeOn`), and last whole lines of arguments
(`Grammar.parse_of_agreeOn`), where the texts of defaults count as texts that are read.
-/

namespace TypedConsole

/-- The sets have the same ones of the characters of the text. -/
def SpecialSet.AgreeOn (s s' : SpecialSet) (text : List Char) : Prop :=
  ∀ c ∈ text, s.contains c = s'.contains c

namespace SpecialSet.AgreeOn

variable {s s' : SpecialSet} {text t : List Char}

theorem suffix (h : s.AgreeOn s' text) (ht : t <:+ text) : s.AgreeOn s' t :=
  fun c hc => h c (ht.subset hc)

theorem terminates (h : s.AgreeOn s' text) {c : Char} (hc : c ∈ text) :
    s.terminates c = s'.terminates c := by
  rw [SpecialSet.terminates, SpecialSet.terminates, h c hc]

theorem atTokenEnd (h : s.AgreeOn s' text) : s.atTokenEnd text = s'.atTokenEnd text := by
  cases text with
  | nil => rfl
  | cons c text => exact h.terminates List.mem_cons_self

end SpecialSet.AgreeOn

namespace Reader

/-! ## scalars -/

section Scalars

variable {s s' : SpecialSet} {text : List Char}

theorem token_of_agreeOn (h : s.AgreeOn s' text) : token s text = token s' text := by
  induction text with
  | nil => rfl
  | cons c text ih =>
      have hrest := ih (h.suffix (List.suffix_cons c text))
      simp only [token, Prod.mk.injEq] at hrest
      simp only [token, List.takeWhile_cons, List.dropWhile_cons,
        h.terminates List.mem_cons_self, hrest.1, hrest.2]

theorem string_of_agreeOn (h : s.AgreeOn s' text) : string s text = string s' text := by
  cases text with
  | nil => rfl
  | cons c text => simp only [string, token_of_agreeOn h]

theorem char_of_agreeOn (h : s.AgreeOn s' text) : char s text = char s' text := by
  cases text with
  | nil => rfl
  | cons c text => simp only [char, (h.suffix (List.suffix_cons c text)).atTokenEnd]

theorem bool_of_agreeOn (h : s.AgreeOn s' text) : bool s text = bool s' text := by
  simp only [bool, token_of_agreeOn h]

theorem integer_of_agreeOn (type : IntegerType) (h : s.AgreeOn s' text) :
    integer type s text = integer type s' text := by
  have hend := (h.suffix ((List.dropWhile_suffix Decimal.isDigit).trans
    (sign_suffix text))).atTokenEnd
  simp only [integer, hend]

theorem float_of_agreeOn (type : FloatType) (h : s.AgreeOn s' text) :
    float type s text = float type s' text := by
  have hend := (h.suffix ((decimal_suffix _).trans (sign_suffix text))).atTokenEnd
  simp only [float, hend]

end Scalars

/-! ## groups -/

variable {element element' : Nat → Reader α} {closing separator : Char}

/-- Elements are read alike if their readers agree on every part of the text. -/
theorem elements_congr (hclaims : ∀ i, (element i).Claims) {i : Nat} {b : Bool} {s : List Char}
    (h : ∀ i t, t <:+ s → element i t = element' i t) :
    elements closing separator element i b s = elements closing separator element' i b s :=
  elements_congr_of_visits fun j t ht => h j t (ht.suffix hclaims)

/-- Groups are read alike if the readers of their elements agree on every part of the text. -/
theorem group_congr (g : Groupings) (separator : Char) (hclaims : ∀ i, (element i).Claims)
    {s : List Char}
    (h : ∀ i t, t <:+ s → element i t = element' i t) :
    group g separator element s = group g separator element' s := by
  cases s with
  | nil => rfl
  | cons c s =>
      rw [group_cons, group_cons]
      split
      · rfl
      · exact elements_congr hclaims fun i t ht => h i t (ht.trans (List.suffix_cons c s))

end Reader

/-! ## parsers -/

namespace Parser

variable {s s' : SpecialSet} {text : List Char}

theorem readPair_congr {key key' value value' : Reader Value} (hclaims : key.Claims)
    (hkey : key text = key' text) (hvalue : ∀ t, t <:+ text → value t = value' t) :
    readPair key value text = readPair key' value' text := by
  have hskip := (Text.skipBlanks_suffix (key text).2).trans (hclaims text)
  simp only [readPair, ← hkey]
  split
  · rfl
  · next k t ht =>
      rw [ht] at hskip
      split
      · rfl
      · next c u hu =>
          rw [hu] at hskip
          have hrest : Text.skipBlanks u <:+ text :=
            (Text.skipBlanks_suffix u).trans ((List.suffix_cons c u).trans hskip)
          rw [hvalue _ hrest]

/-- **Every parser reads a text alike** under two sets that agree on its characters. -/
theorem read_of_agreeOn (p : Parser) (h : s.AgreeOn s' text) :
    p.read s text = p.read s' text := by
  induction p using Parser.induction generalizing text with
  | string => simp only [read, Reader.map, Reader.mapOption, Reader.string_of_agreeOn h]
  | char => simp only [read, Reader.map, Reader.mapOption, Reader.char_of_agreeOn h]
  | bool => simp only [read, Reader.map, Reader.mapOption, Reader.bool_of_agreeOn h]
  | integer type => simp only [read, Reader.map, Reader.mapOption, Reader.integer_of_agreeOn type h]
  | float type => simp only [read, Reader.map, Reader.mapOption, Reader.float_of_agreeOn type h]
  | optional p ih => simp only [read, Reader.map, Reader.mapOption, ih h]
  | sequence p g _ collect ih =>
      have hgroup := Reader.group_congr g memberSeparator
        (fun _ => p.claims_read s) fun _ t ht => ih (h.suffix ht)
      simp only [read, Reader.mapOption, hgroup]
  | pair k v ihk ihv =>
      have hpair := readPair_congr (k.claims_read s) (ihk h) fun t ht => ihv (h.suffix ht)
      simp only [read, Reader.map, Reader.mapOption, hpair]
  | map p _ bind ih =>
      have hgroup := Reader.group_congr .braces memberSeparator
        (fun _ => p.claims_read s) fun _ t ht => ih (h.suffix ht)
      simp only [read, Reader.mapOption, hgroup]
  | record slots form ih =>
      have hslot : ∀ i t, t <:+ text → slotReader s slots i t = slotReader s' slots i t :=
        fun i t ht => by
          simp only [slotReader, readSlots_eq_map, List.getD_eq_getElem?_getD, List.getElem?_map]
          cases hi : slots[i]? with
          | none => rfl
          | some slot => exact ih slot (List.mem_of_getElem? hi) (h.suffix ht)
      have hgroup := Reader.group_congr form.groupings form.separator
        (claims_slotReader fun slot _ => slot.parser.claims_read s) hslot
      simp only [read_record, Reader.mapOption, hgroup]
  | renamed p _ ih => simp only [read, ih h]
  | custom p => simp only [read]

end Parser

/-! ## lines of arguments -/

namespace Grammar

variable {s s' : SpecialSet} {text : List Char} {p : Progress} {d : Descriptor}

/-- Two readings of a line have the same outcome, and go on in that line. -/
structure SameOn (text : List Char) (x y : Except ParseError Progress) : Prop where
  eq : x = y
  text_eq : ∀ p, x = .ok p → p.cursor.text = text

namespace SameOn

theorem error (text : List Char) (e : ParseError) : SameOn text (.error e) (.error e) :=
  ⟨rfl, by simp⟩

theorem ok (hp : p.cursor.text = text) : SameOn text (.ok p) (.ok p) :=
  ⟨rfl, fun _ h => Except.ok.inj h ▸ hp⟩

theorem bind {x y : Except ParseError Progress} {f f' : Progress → Except ParseError Progress}
    (h : SameOn text x y) (hf : ∀ p, p.cursor.text = text → SameOn text (f p) (f' p)) :
    SameOn text (x >>= f) (y >>= f') := by
  rw [← h.eq]
  cases x with
  | error e => exact error text e
  | ok p => exact hf p (h.text_eq p rfl)

end SameOn

theorem readValue_sameOn (h : s.AgreeOn s' text) (hp : p.cursor.text = text) :
    SameOn text (readValue s d p) (readValue s' d p) := by
  have hrest : p.cursor.rest <:+ text := hp ▸ List.drop_suffix _ _
  have hread := d.parser.read_of_agreeOn (h.suffix hrest)
  obtain ⟨value, t, hr⟩ : ∃ value t, d.parser.read s' p.cursor.rest = (value, t) := ⟨_, _, rfl⟩
  simp only [readValue, Cursor.read, hread, hr]
  cases value with
  | none => exact .error text _
  | some v =>
      cases (p.cursor.leaving t).atBoundary with
      | false => exact .error text _
      | true =>
          simp only [Bool.not_true, Bool.false_eq_true, if_false]
          split
          · exact .ok hp
          · split
            · exact .ok hp
            · exact .error text _

theorem expectValue_sameOn (option : String) (hp : p.cursor.text = text) :
    SameOn text (expectValue option p) (expectValue option p) := by
  simp only [expectValue]
  split
  · exact .error text _
  · exact .ok hp

theorem longValue_sameOn (h : s.AgreeOn s' text) (hp : p.cursor.text = text) :
    SameOn text (longValue s d p) (longValue s' d p) := by
  simp only [longValue]
  split
  · split
    · exact .error text _
    · exact .ok hp
  · split
    · split
      · exact .error text _
      · exact readValue_sameOn h hp
    · exact (expectValue_sameOn d.label hp).bind fun p' hp' => readValue_sameOn h hp'

theorem longOption_sameOn (g : Grammar) (h : s.AgreeOn s' text) (hp : p.cursor.text = text) :
    SameOn text (g.longOption s p) (g.longOption s' p) := by
  simp only [longOption]
  split
  · exact .error text _
  · next d long _ =>
      cases checkFresh p d p.cursor.offset with
      | error e => exact .error text e
      | ok _ => exact longValue_sameOn h hp

theorem shortOptions_sameOn (g : Grammar) (h : s.AgreeOn s' text) (start : Nat)
    (hp : p.cursor.text = text) :
    SameOn text (g.shortOptions s start p) (g.shortOptions s' start p) := by
  induction hn : p.cursor.remaining using Nat.strongRecOn generalizing p with
  | ind n ih =>
      subst hn
      rw [shortOptions, shortOptions]
      split
      · exact .ok hp
      · next c r hr =>
          simp only
          split
          · exact .error text _
          · split
            · exact .error text _
            · split
              · split
                · exact .ok hp
                · refine ih _ ?_ hp rfl
                  have hlt := congrArg List.length hr
                  simp only [Cursor.length_rest, List.length_cons] at hlt
                  simp only [setFlag, supply, Cursor.remaining_advance]
                  omega
              · split
                · exact (expectValue_sameOn
                    (p := { p with cursor := p.cursor.advance 1 }) _ hp).bind
                    fun p' hp' => readValue_sameOn h hp'
                · exact readValue_sameOn h hp

theorem positional_sameOn (g : Grammar) (h : s.AgreeOn s' text) (hp : p.cursor.text = text) :
    SameOn text (g.positional s p) (g.positional s' p) := by
  simp only [positional]
  split
  · exact .error text _
  · exact readValue_sameOn h hp

theorem item_sameOn (g : Grammar) (h : s.AgreeOn s' text) (hp : p.cursor.text = text) :
    SameOn text (g.item s p) (g.item s' p) := by
  simp only [item]
  split
  · split
    · split
      · exact .ok hp
      · split
        · exact longOption_sameOn g h hp
        · split
          · exact shortOptions_sameOn g h _ hp
          · exact positional_sameOn g h hp
    · exact positional_sameOn g h hp
  · exact positional_sameOn g h hp

theorem items_of_agreeOn (g : Grammar) (h : s.AgreeOn s' text) (hp : p.cursor.text = text) :
    g.items s p = g.items s' p := by
  induction hn : p.cursor.skipBlanks.remaining using Nat.strongRecOn generalizing p with
  | ind n ih =>
      subst hn
      rw [items, items]
      have hitem := item_sameOn g h (p := { p with cursor := p.cursor.skipBlanks }) hp
      simp only [← hitem.eq]
      split
      · rfl
      · split
        · rfl
        · next p' hp' =>
            split
            · next hlt => exact ih _ hlt (hitem.text_eq p' hp') rfl
            · rfl

theorem settle_of_agreeOn {ds : List Descriptor} (offset : Nat)
    (h : ∀ d ∈ ds, ∀ literal, d.fallback = some (.text literal) → s.AgreeOn s' literal.toList)
    (vs : List (Option TypedValue)) : settle s offset ds vs = settle s' offset ds vs := by
  induction ds generalizing vs with
  | nil => simp only [settle]
  | cons d ds ih =>
      have hrest := ih fun e he => h e (List.mem_cons_of_mem d he)
      rcases vs with _ | ⟨_ | v, vs⟩
      · simp only [settle]
      · simp only [settle, hrest]
        split
        · next f _ hf =>
            have hvalue : fallbackValue s d f = fallbackValue s' d f := by
              cases f with
              | zero => rfl
              | value v => rfl
              | text literal =>
                  have hagree := (h d List.mem_cons_self literal hf).suffix
                    (Text.skipBlanks_suffix _)
                  simp only [fallbackValue, d.parser.read_of_agreeOn hagree]
            rw [hvalue]
        · rfl
      · simp only [settle, hrest]

/-- **Every grammar reads a line alike** under two sets that agree on the characters of the line and
of the defaults that are written as texts. -/
theorem parse_of_agreeOn (g : Grammar) (h : s.AgreeOn s' text)
    (hdefaults : ∀ d ∈ g.parameters, ∀ literal, d.fallback = some (.text literal) →
      s.AgreeOn s' literal.toList) : g.parse s text = g.parse s' text := by
  have hitems : g.items s (g.begin text) = g.items s' (g.begin text) := items_of_agreeOn g h rfl
  simp only [parse, hitems, settle_of_agreeOn _ hdefaults]

end Grammar

end TypedConsole
