import TypedConsole.Proofs.Resolution
import TypedConsole.Proofs.Sorting
import TypedConsole.Proofs.Spans

/-!
# TypedConsole.Proofs.Writing

How values are written, said without the readers.

`Writable` are the values of a type that have a literal: an optional value has to be present, a
text may not end with a backslash, and a character may not be one that ends a token.  `Literal`
are their literals:

1. integers are written in decimal digits, truth values as `true` and `false`, characters bare;
2. texts stand in quotes of either kind, where a backslash goes before each quote inside;
3. the elements of a container or record stand between an opening and a closing character, with
   blanks or one separator between neighbours;
4. a key and a value have a colon between them, which may have blanks around it.

The elements of sets and the bindings of maps may be written in any order.
-/

namespace TypedConsole

/-! ## scalars -/

/-- The digits of a number, with a minus in front of a negative one. -/
def decimalText : Int → List Char
  | .ofNat n => Nat.toDigits 10 n
  | .negSucc n => '-' :: Nat.toDigits 10 (n + 1)

/-- A text with a backslash before each quote. -/
def escaped (quote : Char) : List Char → List Char
  | [] => []
  | c :: s => if c = quote then '\\' :: quote :: escaped quote s else c :: escaped quote s

/-- A text between quotes. -/
def quoted (quote : Char) (s : List Char) : List Char := quote :: (escaped quote s ++ [quote])

/-! ## groups -/

/-- Angle brackets. -/
def Groupings.angles : Groupings := ⟨⟨'<', '>'⟩, []⟩

/-- What encloses and what separates the members of a group. -/
inductive Delimiters : Groupings → Char → Prop
  | brackets : Delimiters .brackets memberSeparator
  | braces : Delimiters .braces memberSeparator
  | angles : Delimiters .angles ';'

/-- What stands between two members: blanks, or one separator with blanks in front of it or none.
More blanks may follow. -/
inductive Gap (separator : Char) : List Char → Prop
  | blanks (hb : Text.Blank b) (hne : b ≠ []) : Gap separator b
  | separator (hb : Text.Blank b) : Gap separator (b ++ [separator])

/-- `Body separator ws s`: the text `s` consists of the members `ws` with gaps between them, and
perhaps blanks at its ends. -/
inductive Body (separator : Char) : List (List Char) → List Char → Prop
  | empty (hb : Text.Blank b) : Body separator [] b
  | last (hb : Text.Blank b) (hb' : Text.Blank b') : Body separator [w] (b ++ w ++ b')
  | more (hb : Text.Blank b) (hg : Gap separator g) (rest : Body separator (w' :: ws) s) :
      Body separator (w :: w' :: ws) (b ++ w ++ (g ++ s))

/-- The text `s` is a group of the members `ws`, in one of the groupings. -/
def Grouped (g : Groupings) (separator : Char) (ws : List (List Char)) (s : List Char) : Prop :=
  ∃ p ∈ g.toList, ∃ body, Body separator ws body ∧ s = p.opening :: (body ++ [p.closing])

/-- Members can be grouped, whatever they are: with a blank between them, for instance. -/
theorem exists_grouped (g : Groupings) (separator : Char) (ws : List (List Char)) :
    ∃ s, Grouped g separator ws s := by
  have hbody : ∃ body, Body separator ws body := by
    induction ws with
    | nil => exact ⟨[], .empty Text.blank_nil⟩
    | cons w ws ih =>
        obtain ⟨body, hbody⟩ := ih
        cases ws with
        | nil => exact ⟨_, .last Text.blank_nil Text.blank_nil⟩
        | cons w' ws =>
            have hblank : Text.Blank [' '] := by
              rw [Text.blank_cons]
              exact ⟨by decide, Text.blank_nil⟩
            exact ⟨_, .more Text.blank_nil (.blanks hblank (List.cons_ne_nil _ _)) hbody⟩
  obtain ⟨body, hbody⟩ := hbody
  exact ⟨_, g.first, List.mem_cons_self, body, hbody, rfl⟩

/-! ## values that can be written -/

section

variable (types : Declarations) (special : SpecialSet)

/-- `Writable types special t v`: the type `t` has the value `v`, and `v` can be written. -/
inductive Writable : Ty → Value → Prop
  | string (s : String) (hs : s.toList.getLast? ≠ some '\\') : Writable .string (.string s)
  | char (c : Char) (hc : special.terminates c = false) : Writable .char (.char c)
  | bool (b : Bool) : Writable .bool (.bool b)
  | integer (type : IntegerType) (n : Int) (hn : type.holds n = true) :
      Writable (.integer type) (.integer n)
  | present (h : Writable t v) : Writable (.optional t) (.present v)
  | sequence (kind : SequenceKind) (es : List Value) (h : ∀ e ∈ es, Writable t e)
      (hv : kind.collect es = some v) : Writable (.sequence kind t) v
  | set (i : Indexing) (es : List Value) (h : ∀ e ∈ es, Writable t e)
      (hes : es.Pairwise Value.Before) : Writable (.set i t) (.list es)
  | map (i : Indexing) (es : List (Value × Value)) (hk : ∀ e ∈ es, Writable k e.1)
      (hv : ∀ e ∈ es, Writable v e.2) (hes : es.Pairwise fun e f => e.1.Before f.1) :
      Writable (.map i k v) (Value.ofEntries es)
  | pair (hk : Writable k a) (hv : Writable v b) : Writable (.pair k v) (.pair a b)
  | record (spec : RecordSpec) (es : List (SlotSpec × Value))
      (hspec : recordSpec? types t = some spec) (hg : Delimiters spec.groupings spec.separator)
      (hes : es.map (·.1) = spec.slots) (h : ∀ e ∈ es, Writable e.1.type e.2)
      (hv : spec.assemble (es.map fun e => ⟨e.1.type, e.2⟩) = some v) : Writable t v
  | renamed (name : String) (zero : List Value → Value)
      (ht : types path args = some ⟨.alias name t, zero⟩) (h : Writable t v) :
      Writable (.declared path args) v

/-- `Literal types special t v s`: the text `s` is a literal of the value `v` of the type `t`. -/
inductive Literal : Ty → Value → List Char → Prop
  | string (s : String) (quote : Char) (hq : quote = '"' ∨ quote = '\'')
      (hs : s.toList.getLast? ≠ some '\\') :
      Literal .string (.string s) (quoted quote s.toList)
  | char (c : Char) (hc : special.terminates c = false) : Literal .char (.char c) [c]
  | boolTrue : Literal .bool (.bool true) ['t', 'r', 'u', 'e']
  | boolFalse : Literal .bool (.bool false) ['f', 'a', 'l', 's', 'e']
  | integer (type : IntegerType) (n : Int) (hn : type.holds n = true) :
      Literal (.integer type) (.integer n) (decimalText n)
  | present (h : Literal t v s) : Literal (.optional t) (.present v) s
  | sequence (kind : SequenceKind) (es : List (Value × List Char))
      (h : ∀ e ∈ es, Literal t e.1 e.2) (hv : kind.collect (es.map (·.1)) = some v)
      (hs : Grouped .brackets memberSeparator (es.map (·.2)) s) : Literal (.sequence kind t) v s
  | set (i : Indexing) (es : List (Value × List Char)) (h : ∀ e ∈ es, Literal t e.1 e.2)
      (hperm : (es.map (·.1)).Perm vs) (hvs : vs.Pairwise Value.Before)
      (hs : Grouped .braces memberSeparator (es.map (·.2)) s) : Literal (.set i t) (.list vs) s
  | map (i : Indexing) (es : List ((Value × Value) × List Char))
      (h : ∀ e ∈ es, Literal (.pair k v) (.pair e.1.1 e.1.2) e.2) (hperm : (es.map (·.1)).Perm fs)
      (hfs : fs.Pairwise fun e f => e.1.Before f.1)
      (hs : Grouped .braces memberSeparator (es.map (·.2)) s) :
      Literal (.map i k v) (Value.ofEntries fs) s
  | pair (hk : Literal k a s) (hb : Text.Blank b) (hb' : Text.Blank b') (hv : Literal v a' s') :
      Literal (.pair k v) (.pair a a') (s ++ (b ++ keySeparator :: (b' ++ s')))
  | record (spec : RecordSpec) (es : List (SlotSpec × Value × List Char))
      (hspec : recordSpec? types t = some spec) (hg : Delimiters spec.groupings spec.separator)
      (hes : es.map (·.1) = spec.slots) (h : ∀ e ∈ es, Literal e.1.type e.2.1 e.2.2)
      (hv : spec.assemble (es.map fun e => ⟨e.1.type, e.2.1⟩) = some v)
      (hs : Grouped spec.groupings spec.separator (es.map (·.2.2)) s) : Literal t v s
  | renamed (name : String) (zero : List Value → Value)
      (ht : types path args = some ⟨.alias name t, zero⟩) (h : Literal t v s) :
      Literal (.declared path args) v s

end

/-! ## every such value has a literal -/

/-- Texts for all members of a list, if there is one for each. -/
theorem exists_texts {P : α → List Char → Prop} {as : List α} (h : ∀ a ∈ as, ∃ s, P a s) :
    ∃ es : List (α × List Char), es.map (·.1) = as ∧ ∀ e ∈ es, P e.1 e.2 := by
  induction as with
  | nil => exact ⟨[], rfl, by simp⟩
  | cons a as ih =>
      obtain ⟨hsome, hrest⟩ := List.forall_mem_cons.1 h
      obtain ⟨s, hs⟩ := hsome
      obtain ⟨es, rfl, hes⟩ := ih hrest
      exact ⟨(a, s) :: es, rfl, List.forall_mem_cons.2 ⟨hs, hes⟩⟩

/-- **A value that can be written has a literal.** -/
theorem Writable.exists_literal {types : Declarations} {special : SpecialSet} {t : Ty} {v : Value}
    (h : Writable types special t v) : ∃ s, Literal types special t v s := by
  induction h with
  | string s hs => exact ⟨_, .string s '"' (.inl rfl) hs⟩
  | char c hc => exact ⟨_, .char c hc⟩
  | bool b =>
      cases b with
      | true => exact ⟨_, .boolTrue⟩
      | false => exact ⟨_, .boolFalse⟩
  | integer type n hn => exact ⟨_, .integer type n hn⟩
  | present _ ih =>
      obtain ⟨s, hs⟩ := ih
      exact ⟨s, .present hs⟩
  | sequence kind es _ hv ih =>
      obtain ⟨fs, rfl, hfs⟩ := exists_texts ih
      obtain ⟨s, hs⟩ := exists_grouped .brackets memberSeparator (fs.map (·.2))
      exact ⟨s, .sequence kind fs hfs hv hs⟩
  | set i es _ hes ih =>
      obtain ⟨fs, rfl, hfs⟩ := exists_texts ih
      obtain ⟨s, hs⟩ := exists_grouped .braces memberSeparator (fs.map (·.2))
      exact ⟨s, .set i fs hfs (.refl _) hes hs⟩
  | @map k v i es _ _ hes ihk ihv =>
      have hpairs : ∀ e ∈ es, ∃ s, Literal types special (.pair k v) (.pair e.1 e.2) s := by
        intro e he
        obtain ⟨s, hs⟩ := ihk e he
        obtain ⟨s', hs'⟩ := ihv e he
        exact ⟨_, .pair hs Text.blank_nil Text.blank_nil hs'⟩
      obtain ⟨fs, rfl, hfs⟩ := exists_texts hpairs
      obtain ⟨s, hs⟩ := exists_grouped .braces memberSeparator (fs.map (·.2))
      exact ⟨s, .map i fs hfs (.refl _) hes hs⟩
  | pair _ _ ihk ihv =>
      obtain ⟨s, hs⟩ := ihk
      obtain ⟨s', hs'⟩ := ihv
      exact ⟨_, .pair hs Text.blank_nil Text.blank_nil hs'⟩
  | record spec es hspec hg hes _ hv ih =>
      obtain ⟨fs, rfl, hfs⟩ := exists_texts ih
      obtain ⟨s, hs⟩ := exists_grouped spec.groupings spec.separator (fs.map (·.2))
      refine ⟨s, .record spec (fs.map fun e => (e.1.1, e.1.2, e.2)) hspec hg ?_ ?_ ?_ ?_⟩
      · rw [← hes, List.map_map, List.map_map]
        rfl
      · intro e he
        obtain ⟨f, hf, rfl⟩ := List.mem_map.1 he
        exact hfs f hf
      · rw [← hv, List.map_map, List.map_map]
        rfl
      · rw [List.map_map]
        exact hs
  | renamed name zero ht _ ih =>
      obtain ⟨s, hs⟩ := ih
      exact ⟨s, .renamed name zero ht hs⟩

end TypedConsole
