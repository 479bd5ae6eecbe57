import TypedConsole.Proofs.StringLiterals
import TypedConsole.Proofs.TypeNames

/-!
# TypedConsole.Proofs.DelimiterCoverage

Special characters cover the delimiters of all parsers.

A registry is used by events, as before, and by constructing parsers on it directly
(`Construction`).  Whatever a use makes has marked its delimiters first, and nothing that is special
ever ceases to be (`Resolution.step_marked`, `RegistryUse.grows_apply`).  So at any later time the
delimiters of the parser are special (`RegistryUse.special_of_creates`).

This is what keeps scalars without quotes apart from the groups that they stand in: what is claimed
for one holds no special character, but for the sign, the digits and the point of a number
(`Parser.exists_claimed`).  The sign does no harm to a member of a group, since no member is read at
a closing character or at a separator (`Parser.HasMember.head?_ne`).
-/

namespace TypedConsole

open Decimal (isDigit)

namespace Parser

/-! ## delimiters and members -/

/-- The characters that stand around and between the parts of a literal. -/
def delimiters : Parser → List Char
  | sequence _ g _ _ => g.characters ++ [memberSeparator]
  | pair _ _ => [keySeparator]
  | map _ _ _ => Groupings.braces.characters ++ [memberSeparator]
  | record _ form => form.groupings.characters ++ [form.separator]
  | string | char | bool | integer _ | float _ | optional _ | renamed _ _ | custom _ => []

/-- `p.HasMember special closing separator s q t`: reading the group `s` as `p` describes, which is
closed by `closing` and has `separator` between its members, `q` is to read a member at `t`. -/
inductive HasMember (special : SpecialSet) :
    Parser → Char → Char → List Char → Parser → List Char → Prop
  | sequence (hg : g.openedBy c = some ⟨opening, closing⟩)
      (h : Reader.Visits closing memberSeparator (fun _ => q.read special) 0 s i t) :
      HasMember special (.sequence q g label collect) closing memberSeparator (c :: s) q t
  | map (hg : Groupings.braces.openedBy c = some ⟨opening, closing⟩)
      (h : Reader.Visits closing memberSeparator (fun _ => q.read special) 0 s i t) :
      HasMember special (.map q label binder) closing memberSeparator (c :: s) q t
  | record (hg : form.groupings.openedBy c = some ⟨opening, closing⟩)
      (hslot : slots[i]? = some ⟨type, q, default⟩)
      (h : Reader.Visits closing form.separator (slotReader special slots) 0 s i t) :
      HasMember special (.record slots form) closing form.separator (c :: s) q t

variable {special : SpecialSet} {p q : Parser} {closing separator : Char} {s t : List Char}

theorem closing_mem_characters {g : Groupings} {c opening : Char}
    (h : g.openedBy c = some ⟨opening, closing⟩) : closing ∈ g.characters :=
  List.mem_flatMap.2 ⟨_, List.mem_of_find?_eq_some h, by simp⟩

/-- What a group is closed by and separated with are delimiters of its parser. -/
theorem HasMember.mem_delimiters (h : p.HasMember special closing separator s q t) :
    closing ∈ p.delimiters ∧ separator ∈ p.delimiters := by
  cases h with
  | sequence hg | map hg | record hg =>
      exact ⟨List.mem_append_left _ (closing_mem_characters hg),
        List.mem_append_right _ (List.mem_singleton.2 rfl)⟩

/-- No member is read at a closing character or at a separator. -/
theorem HasMember.head?_ne (h : p.HasMember special closing separator s q t) :
    t.head? ≠ some closing ∧ t.head? ≠ some separator := by
  have hcons : ∃ c r, t = c :: r ∧ c ≠ closing ∧ c ≠ separator := by
    cases h with
    | sequence _ h | map _ h | record _ _ h => exact h.exists_eq_cons
  obtain ⟨c, r, rfl, hclose, hsep⟩ := hcons
  exact ⟨fun h => hclose (Option.some.inj h), fun h => hsep (Option.some.inj h)⟩

/-! ## scalars without quotes -/

/-- What the parser reads at the front of the text is a string without quotes, a truth value or a
number. -/
def Bare (text : List Char) : Parser → Prop
  | string => ∀ c ∈ text.head?, ¬ Reader.IsQuote c
  | bool | integer _ | float _ => True
  | optional p | renamed p _ => p.Bare text
  | char | sequence _ _ _ _ | pair _ _ | map _ _ _ | record _ _ | custom _ => False

/-- The parser reads numbers. -/
def Numeric : Parser → Prop
  | integer _ | float _ => True
  | optional p | renamed p _ => p.Numeric
  | string | bool | char | sequence _ _ _ _ | pair _ _ | map _ _ _ | record _ _ | custom _ => False

/-- A character that a number at the front of the text can have: a digit, the point, or its sign. -/
def NumberChar (text : List Char) (c : Char) : Prop :=
  isDigit c = true ∨ c = '.' ∨ (c = '+' ∨ c = '-') ∧ text.head? = some c

/-- The characters that a parser claims. -/
def claimed (special : SpecialSet) (p : Parser) (text : List Char) : List Char :=
  text.take (text.length - (p.read special text).2.length)

theorem claimed_eq {w : List Char} (h : t = w ++ (p.read special t).2) :
    p.claimed special t = w := by
  have hlength := congrArg List.length h
  rw [List.length_append] at hlength
  have hw : t.length - (p.read special t).2.length = w.length := by omega
  rw [claimed, hw, h]
  exact List.take_left

end Parser

namespace Reader

variable {s : List Char}

/-- A token holds nothing that ends one. -/
theorem token_fst_terminates (special : SpecialSet) (s : List Char) :
    ∀ c ∈ (token special s).1, special.terminates c = false := by
  intro c hc
  have hstays : (!special.terminates c) = true :=
    List.mem_takeWhile_imp (p := (!special.terminates ·)) (l := s) hc
  simpa using hstays

theorem token_fst_append_snd (special : SpecialSet) (s : List Char) :
    s = (token special s).1 ++ (token special s).2 := List.takeWhile_append_dropWhile.symm

/-- A string without quotes is a token. -/
theorem string_snd (special : SpecialSet) (h : ∀ c ∈ s.head?, ¬ IsQuote c) :
    (string special s).2 = (token special s).2 := by
  cases s with
  | nil => rfl
  | cons c s =>
      have hquote : ¬ (decide (c = '"') || decide (c = '\'')) = true := by
        simpa [IsQuote] using h c rfl
      simp only [string, if_neg hquote]

/-- Nothing stands before a number but its sign. -/
theorem exists_sign_prefix (s : List Char) :
    ∃ w, s = w ++ (sign s).2 ∧ ∀ c ∈ w, (c = '+' ∨ c = '-') ∧ s.head? = some c := by
  cases s with
  | nil => exact ⟨[], rfl, nofun⟩
  | cons c s =>
      by_cases hc : (decide (c = '+') || decide (c = '-')) = true
      · refine ⟨[c], by simp only [sign, if_pos hc, List.singleton_append], fun d hd => ?_⟩
        obtain rfl := List.mem_singleton.1 hd
        exact ⟨by simpa using hc, rfl⟩
      · exact ⟨[], by simp only [sign, if_neg hc, List.nil_append], nofun⟩

/-- A decimal is made of digits and a point. -/
theorem exists_decimal_prefix (s : List Char) :
    ∃ w, s = w ++ (decimal s).2.2 ∧ ∀ c ∈ w, isDigit c = true ∨ c = '.' := by
  have hsplit := (List.takeWhile_append_dropWhile (p := isDigit) (l := s)).symm
  have hdigits {l : List Char} {c : Char} (hc : c ∈ l.takeWhile isDigit) : isDigit c = true :=
    List.mem_takeWhile_imp hc
  simp only [decimal]
  split
  · next r hr =>
      refine ⟨s.takeWhile isDigit ++ '.' :: r.takeWhile isDigit, ?_, fun c hc => ?_⟩
      · rw [List.append_assoc, List.cons_append, List.takeWhile_append_dropWhile, ← hr]
        exact hsplit
      · rcases List.mem_append.1 hc with hc | hc
        · exact .inl (hdigits hc)
        · exact (List.mem_cons.1 hc).symm.imp hdigits id
  · exact ⟨s.takeWhile isDigit, hsplit, fun c hc => .inl (hdigits hc)⟩

end Reader

namespace Parser

variable {special : SpecialSet} {p q : Parser} {t : List Char} {c : Char}

/-- **What is claimed for a scalar without quotes**: characters that end no token, and those of a
number. -/
theorem exists_claimed (special : SpecialSet) (q : Parser) (t : List Char) (hq : q.Bare t) :
    ∃ w, t = w ++ (q.read special t).2 ∧
      ∀ c ∈ w, special.terminates c = false ∨ q.Numeric ∧ NumberChar t c := by
  induction q using Parser.induction with
  | string =>
      refine ⟨(Reader.token special t).1, ?_, fun c hc =>
        .inl (Reader.token_fst_terminates special t c hc)⟩
      exact (Reader.string_snd special hq) ▸ Reader.token_fst_append_snd special t
  | bool =>
      exact ⟨(Reader.token special t).1, Reader.token_fst_append_snd special t, fun c hc =>
        .inl (Reader.token_fst_terminates special t c hc)⟩
  | integer type =>
      obtain ⟨w, hw, hsign⟩ := Reader.exists_sign_prefix t
      refine ⟨w ++ (Reader.sign t).2.takeWhile isDigit, ?_, fun c hc => .inr ⟨trivial, ?_⟩⟩
      · have hread : ((integer type).read special t).2 = (Reader.sign t).2.dropWhile isDigit :=
          Reader.integer_snd type special t
        rw [hread, List.append_assoc, List.takeWhile_append_dropWhile]
        exact hw
      · rcases List.mem_append.1 hc with hc | hc
        · exact .inr (.inr (hsign c hc))
        · exact .inl (List.mem_takeWhile_imp hc)
  | float type =>
      obtain ⟨w, hw, hsign⟩ := Reader.exists_sign_prefix t
      obtain ⟨v, hv, hdecimal⟩ := Reader.exists_decimal_prefix (Reader.sign t).2
      refine ⟨w ++ v, ?_, fun c hc => .inr ⟨trivial, ?_⟩⟩
      · have hread : ((float type).read special t).2 = (Reader.decimal (Reader.sign t).2).2.2 :=
          Reader.float_snd type special t
        rw [hread, List.append_assoc, ← hv]
        exact hw
      · rcases List.mem_append.1 hc with hc | hc
        · exact .inr (.inr (hsign c hc))
        · exact (hdecimal c hc).imp id .inl
  | optional p ih | renamed p _ ih => exact ih hq
  | char | sequence | pair | map | record | custom => exact hq.elim

/-- A special character is claimed for a number only. -/
theorem not_mem_claimed (hspecial : special.contains c = true) (hq : q.Bare t)
    (hnumber : q.Numeric → ¬ NumberChar t c) : c ∉ q.claimed special t := by
  obtain ⟨w, hw, hclaimed⟩ := exists_claimed special q t hq
  rw [claimed_eq hw]
  intro hc
  rcases hclaimed c hc with hends | ⟨hnumeric, hchar⟩
  · rw [SpecialSet.terminates, hspecial, Bool.or_true] at hends
    cases hends
  · exact hnumber hnumeric hchar

end Parser

/-! ## coverage -/

namespace Registry

/-- `r.Covers p`: what delimits the literals of `p` is special, and so scalars without quotes stop
at it. -/
structure Covers (r : Registry) (p : Parser) : Prop where
  special : ∀ c ∈ p.delimiters, r.isSpecial c = true
  /-- Wherever a scalar stands, no delimiter is claimed for it that is not a part of its number. -/
  anywhere : ∀ c ∈ p.delimiters, ∀ (q : Parser) (t : List Char), q.Bare t →
    (q.Numeric → ¬ Parser.NumberChar t c) → c ∉ q.claimed r.special t
  /-- A scalar that is a member of a group stops before the end of the group and before the next
  member.  Digits and points are no such ends for a number. -/
  member : ∀ closing separator s q t, p.HasMember r.special closing separator s q t → q.Bare t →
    ∀ c ∈ [closing, separator], (q.Numeric → isDigit c = false ∧ c ≠ '.') →
      c ∉ q.claimed r.special t

/-- All that is needed is that the delimiters are special. -/
theorem covers_of_special {r : Registry} {p : Parser}
    (h : ∀ c ∈ p.delimiters, c ∈ r.special.toList) : r.Covers p where
  special c hc := isSpecial_iff.2 (h c hc)
  anywhere c hc q t hq hnumber :=
    Parser.not_mem_claimed (isSpecial_iff.2 (h c hc)) hq hnumber
  member closing separator s q t hmember hq c hc hnumber := by
    obtain ⟨hclosing, hseparator⟩ := hmember.mem_delimiters
    obtain ⟨hnoclosing, hnoseparator⟩ := hmember.head?_ne
    have hdelimiter : c ∈ p.delimiters ∧ t.head? ≠ some c := by
      simp only [List.mem_cons, List.not_mem_nil, or_false] at hc
      rcases hc with rfl | rfl
      · exact ⟨hclosing, hnoclosing⟩
      · exact ⟨hseparator, hnoseparator⟩
    refine Parser.not_mem_claimed (isSpecial_iff.2 (h c hdelimiter.1)) hq fun hnumeric => ?_
    obtain ⟨hdigit, hpoint⟩ := hnumber hnumeric
    rintro (h | h | ⟨-, h⟩)
    · rw [hdigit] at h
      cases h
    · exact hpoint h
    -- a sign stands at the front of a number, and no member has a delimiter there
    · exact hdelimiter.2 h

end Registry

/-! ## constructions -/

/-- The parsers that can be made on a registry without being asked for by their type. -/
inductive Construction
  | sequence (g : Groupings) (label : String → String) (collect : List Value → Option Value)
      (element : Ty)
  | map (label : String) (bind : Binder) (key value : Ty)
  | pair (key value : Ty)
  | record (spec : RecordSpec)

namespace Construction

open Resolution

/-- Make the parser. -/
def run : Construction → Resolution Parser
  | sequence g label collect element => sequenceOf resolve g label collect element
  | map label bind key value => mapOf resolve label bind key value
  | pair key value => create resolve (.pair key value)
  | record spec => recordOf resolve spec

end Construction

namespace Resolution

variable {P : Declarations → SpecialSet → Ty → Parser → Prop} {r : Registry}

/-- The delimiters are marked first, and stay special. -/
theorem step_marked (hP : Composition P) {characters : List Char} {m : Resolution Parser}
    (hr : r.Sound P)
    (hm : ∀ r', r'.Sound P → Step P m r' fun p _ => p.delimiters = characters) :
    Step P (markSpecial characters >>= fun _ => m) r fun p r' =>
      ∀ c ∈ p.delimiters, c ∈ r'.special.toList := by
  refine (step_markSpecial hP hr characters).bind fun _ r₁ hr₁ _ hmarked => ?_
  obtain ⟨hsound, hgrows, hresult⟩ := hm r₁ hr₁
  exact ⟨hsound, hgrows, fun p hp c hc => hgrows.special (hmarked c (hresult p hp ▸ hc))⟩

/-- **Constructions** resolve what they need, and have special delimiters. -/
theorem step_run (hP : Composition P) (hr : r.Sound P) (construction : Construction) :
    Step P construction.run r fun p r' => ∀ c ∈ p.delimiters, c ∈ r'.special.toList := by
  have hresolve : Resolves P resolve := resolves_resolve hP
  cases construction with
  | sequence g label collect element =>
      refine step_marked hP hr fun r₁ hr₁ => ?_
      exact (hresolve element r₁ hr₁).bind fun p r₂ hr₂ _ _ => step_pure hr₂ rfl
  | map label bind key value =>
      refine step_marked hP hr fun r₁ hr₁ => ?_
      refine (hresolve key r₁ hr₁).bind fun k r₂ hr₂ _ _ => ?_
      refine (hresolve value r₂ hr₂).bind fun v r₃ hr₃ _ _ => ?_
      exact (hresolve _ r₃ hr₃).bind fun p r₄ hr₄ _ _ => step_pure hr₄ rfl
  | pair key value =>
      refine step_marked hP hr fun r₁ hr₁ => ?_
      refine (hresolve key r₁ hr₁).bind fun k r₂ hr₂ _ _ => ?_
      exact (hresolve value r₂ hr₂).bind fun v r₃ hr₃ _ _ => step_pure hr₃ rfl
  | record spec =>
      refine step_marked hP hr fun r₁ hr₁ => ?_
      exact (step_slots hP hresolve hr₁ spec.slots).bind fun slots r₂ hr₂ _ _ =>
        step_pure hr₂ rfl

end Resolution

/-! ## uses -/

/-- What can be done with a registry. -/
inductive RegistryUse
  | event (e : RegistryEvent)
  | construct (construction : Construction)

/-- A type that had no parser in `r` has the parser `p` in `r'`. -/
def Registry.Stores (r r' : Registry) (p : Parser) : Prop :=
  ∃ t, r.lookup t = none ∧ r'.lookup t = some p

namespace RegistryUse

/-- The registry after the use, whether that succeeded or not. -/
def apply (r : Registry) : RegistryUse → Registry
  | event e => e.apply r
  | construct construction => (construction.run.on r).2

/-- The use makes the parser: it stores it for a type that had none, or gives it out.  A parser that
is registered has been made before. -/
def Creates (r : Registry) (p : Parser) : RegistryUse → Prop
  | event (.call c) => r.Stores (c.apply r) p
  | event (.register _ _) | event (.mark _) => False
  | construct construction =>
    (construction.run.on r).1 = .ok p ∨ r.Stores (construction.run.on r).2 p

end RegistryUse

namespace Registry

variable {r r' : Registry} {p : Parser}

/-- The parser was stored for the type in `r`, or its delimiters are special. -/
def OldOrCovered (r : Registry) (_ : Declarations) (special : SpecialSet) (t : Ty) (p : Parser) :
    Prop :=
  r.lookup t = some p ∨ ∀ c ∈ p.delimiters, c ∈ special.toList

/-- What is composed has marked its delimiters. -/
theorem composition_oldOrCovered (r : Registry) : Composition r.OldOrCovered where
  mono h hsub := h.imp id fun hcovered c hc => hsub (hcovered c hc)
  composed h := by
    refine .inr ?_
    cases h with
    | string | char | bool | integer | float | optional | renamed => exact nofun
    | sequence _ _ _ hs | set _ _ _ hs | map _ _ _ hs | record _ _ _ _ _ hs => exact hs
    | pair _ _ hs => exact List.forall_mem_singleton.2 hs

theorem sound_oldOrCovered (r : Registry) : r.Sound r.OldOrCovered := fun _ _ h => .inl h

/-- What is stored anew is not old. -/
theorem Sound.special_of_stores (h : r'.Sound r.OldOrCovered) (hp : r.Stores r' p) :
    ∀ c ∈ p.delimiters, c ∈ r'.special.toList := by
  obtain ⟨t, hnone, hsome⟩ := hp
  rcases h t p hsome with hold | hcovered
  · rw [hnone] at hold
    cases hold
  · exact hcovered

theorem Sound.resolveAll {P : Declarations → SpecialSet → Ty → Parser → Prop}
    (hP : Composition P) (h : r.Sound P) (ts : List Ty) : (r.resolveAll ts).Sound P := by
  induction ts generalizing r with
  | nil => exact h
  | cons t ts ih => exact ih (h.resolve hP t)

end Registry

namespace RegistryUse

open Registry (Grows composition_oldOrCovered sound_oldOrCovered)

variable {r : Registry} {p : Parser}

/-- **A step**: no use takes a special character away. -/
theorem grows_apply (r : Registry) (use : RegistryUse) : r.Grows (use.apply r) := by
  cases use with
  | event e =>
      cases e with
      | call c =>
          obtain ⟨ts, -, hr⟩ := c.apply_resolves r
          have hgains := r.gains_resolveAll ts
          rw [apply, RegistryEvent.apply, hr]
          exact ⟨hgains.types, hgains.special_subset⟩
      | register t p => exact ⟨rfl, List.Subset.refl _⟩
      | mark characters => exact r.grows_addSpecial characters
  | construct construction =>
      exact (Resolution.step_run (composition_oldOrCovered r) (sound_oldOrCovered r)
        construction).grows

/-- **A step**: the delimiters of what a use makes are special from then on. -/
theorem special_of_creates {use : RegistryUse} (h : use.Creates r p) :
    ∀ c ∈ p.delimiters, c ∈ (use.apply r).special.toList := by
  cases use with
  | event e =>
      cases e with
      | call c =>
          -- a call resolves types one after the other, and what that stores is composed
          obtain ⟨ts, -, hr⟩ := c.apply_resolves r
          have hsound := (sound_oldOrCovered r).resolveAll (composition_oldOrCovered r) ts
          rw [← hr] at hsound
          exact hsound.special_of_stores h
      | register | mark => exact h.elim
  | construct construction =>
      have hstep := Resolution.step_run (composition_oldOrCovered r) (sound_oldOrCovered r)
        construction
      rcases h with hresult | hstored
      · exact hstep.result p hresult
      · exact hstep.sound.special_of_stores hstored

end RegistryUse

/-! ## histories -/

namespace Registry

variable {r : Registry} {types : Declarations}

/-- The registry after uses, one after the other, that had no parsers at first. -/
def afterUses (types : Declarations) (uses : List RegistryUse) : Registry :=
  uses.foldl RegistryUse.apply (empty types)

/-- **A run**: over any number of uses special characters only become more. -/
theorem grows_uses (r : Registry) (uses : List RegistryUse) :
    r.Grows (uses.foldl RegistryUse.apply r) := by
  induction uses generalizing r with
  | nil => exact .refl r
  | cons use uses ih => exact (use.grows_apply r).trans (ih (use.apply r))

theorem grows_afterUses (types : Declarations) (before later : List RegistryUse) :
    (afterUses types before).Grows (afterUses types (before ++ later)) := by
  rw [afterUses, afterUses, List.foldl_append]
  exact grows_uses _ later

theorem afterUses_concat (types : Declarations) (uses : List RegistryUse) (use : RegistryUse) :
    afterUses types (uses ++ [use]) = use.apply (afterUses types uses) := by
  rw [afterUses, List.foldl_append]
  rfl

/-- **Special characters cover every delimiter.**  Whatever a registry was used for, with success or
without, the eight characters of the outset are special, no character has ceased to be, and every
parser that was made on the way is covered. -/
theorem afterUses_covers (types : Declarations) (uses : List RegistryUse) :
    (∀ c ∈ ['[', ']', '(', ')', '\x7b', '\x7d', ',', ':'],
      (afterUses types uses).isSpecial c = true) ∧
    (∀ before later, uses = before ++ later → ∀ c, (afterUses types before).isSpecial c = true →
      (afterUses types uses).isSpecial c = true) ∧
    ∀ before use later p, uses = before ++ use :: later →
      use.Creates (afterUses types before) p → (afterUses types uses).Covers p := by
  have hgrows (before later) (h : uses = before ++ later) :
      (afterUses types before).special.toList ⊆ (afterUses types uses).special.toList :=
    h ▸ (grows_afterUses types before later).special
  refine ⟨fun c hc => ?_, fun before later h c hc => ?_, fun before use later p h hp => ?_⟩
  · have hbuiltIn : c ∈ SpecialSet.builtIn.toList := SpecialSet.mem_add.2 (.inr hc)
    exact isSpecial_iff.2 (hgrows [] uses rfl hbuiltIn)
  · exact isSpecial_iff.2 (hgrows before later h (isSpecial_iff.1 hc))
  · have hlater : uses = (before ++ [use]) ++ later := by
      rw [h, List.append_assoc, List.singleton_append]
    refine covers_of_special fun c hc => hgrows _ later hlater ?_
    rw [afterUses_concat]
    exact RegistryUse.special_of_creates hp c hc

/-- A record of one word between angle brackets. -/
def angledWord : Catalogue.FreeRecord where
  slots := [{ type := .string }]
  groupings := ⟨⟨'<', '>'⟩, []⟩
  separator := ';'

/-- Strings are resolved, and then the record. -/
def wordUses : List RegistryUse :=
  [.event (.call (.resolve .string)), .event (.call (.resolve (Catalogue.type "Dyn")))]

/-- The record is covered: its word ends before the closing bracket. -/
theorem afterUses_covers_angledWord :
    ∃ p, (afterUses (Catalogue.types angledWord) wordUses).lookup (Catalogue.type "Dyn") = some p ∧
      p.delimiters = ['<', '>', ';'] ∧
      p.HasMember (afterUses (Catalogue.types angledWord) wordUses).special '>' ';'
        ['<', 'a', '>', 'b'] .string ['a', '>', 'b'] ∧
      '>' ∉ Parser.string.claimed (afterUses (Catalogue.types angledWord) wordUses).special
        ['a', '>', 'b'] := by
  obtain ⟨-, -, hcovers⟩ := afterUses_covers (Catalogue.types angledWord) wordUses
  have hrecord := hcovers [.event (.call (.resolve .string))]
    (.event (.call (.resolve (Catalogue.type "Dyn")))) [] _ rfl
    ⟨Catalogue.type "Dyn", rfl, rfl⟩
  have hmember : (angledWord.spec.parser [⟨.string, .string, none⟩]).HasMember
      (afterUses (Catalogue.types angledWord) wordUses).special '>' ';' ['<', 'a', '>', 'b']
      .string ['a', '>', 'b'] :=
    .record rfl rfl (.here rfl (by decide) (by decide))
  refine ⟨_, rfl, rfl, hmember, ?_⟩
  have hbare : Parser.string.Bare ['a', '>', 'b'] := by simp [Parser.Bare, Reader.IsQuote]
  exact hrecord.member '>' ';' _ .string _ hmember hbare '>' List.mem_cons_self False.elim

end Registry

end TypedConsole
