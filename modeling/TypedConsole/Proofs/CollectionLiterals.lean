import TypedConsole.Proofs.Alike
import TypedConsole.Proofs.Contents
import TypedConsole.Proofs.Creation
import TypedConsole.Proofs.Lookahead
import TypedConsole.Proofs.Pieces

/-!
# TypedConsole.Proofs.CollectionLiterals

The literals of sets and maps, and what they hold.

A literal in braces is a group cut into pieces (`TypedConsole.Proofs.Pieces`), which the parser of
the elements reads whole (`Braced`).  Nothing else is known of that parser: it may be one that was
registered, and it may look as far ahead as it likes.

What the elements are collected into is decided when the group has been read to its end, so a key
that is repeated costs the whole literal (`ReadsMaps`), and elements that are repeated do not
count (`ReadsSets`).
-/

namespace TypedConsole

open Reader

/-! ## elements in braces -/

namespace Parser

/-- `q.Braced special vs s t`: the text `s` is a group in braces followed by `t`, and `q` reads its
pieces whole, as the elements `vs`. -/
def Braced (q : Parser) (special : SpecialSet) (vs : List Value) (s t : List Char) : Prop :=
  ∃ ps, CutGroup Groupings.braces.toList memberSeparator ps s t ∧
    List.Forall₂ (fun p v => p.ReadAs (q.read special) v) ps vs

/-- Bindings as the pairs of a key and a value. -/
def pairs (es : List (Value × Value)) : List Value := es.map fun e => .pair e.1 e.2

variable {p q : Parser} {special : SpecialSet} {vs : List Value} {es : List (Value × Value)}
  {s t : List Char}

theorem Braced.group_eq (h : q.Braced special vs s t) :
    group .braces memberSeparator (fun _ => q.read special) s = (some vs, t) := by
  obtain ⟨ps, hps, hread⟩ := h
  exact hps.groupIn_eq (readAll_const_iff.2 hread)

/-- A set collects its elements at the end of the literal. -/
theorem Braced.read_sequence (h : q.Braced special vs s t) (name : String)
    (collect : List Value → Option Value) :
    (sequence q .braces name collect).read special s = (collect vs, t) := by
  rw [read, Reader.mapOption, h.group_eq]
  rfl

/-- A map binds its pairs at the end of the literal. -/
theorem Braced.read_map (h : q.Braced special (pairs es) s t) (name : String) (bind : Binder) :
    (map q name bind).read special s = ((bindAll bind es).map Value.ofEntries, t) := by
  rw [read, Reader.mapOption, h.group_eq, pairs]
  simp only [Option.bind_some, List.filterMap_map]
  show ((bindAll bind (es.filterMap some)).map Value.ofEntries, t) = _
  rw [List.filterMap_some]

/-! ## maps -/

/-- `p.ReadsMaps q`: literals in braces, of pairs that `q` reads whole, are maps to `p`. -/
structure ReadsMaps (p q : Parser) : Prop where
  /-- With distinct keys the map has exactly these bindings, in increasing order of the keys. -/
  distinct : ∀ special es s t, q.Braced special (pairs es) s t → (Value.keys es).Nodup →
    ∃ fs, p.read special s = (some (Value.ofEntries fs), t) ∧ Value.Increasing fs ∧ fs.Perm es ∧
      ∀ k v, Value.find? k fs = some v ↔ (k, v) ∈ es
  /-- With a key that is repeated the literal is refused, but has been claimed to its end. -/
  repeated : ∀ special es s t, q.Braced special (pairs es) s t → ¬(Value.keys es).Nodup →
    p.read special s = (none, t)

theorem readsMaps_map (q : Parser) (name : String) : (map q name bindSorted).ReadsMaps q where
  distinct special es s t h hes := by
    obtain ⟨fs, hfs⟩ := Value.exists_bindAll hes
    obtain ⟨-, hperm, hincreasing⟩ := Value.bindAll_eq_some_iff.1 hfs
    refine ⟨fs, ?_, hincreasing, hperm, fun k v => ?_⟩
    · rw [h.read_map, hfs]
      rfl
    · rw [Value.find?_eq_some_iff hincreasing.nodup_keys, hperm.mem_iff]
  repeated special es s t h hes := by
    have hnone : bindAll bindSorted es = none :=
      Option.eq_none_iff_forall_ne_some.2 fun fs hfs => hes (Value.bindAll_eq_some_iff.1 hfs).1
    rw [h.read_map, hnone]
    rfl

/-- **The order of the pairs does not matter**, nor which of the parsers for maps reads them. -/
theorem ReadsMaps.read_perm {p' q' : Parser} (hp : p.ReadsMaps q) (hp' : p'.ReadsMaps q')
    {special' : SpecialSet} {es' : List (Value × Value)} {s' t' : List Char}
    (h : q.Braced special (pairs es) s t) (h' : q'.Braced special' (pairs es') s' t')
    (hperm : es'.Perm es) : (p'.read special' s').1 = (p.read special s).1 := by
  have hkeys : (Value.keys es').Perm (Value.keys es) := hperm.map _
  by_cases hes : (Value.keys es).Nodup
  · obtain ⟨fs, hread, hfs, hfsperm, -⟩ := hp.distinct special es s t h hes
    obtain ⟨fs', hread', hfs', hfsperm', -⟩ :=
      hp'.distinct special' es' s' t' h' (hkeys.nodup_iff.2 hes)
    rw [hread, hread', hfs'.eq_of_perm hfs (hfsperm'.trans (hperm.trans hfsperm.symm))]
  · rw [hp.repeated special es s t h hes,
      hp'.repeated special' es' s' t' h' (mt hkeys.nodup_iff.1 hes)]

/-! ## sets -/

/-- `p.ReadsSets q`: literals in braces, of elements that `q` reads whole, are sets to `p`.  The
set has exactly the distinct elements, in increasing order. -/
def ReadsSets (p q : Parser) : Prop :=
  ∀ special vs s t, q.Braced special vs s t →
    ∃ ws, p.read special s = (some (.list ws), t) ∧ ws.Pairwise Value.Before ∧ ws.Nodup ∧
      ∀ v, v ∈ ws ↔ v ∈ vs

theorem readsSets_sequence (q : Parser) (name : String) :
    (sequence q .braces name collectSet).ReadsSets q := fun _ vs _ _ h =>
  ⟨Value.distinct vs, h.read_sequence name collectSet, (Value.distinct_spec vs).1,
    Value.nodup_distinct vs, fun _ => Value.mem_distinct⟩

/-- **Neither the order of the elements matters nor how often each is written**, nor which of the
parsers for sets reads them. -/
theorem ReadsSets.read_congr {p' q' : Parser} (hp : p.ReadsSets q) (hp' : p'.ReadsSets q')
    {special' : SpecialSet} {vs' : List Value} {s' t' : List Char}
    (h : q.Braced special vs s t) (h' : q'.Braced special' vs' s' t')
    (hmem : ∀ v, v ∈ vs' ↔ v ∈ vs) : (p'.read special' s').1 = (p.read special s).1 := by
  obtain ⟨ws, hread, hws, -, hmemws⟩ := hp special vs s t h
  obtain ⟨ws', hread', hws', -, hmemws'⟩ := hp' special' vs' s' t' h'
  have hsame : ws' = ws := Value.eq_of_mem_iff hws' hws fun v => by rw [hmemws', hmemws, hmem]
  rw [hread, hread', hsame]

/-- Optional sets are sets that are present. -/
theorem ReadsSets.read_optionals (hp : p.ReadsSets q) (h : q.Braced special vs s t) (n : Nat) :
    ∃ v, (optional^[n] p).read special s = (some v, t) ∧
      v.elementCount = {v | v ∈ vs}.ncard := by
  induction n with
  | zero =>
      obtain ⟨ws, hread, hws, -, hmem⟩ := hp special vs s t h
      have hsame : ws = Value.distinct vs :=
        Value.eq_of_mem_iff hws (Value.distinct_spec vs).1 fun v => by rw [hmem, Value.mem_distinct]
      exact ⟨_, hread, by rw [hsame, ← Value.length_distinct]; rfl⟩
  | succ n ih =>
      obtain ⟨v, hread, hcount⟩ := ih
      refine ⟨.present v, ?_, hcount⟩
      rw [Function.iterate_succ_apply', read, Reader.map, Reader.mapOption, hread]
      rfl

/-! ## pieces in other places -/

/-- A piece that is read whole is read so in front of anything that stops a token. -/
theorem Synthesized.readAs {v : Value} (hq : q.Synthesized) {piece : Piece}
    (h : piece.ReadAs (q.read special) v) {z : List Char} (hz : special.Stops z) :
    (⟨piece.text, z⟩ : Piece).ReadAs (q.read special) v :=
  hq.carries (.inr hz) piece.text v h

/-- `q.Rearranges`: pieces that `q` reads whole may stand in other places of a literal in braces,
in front of anything that stops a token. -/
structure Rearranges (q : Parser) : Prop where
  /-- The same pairs in another order are the same bindings in another order. -/
  permuted : ∀ special (es : List (Value × Value)) (ps ps' : List Piece) s t,
    List.Forall₂ (fun p v => p.ReadAs (q.read special) v) ps (pairs es) →
    CutGroup Groupings.braces.toList memberSeparator ps' s t →
    (∀ p ∈ ps', special.Stops p.behind) → (ps'.map (·.text)).Perm (ps.map (·.text)) →
    ∃ es', es'.Perm es ∧ q.Braced special (pairs es') s t
  /-- The same pieces in another order and number have the same distinct elements. -/
  repeated : ∀ special vs (ps ps' : List Piece) s t,
    List.Forall₂ (fun p v => p.ReadAs (q.read special) v) ps vs →
    CutGroup Groupings.braces.toList memberSeparator ps' s t →
    (∀ p ∈ ps', special.Stops p.behind) →
    (∀ e, e ∈ ps'.map (·.text) ↔ e ∈ ps.map (·.text)) →
    ∃ vs', (∀ v, v ∈ vs' ↔ v ∈ vs) ∧ q.Braced special vs' s t

/-- In matched lists each member of one is related to a member of the other. -/
theorem exists_mem_of_forall₂ {α β : Type} {R : α → β → Prop} {as : List α} {bs : List β}
    (h : List.Forall₂ R as bs) : (∀ a ∈ as, ∃ b ∈ bs, R a b) ∧ ∀ b ∈ bs, ∃ a ∈ as, R a b := by
  induction h with
  | nil => simp
  | cons hab _ ih =>
      refine ⟨fun a ha => ?_, fun b hb => ?_⟩
      · rcases List.mem_cons.1 ha with rfl | ha
        · exact ⟨_, List.mem_cons_self, hab⟩
        · exact (ih.1 a ha).imp fun b hb => ⟨List.mem_cons_of_mem _ hb.1, hb.2⟩
      · rcases List.mem_cons.1 hb with rfl | hb
        · exact ⟨_, List.mem_cons_self, hab⟩
        · exact (ih.2 b hb).imp fun a ha => ⟨List.mem_cons_of_mem _ ha.1, ha.2⟩

/-- Parsers without custom parts look no further than that. -/
theorem Synthesized.rearranges (hq : q.Synthesized) : q.Rearranges where
  permuted special es ps ps' s t hread hps' hstops hperm := by
    -- what is known of a text and a binding, wherever the text stands
    let R : List Char → Value × Value → Prop := fun e b =>
      ∀ z, special.Stops z → (⟨e, z⟩ : Piece).ReadAs (q.read special) (.pair b.1 b.2)
    have htexts : List.Forall₂ R (ps.map (·.text)) es := by
      rw [pairs, List.forall₂_map_right_iff] at hread
      exact List.forall₂_map_left_iff.2 (hread.imp fun _ _ h z hz => hq.readAs h hz)
    obtain ⟨es', htexts', hes'⟩ := List.perm_comp_forall₂ hperm htexts
    rw [List.forall₂_map_left_iff] at htexts'
    refine ⟨es', hes', ps', hps', List.forall₂_map_right_iff.2 ?_⟩
    exact ((List.forall₂_and_left _ _).2 ⟨hstops, htexts'⟩).imp fun piece _ h => h.2 _ h.1
  repeated special vs ps ps' s t hread hps' hstops hmem := by
    obtain ⟨hvalue, hpiece⟩ := exists_mem_of_forall₂ hread
    -- each piece has the value that the same text had
    have hmoved : ∀ p' ∈ ps', ∃ v, v ∈ vs ∧ p'.ReadAs (q.read special) v := by
      intro p' hp'
      obtain ⟨p, hp, htext⟩ := List.mem_map.1 ((hmem _).1 (List.mem_map_of_mem hp'))
      obtain ⟨v, hv, hpv⟩ := hvalue p hp
      have hmoved := hq.readAs hpv (hstops p' hp')
      rw [htext] at hmoved
      exact ⟨v, hv, hmoved⟩
    have : Nonempty Value := ⟨.unit⟩
    choose! value hmem' hread' using hmoved
    refine ⟨ps'.map value, fun v => ⟨fun hv => ?_, fun hv => ?_⟩, ps', hps', ?_⟩
    · obtain ⟨p', hp', rfl⟩ := List.mem_map.1 hv
      exact hmem' p' hp'
    · obtain ⟨p, hp, hpv⟩ := hpiece v hv
      obtain ⟨p', hp', htext⟩ := List.mem_map.1 ((hmem _).2 (List.mem_map_of_mem hp))
      have hmoved := hq.readAs hpv (hstops p' hp')
      rw [← htext] at hmoved
      have hsame := (Prod.mk.inj (hmoved.symm.trans (hread' p' hp'))).1
      exact List.mem_map.2 ⟨p', hp', (Option.some.inj hsame).symm⟩
    · exact List.forall₂_map_right_iff.2 (List.forall₂_same.2 hread')

end Parser

/-! ## what resolution gives -/

namespace Registry

variable {r r' : Registry} {i : Indexing} {k v t : Ty} {p : Parser}

/-- Both types of maps are read by way of the parser of their pairs. -/
theorem readsMaps_of_resolve (hnew : r.lookup (.map i k v) = none)
    (h : r.resolve (.map i k v) = (.ok p, r')) :
    ∃ q, r'.lookup (.pair k v) = some q ∧ p.ReadsMaps q := by
  obtain ⟨ps, hps, hp⟩ := composed_of_resolve hnew h
  have hparts : List.Forall₂ (fun t p => r'.lookup t = some p) [k, v, .pair k v] ps := hps
  rcases hparts with _ | ⟨-, _ | ⟨-, _ | ⟨hq, ⟨⟩⟩⟩⟩
  obtain rfl := Except.ok.inj hp
  exact ⟨_, hq, Parser.readsMaps_map _ _⟩

/-- Both types of sets are read by way of the parser of their elements. -/
theorem readsSets_of_resolve (hnew : r.lookup (.set i t) = none)
    (h : r.resolve (.set i t) = (.ok p, r')) :
    ∃ q, r'.lookup t = some q ∧ p.ReadsSets q := by
  obtain ⟨ps, hps, hp⟩ := composed_of_resolve hnew h
  have hparts : List.Forall₂ (fun t p => r'.lookup t = some p) [t] ps := hps
  rcases hparts with _ | ⟨hq, ⟨⟩⟩
  obtain rfl := Except.ok.inj hp
  exact ⟨_, hq, Parser.readsSets_sequence _ _⟩

/-- In a registry without registered parsers the pieces of literals may change places. -/
theorem Uncustomized.rearranges {q : Parser} (hr : r.Uncustomized) (hq : r.lookup t = some q) :
    q.Rearranges :=
  (Parser.synthesized_of_makes (hr.sound t q hq)).rearranges

end Registry

/-! ## element counts -/

open Grammar (readValue supply)

/-- **The bounds of a parameter are those of the number of distinct elements.** -/
theorem Parser.ReadsSets.readValue_eq {p q : Parser} (hp : p.ReadsSets q) {n : Nat}
    {d : Descriptor} (hd : d.parser = Parser.optional^[n] p) (hcounted : d.counted = true)
    {special : SpecialSet} {progress : Progress} {vs : List Value} {t : List Char}
    (h : q.Braced special vs progress.cursor.rest t) (ht : Text.atBoundary t = true) :
    ∃ v : Value, v.elementCount = {v | v ∈ vs}.ncard ∧
      readValue special d progress =
        if d.arity.permits {v | v ∈ vs}.ncard then
          .ok (supply { progress with cursor := progress.cursor.leaving t } d ⟨d.type, v⟩)
        else .error (.elementCount d.label {v | v ∈ vs}.ncard progress.cursor.offset) := by
  obtain ⟨v, hread, hcount⟩ := hp.read_optionals h n
  refine ⟨v, hcount, ?_⟩
  rw [Grammar.readValue_eq, hd]
  simp only [hread, ht, Grammar.countOf, hcounted, hcount, if_true]

/-! ## the theorem -/

/-- **What maps and sets keep of a literal.**  Let any parsers be registered, for keys, values,
pairs or elements, and let any characters be special.

1. For both types of maps, unless a parser is stored for the type itself, a literal of pairs that
   the parser of pairs reads whole is a map exactly if the keys are distinct.  Then the map has
   exactly these bindings; otherwise the literal is refused, and claimed to its end.
2. The same pairs in another order give the same map, or none either, by way of any parsers of maps.
3. For both types of sets, unless a parser is stored for the type itself, a literal of elements that
   their parser reads whole is the set of the distinct ones.
4. The same elements in another order and number give the same set, by way of any parsers of sets.
5. What the bounds of a parameter permit or refuse is the number of distinct elements, also if the
   set is optional.
6. If no parser has been registered, then the texts of the pairs or elements may themselves be
   written in another order, and those of elements in another number: they are read as before, as
   long as something that stops a token follows each of them. -/
theorem collections_keep_distinct :
    (∀ (r r' : Registry) (i : Indexing) (k v : Ty) (p : Parser), r.lookup (.map i k v) = none →
      r.resolve (.map i k v) = (.ok p, r') →
      ∃ q, r'.lookup (.pair k v) = some q ∧ p.ReadsMaps q) ∧
    (∀ p q p' q' : Parser, p.ReadsMaps q → p'.ReadsMaps q' → ∀ special special' es es' s t s' t',
      q.Braced special (Parser.pairs es) s t → q'.Braced special' (Parser.pairs es') s' t' →
      es'.Perm es → (p'.read special' s').1 = (p.read special s).1) ∧
    (∀ (r r' : Registry) (i : Indexing) (t : Ty) (p : Parser), r.lookup (.set i t) = none →
      r.resolve (.set i t) = (.ok p, r') → ∃ q, r'.lookup t = some q ∧ p.ReadsSets q) ∧
    (∀ p q p' q' : Parser, p.ReadsSets q → p'.ReadsSets q' → ∀ special special' vs vs' s t s' t',
      q.Braced special vs s t → q'.Braced special' vs' s' t' → (∀ v, v ∈ vs' ↔ v ∈ vs) →
      (p'.read special' s').1 = (p.read special s).1) ∧
    (∀ p q : Parser, p.ReadsSets q → ∀ (n : Nat) (d : Descriptor),
      d.parser = Parser.optional^[n] p → d.counted = true →
      ∀ special (progress : Progress) vs t, q.Braced special vs progress.cursor.rest t →
      Text.atBoundary t = true → ∃ v : Value, v.elementCount = {v | v ∈ vs}.ncard ∧
        readValue special d progress =
          if d.arity.permits {v | v ∈ vs}.ncard then
            .ok (supply { progress with cursor := progress.cursor.leaving t } d ⟨d.type, v⟩)
          else .error (.elementCount d.label {v | v ∈ vs}.ncard progress.cursor.offset)) ∧
    (∀ (r : Registry) (t : Ty) (q : Parser), r.Uncustomized → r.lookup t = some q →
      q.Rearranges) := by
  refine ⟨?_, ?_, ?_, ?_, ?_, ?_⟩
  · exact fun r r' i k v p => Registry.readsMaps_of_resolve
  · exact fun p q p' q' hp hp' special special' es es' s t s' t' => hp.read_perm hp'
  · exact fun r r' i t p => Registry.readsSets_of_resolve
  · exact fun p q p' q' hp hp' special special' vs vs' s t s' t' => hp.read_congr hp'
  · exact fun p q hp n d hd hcounted special progress vs t => hp.readValue_eq hd hcounted
  · exact fun r t q => Registry.Uncustomized.rearranges

/-- Two elements in braces. -/
theorem Parser.braced_two {q : Parser} {special : SpecialSet} {e e' g t : List Char} {v v' : Value}
    (he : Begins '\x7d' memberSeparator e) (hg : Between memberSeparator g)
    (he' : Begins '\x7d' memberSeparator e')
    (hv : Piece.ReadAs (q.read special) ⟨e, g ++ (e' ++ '\x7d' :: t)⟩ v)
    (hv' : Piece.ReadAs (q.read special) ⟨e', '\x7d' :: t⟩ v') :
    q.Braced special [v, v'] ('\x7b' :: (e ++ (g ++ (e' ++ '\x7d' :: t)))) t := by
  have hopen : Opens Groupings.braces.toList '\x7b' '\x7d' := ⟨[], [], rfl, by simp⟩
  refine ⟨_, ?_, .cons hv (.cons hv' .nil)⟩
  exact .pieces (b := []) (d := []) hopen (by decide) (by decide) Text.blank_nil
    (.more he hg (.last he')) Text.blank_nil

/-- A registry without parsers and without declared types. -/
def bare : Registry := .empty fun _ _ => none

/-- A map to bytes, by way of the pairs of a character and a byte. -/
def byteMap (i : Indexing) : Parser :=
  .map (.pair .char (.integer .u8)) s!"{i.mapLabel}<char, u8>" bindSorted

theorem resolve_byteMap (i : Indexing) :
    (bare.resolve (.map i .char (.integer .u8))).1 = .ok (byteMap i) := by
  cases i <;> rfl

/-- A set of bytes. -/
def byteSet : Parser := .sequence (.integer .u8) .braces "HashSet<u8>" collectSet

/-- At most one byte. -/
def oneByte : Descriptor :=
  Grammar.describe 0 ((Parameter.positional (.set .hashed (.integer .u8)) "bytes").withMax 1)
    byteSet (.list [])

/-- Two entries in both orders and for both types of maps, an entry that is repeated, and a byte
that is and counts once. -/
theorem collections_keep_distinct_bytes :
    ((byteMap .ordered).read .builtIn ['\x7b', 'b', ':', '2', ' ', 'a', ':', '1', '\x7d']).1 =
      ((byteMap .hashed).read .builtIn ['\x7b', 'a', ':', '1', ',', 'b', ':', '2', '\x7d']).1 ∧
    (byteMap .hashed).read .builtIn ['\x7b', 'a', ':', '1', ' ', 'a', ':', '1', '\x7d', 'x'] =
      (none, ['x']) ∧
    ∃ progress, readValue .builtIn oneByte
      (Grammar.begin ⟨[oneByte]⟩ ['\x7b', '2', ' ', '2', '\x7d']) = .ok progress := by
  obtain ⟨hmaps, hperm, hsets, -, hcount, -⟩ := collections_keep_distinct
  have hmap : ∀ i, (byteMap i).ReadsMaps (.pair .char (.integer .u8)) := fun i => by
    obtain ⟨q, hq, hreads⟩ := hmaps bare _ i .char (.integer .u8) (byteMap i) rfl
      (Prod.ext (resolve_byteMap i) rfl)
    obtain rfl : Parser.pair .char (.integer .u8) = q := Option.some.inj hq
    exact hreads
  have hset : byteSet.ReadsSets (.integer .u8) := by
    obtain ⟨q, hq, hreads⟩ := hsets bare (bare.resolve (.set .hashed (.integer .u8))).2 .hashed
      (.integer .u8) byteSet rfl rfl
    obtain rfl : Parser.integer .u8 = q := Option.some.inj hq
    exact hreads
  have hcomma : Between memberSeparator [','] :=
    .inr ⟨[], [], Text.blank_nil, Text.blank_nil, rfl⟩
  have hspace : Between memberSeparator [' '] :=
    .inl (Text.blank_cons.2 ⟨by decide, Text.blank_nil⟩)
  have hentry : ∀ c d : Char, Text.isBlank c = false → c ≠ '\x7d' → c ≠ memberSeparator →
      Begins '\x7d' memberSeparator [c, ':', d] :=
    fun c d hblank hclose hsep => ⟨c, [':', d], rfl, hblank, hclose, hsep⟩
  have ha := hentry 'a' '1' (by decide) (by decide) (by decide)
  have hb := hentry 'b' '2' (by decide) (by decide) (by decide)
  have htwo : Begins '\x7d' memberSeparator ['2'] := ⟨'2', [], rfl, by decide⟩
  refine ⟨?_, ?_, ?_⟩
  · refine hperm _ _ _ _ (hmap .hashed) (hmap .ordered) .builtIn .builtIn
      [(.char 'a', .integer 1), (.char 'b', .integer 2)]
      [(.char 'b', .integer 2), (.char 'a', .integer 1)] _ [] _ []
      (Parser.braced_two ha hcomma hb rfl rfl) (Parser.braced_two hb hspace ha rfl rfl) (.swap ..)
  · exact (hmap .hashed).repeated .builtIn [(.char 'a', .integer 1), (.char 'a', .integer 1)] _ _
      (Parser.braced_two ha hspace ha rfl rfl) (by simp [Value.keys])
  · have hbraced : (Parser.integer .u8).Braced .builtIn [.integer 2, .integer 2]
        ['\x7b', '2', ' ', '2', '\x7d'] [] := Parser.braced_two htwo hspace htwo rfl rfl
    obtain ⟨v, -, hread⟩ := hcount _ _ hset 0 oneByte rfl rfl .builtIn
      (Grammar.begin ⟨[oneByte]⟩ ['\x7b', '2', ' ', '2', '\x7d']) _ [] hbraced rfl
    have hone : {v | v ∈ [Value.integer 2, .integer 2]}.ncard = 1 :=
      (Value.length_distinct _).symm
    rw [hone] at hread
    exact ⟨_, hread⟩

end TypedConsole
