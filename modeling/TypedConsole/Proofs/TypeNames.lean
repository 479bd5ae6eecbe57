import TypedConsole.Catalogue.Parsers
import TypedConsole.Proofs.Claims
import TypedConsole.Proofs.Failure

/-!
# TypedConsole.Proofs.TypeNames

What the name and the template of a parser say about the parsers that it reads with.

* `Parser.delegates` are the parsers that reading goes on to.  Nothing else of other parsers matters
  to it (`Parser.read_withDelegates`).
* `Ty.nameFrom` and `Ty.templateFrom` compose the name and the template of a type's parser from
  those of its delegates.
* `Registry.afterEvents` is the registry after any events: resolutions and builds, parsers that are
  registered, characters that are made special.

A map has the parser of its pairs read for it, but takes its name from the parsers of the key and
the value.  These are the ones that the pairs are read with unless one of the three types was given
another parser after the pairs had theirs; `Registry.Steady` says of a history that none was.
-/

namespace TypedConsole

/-! ## what a parser reads with -/

section Slots

variable {specs : List SlotSpec} {ps : List Parser}

/-- Slots that are given parsers, one each, have these parsers. -/
theorem SlotSpec.map_parser_withParser (h : specs.length = ps.length) :
    (List.zipWith withParser specs ps).map (·.parser) = ps := by
  rw [List.map_zipWith, ← List.map_uncurry_zip_eq_zipWith]
  exact List.map_snd_zip h.ge

/-- They stay what they were declared as. -/
theorem SlotSpec.map_spec_withParser (h : specs.length = ps.length) :
    (List.zipWith withParser specs ps).map Slot.spec = specs := by
  rw [List.map_zipWith, ← List.map_uncurry_zip_eq_zipWith]
  exact List.map_fst_zip h.le

end Slots

namespace Parser

/-- The parsers that reading delegates to. -/
def delegates : Parser → List Parser
  | optional p | sequence p _ _ _ | map p _ _ | renamed p _ => [p]
  | pair k v => [k, v]
  | record slots _ => slots.map (·.parser)
  | string | char | bool | integer _ | float _ | custom _ => []

/-- The parser with others in place of those that it delegates to. -/
def withDelegates : Parser → List Parser → Parser
  | optional _, [q] => .optional q
  | sequence _ g name collect, [q] => .sequence q g name collect
  | map _ name bind, [q] => .map q name bind
  | renamed _ name, [q] => .renamed q name
  | pair _ _, [k, v] => .pair k v
  | record slots form, qs =>
    .record (List.zipWith SlotSpec.withParser (slots.map Slot.spec) qs) form
  | p, _ => p

variable {α : Type} {special : SpecialSet} {p : Parser} {qs : List Parser}
  {slots slots' : List (Slot α)}

/-- The defaults of slots do not depend on their parsers. -/
theorem defaults_congr (h : slots.map Slot.spec = slots'.map Slot.spec) :
    defaults slots = defaults slots' := by
  induction slots generalizing slots' with
  | nil =>
      obtain rfl := List.map_eq_nil_iff.1 h.symm
      rfl
  | cons slot slots ih =>
      obtain ⟨slot', slots', rfl, hslot, hslots⟩ := List.map_eq_cons_iff.1 h.symm
      obtain ⟨htype, hdefault⟩ := SlotSpec.mk.inj hslot
      rw [defaults, defaults, ih hslots.symm, htype, hdefault]

/-- Nor does the completion of a record. -/
theorem complete_congr (form : RecordForm) (h : slots.map Slot.spec = slots'.map Slot.spec) :
    complete slots form = complete slots' form := by
  funext vs
  have hsupplied (slots : List (Slot α)) :
      List.zipWith (fun slot v => (⟨slot.type, v⟩ : TypedValue)) slots vs =
        List.zipWith (fun spec v => ⟨spec.type, v⟩) (slots.map Slot.spec) vs := by
    rw [List.zipWith_map_left]
    rfl
  have hrest : defaults (slots.drop vs.length) = defaults (slots'.drop vs.length) :=
    defaults_congr (by rw [List.map_drop, List.map_drop, h])
  rw [complete, complete, hsupplied slots, hsupplied slots', h, hrest]

/-- **Reading depends on the delegates and on how they read**, and on nothing else of other
parsers: what is exchanged for a parser that reads alike makes no difference. -/
theorem read_withDelegates
    (h : List.Forall₂ (fun q q' => q.read special = q'.read special) p.delegates qs) :
    (p.withDelegates qs).read special = p.read special := by
  cases p with
  | string | char | bool | integer | float | custom => rfl
  | optional p | sequence p | map p | renamed p =>
      obtain ⟨q, _, hq, hqs, rfl⟩ := List.forall₂_cons_left_iff.1 h
      obtain rfl := List.forall₂_nil_left_iff.1 hqs
      simp only [withDelegates, read, hq]
  | pair k v =>
      obtain ⟨k', _, hk, hvs, rfl⟩ := List.forall₂_cons_left_iff.1 h
      obtain ⟨v', _, hv, hqs, rfl⟩ := List.forall₂_cons_left_iff.1 hvs
      obtain rfl := List.forall₂_nil_left_iff.1 hqs
      simp only [withDelegates, read, hk, hv]
  | record slots form =>
      have hlength : (slots.map Slot.spec).length = qs.length := by
        simpa [delegates] using h.length_eq
      have hspecs := SlotSpec.map_spec_withParser hlength
      have hreads : qs.map (·.read special) = (slots.map (·.parser)).map (·.read special) := by
        rw [← List.forall₂_eq_eq_eq, List.forall₂_map_left_iff, List.forall₂_map_right_iff]
        exact h.flip.imp fun _ _ h => h.symm
      have hreaders (slots : List (Slot Parser)) :
          readSlots special slots = (slots.map (·.parser)).map (·.read special) := by
        rw [readSlots_eq_map, List.map_map]
        rfl
      simp only [withDelegates, read]
      rw [complete_congr form hspecs, hreaders, SlotSpec.map_parser_withParser hlength, hreads,
        ← hreaders]

end Parser

/-! ## names and templates from those of the delegates -/

/-- How the slots of a record are shown, if these are their parsers. -/
def RecordSpec.labels (spec : RecordSpec) (ps : List Parser) : List SlotLabel :=
  List.zipWith (fun slot p => ⟨p.name, p.template, slot.default.isSome⟩) spec.slots ps

namespace Ty

/-- The types whose parsers the parser of a type delegates to.  They are its parts, except that a
map has only its pairs read. -/
def delegated (types : Declarations) : Ty → List Ty
  | .map _ k v => [.pair k v]
  | t => t.parts types

/-- The name that the parser of a type should have, from the names of its delegates.  The delegate
of a map is a pair, and it is the pair's own delegates that read keys and values. -/
def nameFrom (types : Declarations) (t : Ty) (ps : List Parser) : Option String :=
  match recordSpec? types t with
  | some spec => some (spec.name (spec.labels ps))
  | none =>
    match t, ps with
    | .string, [] => some "String"
    | .char, [] => some "char"
    | .bool, [] => some "bool"
    | .integer i, [] => some i.name
    | .float f, [] => some f.name
    | .optional _, [p] => some s!"Option<{p.name}>"
    | .sequence kind _, [p] => some (kind.label p.name)
    | .set i _, [p] => some s!"{i.setLabel}<{p.name}>"
    | .map i _ _, [.pair k v] => some s!"{i.mapLabel}<{k.name}, {v.name}>"
    | .pair _ _, [k, v] => some s!"KeyValue<{k.name}, {v.name}>"
    | .declared path args, [_] =>
      match types path args with
      | some ⟨.alias name _, _⟩ => some name
      | _ => none
    | _, _ => none

/-- The template that the parser of a type should have, if any, from those of its delegates. -/
def templateFrom (types : Declarations) (t : Ty) (ps : List Parser) : Option String :=
  match recordSpec? types t with
  | some spec => some (spec.template (spec.labels ps))
  | none =>
    match t, ps with
    | .bool, [] => some "t/f"
    | .optional _, [p] => p.template
    | .sequence _ _, [p] => some (Parser.enclose .brackets (p.templateOrName ++ " ..."))
    | .set _ _, [p] | .map _ _ _, [p] =>
      some (Parser.enclose .braces (p.templateOrName ++ " ..."))
    | .pair _ _, [k, v] => some (k.template.getD "key" ++ ": " ++ v.template.getD "value")
    | _, _ => none

variable {types : Declarations} {t : Ty} {p : Parser} {ps : List Parser}

/-- A record is shown as its specification says. -/
theorem labels_withParser (spec : RecordSpec) (ps : List Parser) :
    (List.zipWith SlotSpec.withParser spec.slots ps).map
      (fun s => (⟨s.parser.name, s.parser.template, s.default.isSome⟩ : SlotLabel)) =
        spec.labels ps := by
  rw [List.map_zipWith]
  rfl

/-- **A parser that is composed of others** delegates to them, and is shown accordingly, unless it
is that of a map. -/
theorem shown_of_compose (h : t.compose types ps = .ok p)
    (hlength : (t.parts types).length = ps.length) (hmap : ∀ i k v, t ≠ .map i k v) :
    p.delegates = ps ∧ p.template = t.templateFrom types ps ∧
      t.nameFrom types ps = some p.name := by
  cases hspec : recordSpec? types t with
  | some spec =>
      simp only [parts, hspec, List.length_map] at hlength
      simp only [compose, hspec, Except.ok.injEq] at h
      subst h
      simp only [templateFrom, nameFrom, hspec, RecordSpec.parser, Parser.delegates,
        Parser.template, Parser.name, labels_withParser,
        SlotSpec.map_parser_withParser hlength, and_self]
  | none =>
      cases t with
      | string | char | bool | integer | float =>
          obtain rfl := List.length_eq_zero_iff.1 hlength.symm
          obtain rfl := Except.ok.inj h
          exact ⟨rfl, rfl, rfl⟩
      | optional t | sequence kind t | set i t =>
          obtain ⟨q, rfl⟩ := List.length_eq_one_iff.1 hlength.symm
          obtain rfl := Except.ok.inj h
          exact ⟨rfl, rfl, rfl⟩
      | map i k v => exact absurd rfl (hmap i k v)
      | pair k v =>
          obtain ⟨p, q, rfl⟩ := List.length_eq_two.1 hlength.symm
          obtain rfl := Except.ok.inj h
          exact ⟨rfl, rfl, rfl⟩
      | tuple ts => contradiction
      | declared path args =>
          simp only [parts, hspec] at hlength
          simp only [compose, hspec] at h
          simp only [templateFrom, nameFrom, hspec]
          split at hlength
          · next name t zero ht =>
              obtain ⟨q, rfl⟩ := List.length_eq_one_iff.1 hlength.symm
              simp only [ht] at h ⊢
              obtain rfl := Except.ok.inj h
              exact ⟨rfl, rfl, rfl⟩
          · obtain rfl := List.length_eq_zero_iff.1 hlength.symm
            cases h

theorem delegated_eq_parts (hmap : ∀ i k v, t ≠ .map i k v) :
    t.delegated types = t.parts types := by
  cases t with
  | map i k v => exact absurd rfl (hmap i k v)
  | _ => rfl

/-- A map has its pairs read, and is named after what its key and value show. -/
theorem map_of_compose {i : Indexing} {k v : Ty} (h : (Ty.map i k v).compose types ps = .ok p)
    (hlength : ((Ty.map i k v).parts types).length = ps.length) :
    ∃ key value pair, ps = [key, value, pair] ∧
      p = .map pair s!"{i.mapLabel}<{key.name}, {value.name}>" bindSorted := by
  obtain ⟨key, value, pair, rfl⟩ := List.length_eq_three.1 hlength.symm
  exact ⟨key, value, pair, rfl, (Except.ok.inj h).symm⟩

end Ty

/-! ## events -/

/-- What can happen to a registry. -/
inductive RegistryEvent
  | call (c : RegistryCall)
  | register (t : Ty) (p : Parser)
  | mark (characters : List Char)

/-- The registry after the event. -/
def RegistryEvent.apply (r : Registry) : RegistryEvent → Registry
  | call c => c.apply r
  | register t p => r.register t p
  | mark characters => r.addSpecial characters

namespace Registry

/-- The registry after events, one after the other, that had no parsers at first. -/
def afterEvents (types : Declarations) (events : List RegistryEvent) : Registry :=
  events.foldl RegistryEvent.apply (empty types)

/-- In the history, no parser has been registered for the type, nor for a part of it while the type
had one. -/
def Steady (types : Declarations) (events : List RegistryEvent) (t : Ty) : Prop :=
  ∀ before u p later, events = before ++ .register u p :: later →
    u ≠ t ∧ (u ∈ t.parts types → (afterEvents types before).lookup t = none)

variable {types : Declarations} {events : List RegistryEvent} {event : RegistryEvent}
  {r : Registry} {t u : Ty} {p : Parser}

theorem afterEvents_concat : afterEvents types (events ++ [event]) =
    event.apply (afterEvents types events) := by
  rw [afterEvents, List.foldl_append]
  rfl

theorem types_resolveAll (r : Registry) (ts : List Ty) : (r.resolveAll ts).types = r.types :=
  (r.gains_resolveAll ts).types

/-- No event changes what the declared types are. -/
theorem types_afterEvents : (afterEvents types events).types = types := by
  induction events using List.reverseRecOn with
  | nil => rfl
  | append_singleton events event ih =>
      rw [afterEvents_concat]
      cases event with
      | call c =>
          obtain ⟨ts, -, hr⟩ := c.apply_resolves (afterEvents types events)
          rw [RegistryEvent.apply, hr, types_resolveAll, ih]
      | register | mark => exact ih

/-- Resolutions keep what is composed so. -/
theorem ComposedAt.resolveAll (h : r.ComposedAt u) (ts : List Ty) :
    (r.resolveAll ts).ComposedAt u := by
  induction ts generalizing r with
  | nil => exact h
  | cons t ts ih => exact ih (keepsComposed_of_runs (Resolution.runs_resolve r t) u h)

/-- What is stored stays when another type is given a parser. -/
theorem Stored.register {ts : List Ty} {ps : List Parser} (h : r.Stored ts ps) (hu : u ∉ ts)
    (q : Parser) : (r.register u q).Stored ts ps := by
  have hmem := (List.forall₂_and_left ts ps).2 ⟨fun _ ht => ht, h⟩
  refine hmem.imp fun t p ⟨ht, hp⟩ => ?_
  have hne : t ≠ u := fun he => hu (he ▸ ht)
  rw [lookup_register_of_ne r q hne, hp]

/-- **In a steady history** the parser of the type is composed of those that are stored for its
parts, as it was when it was made. -/
theorem composedAt_of_steady (h : Steady types events t) :
    (afterEvents types events).ComposedAt t := by
  induction events using List.reverseRecOn with
  | nil => exact fun _ hp => by cases hp
  | append_singleton events event ih =>
      have hbefore : (afterEvents types events).ComposedAt t :=
        ih fun before u p later he => h before u p (later ++ [event]) (by rw [he]; simp)
      rw [afterEvents_concat]
      cases event with
      | call c =>
          obtain ⟨ts, -, hr⟩ := c.apply_resolves (afterEvents types events)
          rw [RegistryEvent.apply, hr]
          exact hbefore.resolveAll ts
      | mark characters => exact hbefore
      | register u q =>
          obtain ⟨hne, hpart⟩ := h events u q [] rfl
          intro p hp
          have hold : (afterEvents types events).lookup t = some p :=
            (lookup_register_of_ne _ q hne.symm).symm.trans hp
          obtain ⟨ps, hps, hp⟩ := hbefore p hold
          have hu : u ∉ t.parts (afterEvents types events).types := fun hu => by
            rw [types_afterEvents] at hu
            cases hold.symm.trans (hpart hu)
          exact ⟨ps, hps.register hu q, hp⟩

/-- A type has one list of stored parsers. -/
theorem Stored.unique {ts : List Ty} {ps qs : List Parser} (h : r.Stored ts ps)
    (h' : r.Stored ts qs) : ps = qs := by
  have hunique : Relator.RightUnique fun t p => r.lookup t = some p :=
    fun _ _ _ hp hq => Option.some.inj (hp.symm.trans hq)
  exact hunique.forall₂ h h'

/-- **A new parser tells what it reads with.**  Whatever has happened to a registry, the parsers
that a resolution then makes and stores read with the parsers that are stored for the types they
delegate to, and with nothing else.  Their templates are composed from those of these delegates,
and so are their names, except that a map is named after the parsers that are stored for its key
and its value: these are the ones that its pairs are read with if the history is steady for the
type of the pairs. -/
theorem names_tell_delegates (types : Declarations) (events : List RegistryEvent) (t u : Ty)
    (p : Parser) (hnew : (afterEvents types events).lookup u = none)
    (hp : ((afterEvents types events).resolve t).2.lookup u = some p) :
    ((afterEvents types events).resolve t).2.Stored (u.delegated types) p.delegates ∧
      (∀ special qs, List.Forall₂ (fun q q' => q.read special = q'.read special) p.delegates qs →
        (p.withDelegates qs).read special = p.read special) ∧
      p.template = u.templateFrom types p.delegates ∧
      ((∀ i k v, u = .map i k v → Steady types events (.pair k v)) →
        u.nameFrom types p.delegates = some p.name) ∧
      ∀ i k v, u = .map i k v →
        ∃ key value, ((afterEvents types events).resolve t).2.Stored [k, v] [key, value] ∧
          p.name = s!"{i.mapLabel}<{key.name}, {value.name}>" := by
  have hruns := Resolution.runs_resolve (afterEvents types events) t
  generalize hr' : ((afterEvents types events).resolve t).2 = r' at hp hruns ⊢
  have htypes : r'.types = types := (gains_of_runs hruns).types.trans types_afterEvents
  have hcomposed : r'.ComposedAt u := keepsComposed_of_runs hruns u fun q hq => by
    rw [hnew] at hq
    contradiction
  obtain ⟨ps, hps, hcompose⟩ := hcomposed p hp
  rw [htypes] at hps hcompose
  by_cases hmap : ∃ i k v, u = .map i k v
  · obtain ⟨i, k, v, rfl⟩ := hmap
    obtain ⟨key, value, pair, rfl, rfl⟩ := Ty.map_of_compose hcompose hps.length_eq
    obtain ⟨hkey, hrest⟩ := List.forall₂_cons.1 hps
    obtain ⟨hvalue, hpairs⟩ := List.forall₂_cons.1 hrest
    have hparts : r'.Stored [k, v] [key, value] := .cons hkey (.cons hvalue .nil)
    refine ⟨hpairs, fun _ _ => Parser.read_withDelegates, rfl, fun hsteady => ?_, ?_⟩
    · have hpair : r'.ComposedAt (.pair k v) :=
        keepsComposed_of_runs hruns _ (composedAt_of_steady (hsteady i k v rfl))
      obtain ⟨qs, hqs, hq⟩ := hpair pair (List.forall₂_cons.1 hpairs).1
      obtain rfl := hparts.unique hqs
      obtain rfl := Except.ok.inj hq
      rfl
    · rintro _ _ _ ⟨⟩
      exact ⟨key, value, hparts, rfl⟩
  · have hno : ∀ i k v, u ≠ .map i k v := fun i k v he => hmap ⟨i, k, v, he⟩
    obtain ⟨rfl, htemplate, hname⟩ := Ty.shown_of_compose hcompose hps.length_eq hno
    refine ⟨?_, fun _ _ => Parser.read_withDelegates, htemplate, fun _ => hname,
      fun i k v he => absurd he (hno i k v)⟩
    rwa [Ty.delegated_eq_parts hno]

/-- A parser of strings is registered, and then a map with strings for keys is resolved. -/
theorem names_tell_delegates_shout :
    ∃ p, ((afterEvents (fun _ _ => none) [.register .string (.custom Catalogue.shout)]).resolve
        (.map .hashed .string (.integer .i32))).2.lookup
          (.map .hashed .string (.integer .i32)) = some p ∧
      p.delegates = [.pair (.custom Catalogue.shout) (.integer .i32)] ∧
      p.name = "HashMap<shout, i32>" ∧ p.template = some "\x7bkey: value ...\x7d" := by
  have hsteady : Steady (fun _ _ => none) [.register .string (.custom Catalogue.shout)]
      (.pair .string (.integer .i32)) := by
    intro before u p later he
    cases before with
    | nil =>
        cases he
        exact ⟨by decide, fun _ => rfl⟩
    | cons event before => simp at he
  obtain ⟨hstored, -, htemplate, hname, -⟩ := names_tell_delegates (fun _ _ => none)
    [.register .string (.custom Catalogue.shout)] (.map .hashed .string (.integer .i32))
    (.map .hashed .string (.integer .i32)) _ rfl rfl
  have hdelegates := hstored.unique (.cons rfl .nil)
  have hname := hname fun i k v he => by
    cases he
    exact hsteady
  rw [hdelegates] at htemplate hname
  exact ⟨_, rfl, hdelegates, (Option.some.inj hname).symm, htemplate⟩

/-- **The name of a map may be untrue.**  Pairs of strings and numbers are resolved, another parser
of strings is registered, and then the map is resolved: it is named after the new parser, but its
keys are read with the old one. -/
theorem map_named_after_unread_key :
    ∃ p, ((afterEvents (fun _ _ => none) [.call (.resolve (.pair .string (.integer .i32))),
        .register .string (.custom Catalogue.shout)]).resolve
          (.map .hashed .string (.integer .i32))).2.lookup
            (.map .hashed .string (.integer .i32)) = some p ∧
      p.name = "HashMap<shout, i32>" ∧ p.delegates = [.pair .string (.integer .i32)] ∧
      Ty.nameFrom (fun _ _ => none) (.map .hashed .string (.integer .i32)) p.delegates =
        some "HashMap<String, i32>" := ⟨_, rfl, rfl, rfl, rfl⟩

end Registry

end TypedConsole
