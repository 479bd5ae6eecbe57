import TypedConsole.Command
import TypedConsole.Proofs.Acceptance
import TypedConsole.Proofs.Typing

/-!
# TypedConsole.Proofs.TypedArguments

The arguments of a line are of the types of the parameters, so a command can take all of them.

A value comes into the arguments in one of four ways: it is read by the parser of a parameter, set
by a flag, given as what the parameter falls back to, or read from a text to fall back to.  Each of
them yields a value of the type (`Line.typed`, `Descriptor.Typed.fallbackValue`), if the parameters
are well typed.  What stands at a place is marked with the type of its parameter in any case
(`matches_of_parse`), which is all that taking it asks for (`takeFrom_eq_ok`).
-/

namespace TypedConsole

variable {carrier : Carrier} {types : Declarations}

/-! ## well typed parameters -/

/-- A parameter made by the constructors and modifiers, where a value to fall back to is one of the
type, and a parser of its own reads values of the type. -/
inductive Parameter.Typed (carrier : Carrier) (types : Declarations) : Parameter → Prop
  | positional (type : Ty) (metavar : String) : Typed carrier types (.positional type metavar)
  | requiredSwitch (type : Ty) (short : Char) : Typed carrier types (.requiredSwitch type short)
  | optional (h : Typed carrier types p) : Typed carrier types p.optional
  | require (h : Typed carrier types p) : Typed carrier types p.require
  | withLong (long : String) (h : Typed carrier types p) : Typed carrier types (p.withLong long)
  | withMetavar (metavar : String) (h : Typed carrier types p) :
      Typed carrier types (p.withMetavar metavar)
  | withDescription (text : String) (h : Typed carrier types p) :
      Typed carrier types (p.withDescription text)
  | withDefault (hv : HasType carrier types p.type v) (h : Typed carrier types p) :
      Typed carrier types (p.withDefault v)
  | withDefaultText (text : String) (h : Typed carrier types p) :
      Typed carrier types (p.withDefaultText text)
  | withFlagMode (enabled : Bool) (h : Typed carrier types p) :
      Typed carrier types (p.withFlagMode enabled)
  | withMin (least : Nat) (h : Typed carrier types p) : Typed carrier types (p.withMin least)
  | withMax (most : Nat) (h : Typed carrier types p) : Typed carrier types (p.withMax most)
  | withParser (hq : q.Reads carrier types p.type) (h : Typed carrier types p) :
      Typed carrier types (p.withParser q)

namespace Parameter.Typed

variable {p : Parameter}

theorem declared (h : p.Typed carrier types) : p.Declared := by
  induction h with
  | positional type metavar => exact .positional type metavar
  | requiredSwitch type short => exact .requiredSwitch type short
  | optional _ ih => exact .optional ih
  | require _ ih => exact .require ih
  | withLong long _ ih => exact .withLong long ih
  | withMetavar metavar _ ih => exact .withMetavar metavar ih
  | withDescription text _ ih => exact .withDescription text ih
  | withDefault _ _ ih => exact .withDefault _ ih
  | withDefaultText text _ ih => exact .withDefaultText text ih
  | withFlagMode enabled _ ih => exact .withFlagMode enabled ih
  | withMin least _ ih => exact .withMin least ih
  | withMax most _ ih => exact .withMax most ih
  | withParser _ _ ih => exact .withParser _ ih

/-- A parser of its own reads values of the type. -/
theorem reads (h : p.Typed carrier types) :
    ∀ q ∈ p.parser, q.Reads carrier types p.type := by
  induction h with
  | positional | requiredSwitch => exact fun _ hq => by cases hq
  | withParser hq => exact fun _ h => Option.some.inj h ▸ hq
  | optional _ ih | require _ ih | withLong _ _ ih | withMetavar _ _ ih | withDescription _ _ ih
  | withDefault _ _ ih | withDefaultText _ _ ih | withFlagMode _ _ ih | withMin _ _ ih
  | withMax _ _ ih => exact ih

/-- A value to fall back to is one of the type. -/
theorem hasType_fallback (h : p.Typed carrier types) {v : Value}
    (hv : p.fallback = some (.value v)) : HasType carrier types p.type v := by
  induction h with
  | positional | requiredSwitch | optional | require | withDefaultText => cases hv
  | withDefault hw =>
      obtain rfl := Fallback.value.inj (Option.some.inj hv)
      exact hw
  | withLong _ _ ih | withMetavar _ _ ih | withDescription _ _ ih | withFlagMode _ _ ih
  | withMin _ _ ih | withMax _ _ ih | withParser _ _ ih => exact ih hv

end Parameter.Typed

/-- The parser and what is fallen back to give values of the type. -/
structure Descriptor.Typed (carrier : Carrier) (types : Declarations) (d : Descriptor) : Prop where
  reads : d.parser.Reads carrier types d.type
  zero : HasType carrier types d.type d.zero
  fallback : ∀ v, d.fallback = some (.value v) → HasType carrier types d.type v

/-- What a parameter falls back to is of its type. -/
theorem Descriptor.Typed.fallbackValue {d : Descriptor} (h : d.Typed carrier types)
    (special : SpecialSet) :
    HasType carrier types d.type (Grammar.fallbackValue special d (d.fallback.getD .zero)) := by
  cases hf : d.fallback with
  | none => exact h.zero
  | some f =>
      cases f with
      | zero => exact h.zero
      | value v => exact h.fallback v hf
      | text literal =>
          show HasType _ _ _ (Option.getD (d.parser.read special _).1 d.zero)
          cases hr : d.parser.read special (Text.skipBlanks literal.toList) with
          | mk value rest =>
              cases value with
              | none => exact h.zero
              | some v => exact h.reads _ _ _ _ hr

/-! ## what a line supplies -/

/-- The value of a supply is one of the type of its parameter. -/
def Supply.Typed (carrier : Carrier) (types : Declarations) (o : Supply) : Prop :=
  HasType carrier types o.parameter.type o.value

namespace Grammar

variable {g : Grammar} {special : SpecialSet} {d : Descriptor}

/-- A flag is a parameter of truth values, and its presence is one. -/
theorem Checked.typed_flagged (hg : g.Checked) (hd : d ∈ g.parameters) (hkind : d.kind = .flag) :
    (flagged d).Typed carrier types := by
  rw [Supply.Typed, flagged, hg.flag d hd hkind]
  exact .bool true

theorem IsValue.typed (hd : d.Typed carrier types) {v : Value} {s t : List Char}
    (h : IsValue special d v s t) : (⟨d, v⟩ : Supply).Typed carrier types :=
  hd.reads _ _ _ _ h.read

section Lines

variable (hg : g.Checked) (htyped : ∀ d ∈ g.parameters, d.Typed carrier types)

include hg htyped

theorem Cluster.typed {os : List Supply} {s t : List Char} (h : Cluster g special os s t) :
    ∀ o ∈ os, o.Typed carrier types := by
  induction h with
  | flag hc hkind =>
      exact List.forall_mem_singleton.2 (hg.typed_flagged (Grammar.mem_switches.1 hc.1).1 hkind)
  | merged hc hkind _ ih =>
      exact List.forall_mem_cons.2 ⟨hg.typed_flagged (Grammar.mem_switches.1 hc.1).1 hkind, ih⟩
  | attached hc _ hv | spaced hc _ _ _ hv =>
      exact List.forall_mem_singleton.2 (hv.typed (htyped _ (Grammar.mem_switches.1 hc.1).1))

theorem Spelled.typed {enabled : Bool} {i : Item} {s t : List Char}
    (h : Spelled g special enabled i s t) :
    ∀ o ∈ i.supplies, o.parameter ∈ g.parameters → o.Typed carrier types := by
  cases h with
  | cluster hc => exact fun o ho _ => hc.typed hg htyped o ho
  | longFlag hl hkind =>
      exact List.forall_mem_singleton.2 fun hd => hg.typed_flagged hd hkind
  | longAttached hl _ hv | longSpaced hl _ _ _ hv =>
      exact List.forall_mem_singleton.2 fun hd => hv.typed (htyped _ hd)
  | mark => exact fun _ ho => absurd ho List.not_mem_nil
  | value hv | valueBehindMark hv =>
      exact List.forall_mem_singleton.2 fun hd => hv.typed (htyped _ hd)

/-- **What a line supplies for the parameters is of their types.** -/
theorem Line.typed {enabled : Bool} {is : List Item} {s : List Char}
    (h : Line g special enabled is s) :
    ∀ o ∈ is.flatMap Item.supplies, o.parameter ∈ g.parameters → o.Typed carrier types := by
  induction h with
  | done => exact fun _ ho => absurd ho List.not_mem_nil
  | item _ hi _ ih =>
      intro o ho hd
      rw [List.flatMap_cons, List.mem_append] at ho
      rcases ho with ho | ho
      · exact hi.typed hg htyped o ho hd
      · exact ih o ho hd

end Lines

/-! ## arguments -/

/-- A line that is read gives one value for each parameter: what its items settle. -/
theorem Checked.settled_of_parse (hg : g.Checked) {text : List Char} {args : Arguments}
    (h : g.parse special text = .ok args) :
    ∃ is, Line g special true is text ∧ Orderly g is ∧
      args.values = g.parameters.map fun d =>
        some (settled special (is.flatMap Item.supplies) d) := by
  rw [parse, bind_eq_ok_iff] at h
  obtain ⟨p, hitems, h⟩ := h
  obtain ⟨values, hsettle, hargs⟩ := bind_eq_ok_iff.1 h
  obtain ⟨is, hline, horderly, rfl⟩ := hg.line_of_items (noted_begin g text) hitems
  obtain ⟨-, rfl⟩ := (Orderly.settle_eq_ok_iff hg horderly).1 hsettle
  refine ⟨is, hline, horderly, ?_⟩
  rw [← Except.ok.inj hargs, List.map_map]
  rfl

/-- What a line settles for a parameter is of its type. -/
theorem Checked.hasType_settled (hg : g.Checked)
    (htyped : ∀ d ∈ g.parameters, d.Typed carrier types) {is : List Item} {text : List Char}
    (hline : Line g special true is text)
    (horderly : Orderly g is) (hd : d ∈ g.parameters) :
    HasType carrier types d.type (settled special (is.flatMap Item.supplies) d).value := by
  rw [settled]
  split
  · next o ho =>
      have hmem := List.mem_of_find?_eq_some ho
      have hparameter := horderly.mem_parameters hmem
      obtain rfl := hg.eq_of_index_eq hparameter hd (by simpa using List.find?_some ho)
      exact hline.typed hg htyped o hmem hparameter
  · exact (htyped d hd).fallbackValue special

/-- The descriptor of a well typed parameter is well typed. -/
theorem Describes.typed (htypes : types.Typed carrier) {p : Parameter}
    (h : Describes (fun r => r.WellTyped carrier ∧ r.types = types) p d)
    (hp : p.Typed carrier types) : d.type = p.type ∧ d.Typed carrier types := by
  obtain ⟨r, index, parser, ⟨hr, rfl⟩, hparser, rfl⟩ := h
  have hzero : (parserFor p r).2.types = r.types := by
    rw [parserFor]
    split
    · rfl
    · exact r.types_resolve p.type
  refine ⟨rfl, ⟨?_, ?_, fun v hv => hp.hasType_fallback hv⟩⟩
  · cases hown : p.parser with
    | some q =>
        rw [parserFor, hown] at hparser
        obtain rfl := Except.ok.inj hparser
        exact hp.reads q hown
    | none =>
        rw [parserFor, hown] at hparser
        exact hr.reads_of_resolve htypes (Prod.ext hparser rfl)
  · rw [hzero]
    exact hasType_zero htypes p.type

/-- What holds of matched elements follows from what relates them. -/
theorem forall₂_imp_of_mem {α β : Type} {R S : α → β → Prop} {as : List α} {bs : List β}
    (h : List.Forall₂ R as bs) (himp : ∀ a ∈ as, ∀ b ∈ bs, R a b → S a b) :
    List.Forall₂ S as bs := by
  induction h with
  | nil => exact .nil
  | cons hab _ ih =>
      refine .cons (himp _ List.mem_cons_self _ List.mem_cons_self hab) (ih fun a ha b hb => ?_)
      exact himp a (List.mem_cons_of_mem _ ha) b (List.mem_cons_of_mem _ hb)

end Grammar

/-- There is one argument for each parameter, in order, marked with its type, and `Q` holds of its
value. -/
def Arguments.Matches (args : Arguments) (ps : List Parameter) (Q : Parameter → Value → Prop) :
    Prop :=
  List.Forall₂ (fun p a => ∃ v, a = some ⟨p.type, v⟩ ∧ Q p v) ps args.values

namespace Grammar

variable {g : Grammar} {special : SpecialSet} {ps : List Parameter} {r : Registry}
  {text : List Char} {args : Arguments}

/-- What is settled for a parameter is marked with its type. -/
theorem settled_eq (special : SpecialSet) (os : List Supply) {d : Descriptor} {t : Ty}
    (h : d.type = t) : settled special os d = ⟨t, (settled special os d).value⟩ := by
  subst h
  rw [settled]
  split <;> rfl

/-- **Every argument is marked with the type of its parameter.** -/
theorem matches_of_parse (hps : ∀ p ∈ ps, p.Declared) (hb : (build ps r).1 = .ok g)
    (h : g.parse special text = .ok args) : args.Matches ps fun _ _ => True := by
  obtain ⟨is, -, -, hargs⟩ := (checked_of_build hps hb).settled_of_parse h
  have hdescribes := describes_of_build (Q := fun _ => True) (fun _ _ _ => trivial) trivial hb
  rw [Arguments.Matches, hargs, List.forall₂_map_right_iff]
  refine forall₂_imp_of_mem hdescribes fun p _ d _ hpd => ?_
  obtain ⟨_, _, _, -, -, rfl⟩ := hpd
  exact ⟨_, congrArg some (settled_eq _ _ rfl), trivial⟩

/-- **Every argument is a value of the type of its parameter**, if the parameters are well
typed. -/
theorem typed_of_parse (htypes : r.types.Typed carrier) (hr : r.WellTyped carrier)
    (hps : ∀ p ∈ ps, p.Typed carrier r.types) (hb : (build ps r).1 = .ok g)
    (h : g.parse special text = .ok args) :
    args.Matches ps fun p v => HasType carrier r.types p.type v := by
  have hg := checked_of_build (fun p hp => (hps p hp).declared) hb
  obtain ⟨is, hline, horderly, hargs⟩ := hg.settled_of_parse h
  have hdescribes := describes_of_build
    (Q := fun r' => r'.WellTyped carrier ∧ r'.types = r.types)
    (fun r' t hr' => ⟨.resolve t hr'.1, (r'.types_resolve t).trans hr'.2⟩) ⟨hr, rfl⟩ hb
  have htyped : ∀ d ∈ g.parameters, d.Typed carrier r.types := fun d hd => by
    obtain ⟨p, hp, hpd⟩ := exists_described hdescribes hd
    exact (hpd.typed htypes (hps p hp)).2
  rw [Arguments.Matches, hargs, List.forall₂_map_right_iff]
  refine forall₂_imp_of_mem hdescribes fun p hp d hd hpd => ?_
  obtain ⟨htype, -⟩ := hpd.typed htypes (hps p hp)
  refine ⟨_, congrArg some (settled_eq _ _ htype), ?_⟩
  exact htype ▸ hg.hasType_settled htyped hline horderly hd

end Grammar

/-! ## taking arguments -/

namespace Command

variable {Q : Parameter → Value → Prop}

/-- Taking an argument leaves those behind it where they are. -/
theorem take_eq_ok {args : Arguments} {index : Nat} {t : Ty} {v : Value}
    {rest : List (Option TypedValue)} (h : args.values.drop index = some ⟨t, v⟩ :: rest) :
    ∃ args', args.take index t = .ok (v, args') ∧ args'.values.drop (index + 1) = rest := by
  have hget : args.values[index]? = some (some ⟨t, v⟩) := by
    have hhead := congrArg List.head? h
    rwa [List.head?_drop] at hhead
  have htail : args.values.drop (index + 1) = rest := by
    have htail := congrArg List.tail h
    rwa [List.tail_drop] at htail
  refine ⟨⟨args.values.set index none⟩, ?_, ?_⟩
  · simp [Arguments.take, hget, TypedValue.as?]
  · rw [List.drop_set_of_lt (Nat.lt_succ_self index), htail]

/-- **Fields take the arguments that match their parameters.** -/
theorem takeFrom_eq_ok {args : Arguments} {index : Nat} {fs : List CommandField}
    (h : List.Forall₂ (fun f a => ∃ v, a = some ⟨f.parameter.type, v⟩ ∧ Q f.parameter v) fs
      (args.values.drop index)) :
    ∃ vs, takeFrom index args fs = .ok vs ∧ List.Forall₂ (fun f v => Q f.parameter v) fs vs := by
  induction fs generalizing args index with
  | nil => exact ⟨[], rfl, .nil⟩
  | cons f fs ih =>
      obtain ⟨_, rest, ⟨v, rfl, hv⟩, hrest, hdrop⟩ := List.forall₂_cons_left_iff.1 h
      obtain ⟨args', htake, hdrop'⟩ := take_eq_ok hdrop
      rw [← hdrop'] at hrest
      obtain ⟨vs, hvs, hall⟩ := ih hrest
      refine ⟨v :: vs, ?_, .cons hv hall⟩
      simp only [takeFrom, htake, bind, Except.bind, hvs]
      rfl

/-- A command takes arguments that match the parameters of its fields. -/
theorem fromArguments_eq_ok {c : Command} {args : Arguments}
    (h : args.Matches (c.fields.map (·.parameter)) Q) :
    ∃ vs, c.fromArguments args = .ok vs ∧
      List.Forall₂ (fun f v => Q f.parameter v) c.fields vs :=
  takeFrom_eq_ok (List.forall₂_map_left_iff.1 h)

end Command

end TypedConsole
