import Mathlib.Data.List.Forall2
import TypedConsole.Proofs.Creation

/-!
# TypedConsole.Proofs.History

What the resolutions that came before mean for the next one.

* `Ty.Makes` says which parser is made of the parts of a type, without a registry.  There is at
  most one.
* A registry is `Settled` when it stores nothing else.  Every resolution keeps it so, and then its
  outcome is the parser that is made, or the depth ran out (`settles_of_runs`).
* A build resolves the types of some of its parameters (`build_resolves`), so a history of
  resolutions and builds is a list of resolved types.
-/

namespace TypedConsole

/-! ## the parser made of the parts -/

namespace Ty

/-- `t.MadeWithin types depth p`: making parsers nested at most `depth` deep gives `p` for `t`. -/
def MadeWithin (types : Declarations) : Nat → Ty → Parser → Prop
  | 0, _, _ => False
  | depth + 1, t, p =>
    ∃ ps, List.Forall₂ (MadeWithin types depth) (t.parts types) ps ∧ t.compose types ps = .ok p

/-- The parser of `t` that is made of its parts, however deep that nests, is `p`. -/
def Makes (types : Declarations) (t : Ty) (p : Parser) : Prop :=
  ∃ depth, t.MadeWithin types depth p

variable {types : Declarations} {t : Ty} {p q : Parser} {ts : List Ty} {ps qs : List Parser}

/-- More depth does no harm. -/
theorem MadeWithin.mono {n m : Nat} (h : t.MadeWithin types n p) (hnm : n ≤ m) :
    t.MadeWithin types m p := by
  induction n generalizing m t p with
  | zero => exact h.elim
  | succ n ih =>
      obtain ⟨m, rfl⟩ : ∃ k, m = k + 1 := ⟨m - 1, by omega⟩
      obtain ⟨ps, hps, hp⟩ := h
      exact ⟨ps, hps.imp fun _ _ hpart => ih hpart (by omega), hp⟩

/-- Within a depth at most one parser is made. -/
theorem madeWithin_rightUnique (types : Declarations) (depth : Nat) :
    Relator.RightUnique (MadeWithin types depth) := by
  induction depth with
  | zero => exact fun _ _ _ h => h.elim
  | succ depth ih =>
      rintro t p q ⟨ps, hps, hp⟩ ⟨qs, hqs, hq⟩
      obtain rfl := ih.forall₂ hps hqs
      exact Except.ok.inj (hp.symm.trans hq)

/-- At most one parser is made of the parts of a type. -/
theorem makes_rightUnique (types : Declarations) : Relator.RightUnique (Makes types) := by
  rintro t p q ⟨n, hp⟩ ⟨m, hq⟩
  exact madeWithin_rightUnique types (max n m) (hp.mono (Nat.le_max_left n m))
    (hq.mono (Nat.le_max_right n m))

/-- The parsers of several types are made within a common depth. -/
theorem exists_common_depth (h : List.Forall₂ (Makes types) ts ps) :
    ∃ depth, List.Forall₂ (MadeWithin types depth) ts ps := by
  induction h with
  | nil => exact ⟨0, .nil⟩
  | cons hp _ ih =>
      obtain ⟨n, hn⟩ := hp
      obtain ⟨m, hm⟩ := ih
      exact ⟨max n m, .cons (hn.mono (Nat.le_max_left n m))
        (hm.imp fun _ _ h => h.mono (Nat.le_max_right n m))⟩

/-- The parser of a type is composed of those made of its parts. -/
theorem makes_iff : t.Makes types p ↔
    ∃ ps, List.Forall₂ (Makes types) (t.parts types) ps ∧ t.compose types ps = .ok p := by
  constructor
  · rintro ⟨_ | depth, h⟩
    · exact h.elim
    · obtain ⟨ps, hps, hp⟩ := h
      exact ⟨ps, hps.imp fun _ _ h => ⟨depth, h⟩, hp⟩
  · rintro ⟨ps, hps, hp⟩
    obtain ⟨depth, hdepth⟩ := exists_common_depth hps
    exact ⟨depth + 1, ps, hdepth, hp⟩

end Ty

/-! ## what is stored -/

/-- The registry stores no parsers but those made of the parts of their types. -/
structure Registry.Settled (types : Declarations) (r : Registry) : Prop where
  types_eq : r.types = types
  makes : ∀ t p, r.lookup t = some p → t.Makes types p

/-- The parser that is made of the parts may be stored. -/
theorem Registry.Settled.register {types : Declarations} {r : Registry} {t : Ty} {p : Parser}
    (hr : r.Settled types) (hp : t.Makes types p) : (r.register t p).Settled types where
  types_eq := hr.types_eq
  makes u q hq := by
    by_cases he : u = t
    · rw [he, Registry.lookup_register_self] at hq
      rw [he, ← Option.some.inj hq]
      exact hp
    · rw [Registry.lookup_register_of_ne r p he] at hq
      exact hr.makes u q hq

namespace Resolution

variable {types : Declarations} {depth : Nat} {t : Ty} {ts : List Ty} {r r' : Registry}
  {ps : List Parser} {outcome : Except ResolveError Parser}

/-- How the resolution of `t` within a depth ends in a settled registry. -/
structure Settles (types : Declarations) (depth : Nat) (t : Ty)
    (outcome : Except ResolveError Parser) (r' : Registry) : Prop where
  settled : r'.Settled types
  makes : ∀ p, outcome = .ok p → t.Makes types p
  /-- If there is a parser to be made, then only the depth can be in the way. -/
  tooDeep : ∀ e p, outcome = .error e → t.Makes types p → ∃ u, e = .tooDeep u
  /-- And that it is not if the parser is made within it. -/
  within : ∀ p, t.MadeWithin types depth p → outcome = .ok p

/-- Resolution that starts in a settled registry settles. -/
def SettlesFrom (types : Declarations) (depth : Nat) : Outcome := fun t r outcome r' =>
  r.Settled types → Settles types depth t outcome r'

theorem settled_of_allMade (h : AllMade (SettlesFrom types depth) ts r ps r')
    (hr : r.Settled types) : r'.Settled types ∧ List.Forall₂ (Ty.Makes types) ts ps := by
  induction h with
  | nil => exact ⟨hr, .nil⟩
  | cons h _ ih =>
      have hfirst := h hr
      obtain ⟨hr', hrest⟩ := ih hfirst.settled
      exact ⟨hr', .cons (hfirst.makes _ rfl) hrest⟩

theorem settled_of_stopped {e : ResolveError} (h : Stopped (SettlesFrom types depth) ts r e r')
    (hr : r.Settled types) :
    r'.Settled types ∧
      (∀ ps, List.Forall₂ (Ty.Makes types) ts ps → ∃ u, e = .tooDeep u) ∧
      ∀ ps, ¬ List.Forall₂ (Ty.MadeWithin types depth) ts ps := by
  induction h with
  | here h =>
      have hfirst := h hr
      refine ⟨hfirst.settled, fun ps hps => ?_, fun ps hps => ?_⟩
      · obtain ⟨p, -, hp, -, -⟩ := List.forall₂_cons_left_iff.1 hps
        exact hfirst.tooDeep _ p rfl hp
      · obtain ⟨p, -, hp, -, -⟩ := List.forall₂_cons_left_iff.1 hps
        cases hfirst.within p hp
  | later h _ ih =>
      obtain ⟨hr', hdeep, hnot⟩ := ih (h hr).settled
      refine ⟨hr', fun ps hps => ?_, fun ps hps => ?_⟩
      · obtain ⟨-, qs, -, hqs, -⟩ := List.forall₂_cons_left_iff.1 hps
        exact hdeep qs hqs
      · obtain ⟨-, qs, -, hqs, -⟩ := List.forall₂_cons_left_iff.1 hps
        exact hnot qs hqs

/-- A creation settles if the resolutions of the parts do. -/
theorem settles_of_creation (h : Creation (SettlesFrom types depth) t r outcome r')
    (hr : r.Settled types) : Settles types (depth + 1) t outcome r' := by
  obtain rfl := hr.types_eq
  have hstart : (r.addSpecial (t.delimiters r.types)).Settled r.types := ⟨rfl, hr.makes⟩
  cases h with
  | stopped h =>
      obtain ⟨hr', hdeep, hnot⟩ := settled_of_stopped h hstart
      refine ⟨hr', by simp, fun e p he hp => ?_, fun p hp => ?_⟩
      · obtain ⟨ps, hps, -⟩ := Ty.makes_iff.1 hp
        obtain rfl := Except.error.inj he
        exact hdeep ps hps
      · obtain ⟨ps, hps, -⟩ := hp
        exact absurd hps (hnot ps)
  | unmade h he =>
      obtain ⟨hr', hps⟩ := settled_of_allMade h hstart
      -- the parts have no other parsers that the type could be composed of
      have hnone : ∀ p, ¬ t.Makes r.types p := fun p hp => by
        obtain ⟨qs, hqs, hp⟩ := Ty.makes_iff.1 hp
        obtain rfl := (Ty.makes_rightUnique _).forall₂ hps hqs
        cases he.symm.trans hp
      exact ⟨hr', by simp, fun _ p _ hp => absurd hp (hnone p),
        fun p hp => absurd ⟨_, hp⟩ (hnone p)⟩
  | made h hp hnew =>
      obtain ⟨hr', hps⟩ := settled_of_allMade h hstart
      have hmakes := Ty.makes_iff.2 ⟨_, hps, hp⟩
      exact ⟨hr'.register hmakes, fun q hq => Except.ok.inj hq ▸ hmakes, by simp,
        fun q hq => congrArg Except.ok (Ty.makes_rightUnique _ hmakes ⟨_, hq⟩)⟩
  | found h hq =>
      obtain ⟨hr', -⟩ := settled_of_allMade h hstart
      have hmakes := hr'.makes t _ hq
      exact ⟨hr', fun q hq => Except.ok.inj hq ▸ hmakes, by simp,
        fun q hq => congrArg Except.ok (Ty.makes_rightUnique _ hmakes ⟨_, hq⟩)⟩

/-- **Resolution in a settled registry** keeps it settled, and gives the parser made of the parts
unless the depth runs out. -/
theorem settles_of_runs (h : Runs depth t r outcome r') (hr : r.Settled types) :
    Settles types depth t outcome r' := by
  refine runs_induction (motive := SettlesFrom types) (fun ht hr => ?_) (fun _ hr => ?_)
    (fun _ h hr => settles_of_creation (h.imp fun _ _ _ _ hpart => hpart.2) hr) h hr
  · have hmakes := hr.makes _ _ ht
    exact ⟨hr, fun q hq => Except.ok.inj hq ▸ hmakes, by simp,
      fun q hq => congrArg Except.ok (Ty.makes_rightUnique _ hmakes ⟨_, hq⟩)⟩
  · exact ⟨hr, by simp, fun e _ he _ => ⟨_, (Except.error.inj he).symm⟩, fun _ hp => hp.elim⟩

end Resolution

/-! ## histories -/

namespace Registry

/-- The registry after several types have been resolved, whether that succeeded or not. -/
def resolveAll (r : Registry) (ts : List Ty) : Registry := ts.foldl (fun r t => (r.resolve t).2) r

theorem resolveAll_append (r : Registry) (ts us : List Ty) :
    r.resolveAll (ts ++ us) = (r.resolveAll ts).resolveAll us := List.foldl_append

end Registry

/-- The registry resolves the type of a parameter, unless that has a parser of its own. -/
theorem Grammar.parserFor_resolves (p : Parameter) (r : Registry) :
    ∃ ts, (∀ t ∈ ts, p.parser = none ∧ p.type = t) ∧ (parserFor p r).2 = r.resolveAll ts := by
  rw [parserFor]
  cases p.parser with
  | some parser => exact ⟨[], fun _ h => absurd h List.not_mem_nil, rfl⟩
  | none => exact ⟨[p.type], fun t h => ⟨rfl, (List.mem_singleton.1 h).symm⟩, rfl⟩

theorem Grammar.buildFrom_resolves (i : Nat) (used : Used) (ps : List Parameter) (r : Registry) :
    ∃ ts, (∀ t ∈ ts, ∃ p ∈ ps, p.parser = none ∧ p.type = t) ∧
      (buildFrom i used ps r).2 = r.resolveAll ts := by
  induction ps generalizing i used r with
  | nil => exact ⟨[], fun _ h => absurd h List.not_mem_nil, rfl⟩
  | cons p ps ih =>
      obtain ⟨ts, hts, hr⟩ := parserFor_resolves p r
      rw [buildFrom]
      rcases check used p with e | used'
      · exact ⟨[], fun _ h => absurd h List.not_mem_nil, rfl⟩
      · rcases hp : parserFor p r with ⟨e | parser, r'⟩
        · exact ⟨ts, fun t h => ⟨p, List.mem_cons_self, hts t h⟩, by simpa only [hp] using hr⟩
        · obtain ⟨us, hus, hr'⟩ := ih (i + 1) used' r'
          refine ⟨ts ++ us, fun t h => ?_, ?_⟩
          · rcases List.mem_append.1 h with h | h
            · exact ⟨p, List.mem_cons_self, hts t h⟩
            · obtain ⟨q, hq, htype⟩ := hus t h
              exact ⟨q, List.mem_cons_of_mem p hq, htype⟩
          · simp only [hp] at hr
            rw [Registry.resolveAll_append, ← hr, ← hr']

/-- **A build resolves types of its parameters** one after the other, and does nothing else to the
registry. -/
theorem Grammar.build_resolves (ps : List Parameter) (r : Registry) :
    ∃ ts, (∀ t ∈ ts, ∃ p ∈ ps, p.parser = none ∧ p.type = t) ∧
      (build ps r).2 = r.resolveAll ts := buildFrom_resolves 0 {} ps r

/-- A call that may make parsers. -/
inductive RegistryCall
  | resolve (t : Ty)
  | build (ps : List Parameter)

namespace RegistryCall

/-- The registry after the call, whether that succeeded or not. -/
def apply (r : Registry) : RegistryCall → Registry
  | resolve t => (r.resolve t).2
  | build ps => (Grammar.build ps r).2

/-- The call asks the registry for the parser of the type. -/
def AsksFor : RegistryCall → Ty → Prop
  | resolve t, u => u = t
  | build ps, u => ∃ p ∈ ps, p.parser = none ∧ p.type = u

theorem apply_resolves (call : RegistryCall) (r : Registry) :
    ∃ ts, (∀ t ∈ ts, call.AsksFor t) ∧ call.apply r = r.resolveAll ts := by
  cases call with
  | resolve t => exact ⟨[t], fun u h => List.mem_singleton.1 h, rfl⟩
  | build ps => exact Grammar.build_resolves ps r

end RegistryCall

namespace Registry

/-- The registry after a history of calls. -/
def after (r : Registry) (calls : List RegistryCall) : Registry := calls.foldl RegistryCall.apply r

/-- A history is a list of types that were resolved. -/
theorem after_resolves (r : Registry) (calls : List RegistryCall) :
    ∃ ts, (∀ t ∈ ts, ∃ call ∈ calls, call.AsksFor t) ∧ r.after calls = r.resolveAll ts := by
  induction calls generalizing r with
  | nil => exact ⟨[], fun _ h => absurd h List.not_mem_nil, rfl⟩
  | cons call calls ih =>
      obtain ⟨ts, hts, hr⟩ := call.apply_resolves r
      obtain ⟨us, hus, hr'⟩ := ih (call.apply r)
      refine ⟨ts ++ us, fun t h => ?_, ?_⟩
      · rcases List.mem_append.1 h with h | h
        · exact ⟨call, List.mem_cons_self, hts t h⟩
        · obtain ⟨call', hcall, hasks⟩ := hus t h
          exact ⟨call', List.mem_cons_of_mem call hcall, hasks⟩
      · rw [resolveAll_append, ← hr]
        exact hr'

end Registry

/-! ## delimiters that are special anyway -/

/-- Making a parser of the type makes nothing special that is not special from the outset. -/
def Ty.Ordinary (types : Declarations) (t : Ty) : Prop :=
  ∀ u, (Registry.empty types).Needs t u → ∀ c ∈ u.delimiters types, c ∈ SpecialSet.builtIn.toList

/-- A type is ordinary if its own delimiters are special and its parts are ordinary. -/
theorem Ty.ordinary_of_parts {types : Declarations} {t : Ty}
    (h : ∀ c ∈ t.delimiters types, c ∈ SpecialSet.builtIn.toList)
    (hparts : ∀ u ∈ t.parts types, u.Ordinary types) : t.Ordinary types := by
  intro u hu
  cases hu with
  | self => exact h
  | part _ hv hu => exact hparts _ hv u hu

theorem Ty.ordinary_integer {types : Declarations} (i : IntegerType) :
    (Ty.integer i).Ordinary types :=
  ordinary_of_parts (fun _ h => absurd h List.not_mem_nil) (fun _ h => absurd h List.not_mem_nil)

/-- A type within a number of options. -/
def Ty.options : Nat → Ty → Ty
  | 0, t => t
  | n + 1, t => .optional (options n t)

/-- Options have no delimiters. -/
theorem Ty.ordinary_options {types : Declarations} {t : Ty} (n : Nat) (h : t.Ordinary types) :
    (options n t).Ordinary types := by
  induction n with
  | zero => exact h
  | succ n ih =>
      refine ordinary_of_parts (fun _ h => absurd h List.not_mem_nil) fun u hu => ?_
      rw [List.mem_singleton.1 hu]
      exact ih

/-- The call asks for ordinary types only. -/
def RegistryCall.Ordinary (types : Declarations) (call : RegistryCall) : Prop :=
  ∀ t, call.AsksFor t → t.Ordinary types

namespace SpecialSet

/-- An increasing list takes in no second copy of a member. -/
theorem insertChar_of_mem {c : Char} {cs : List Char} (hcs : cs.Pairwise (· < ·)) (hc : c ∈ cs) :
    insertChar c cs = cs := by
  induction cs with
  | nil => exact absurd hc List.not_mem_nil
  | cons d ds ih =>
      obtain ⟨hd, hds⟩ := List.pairwise_cons.1 hcs
      rcases List.mem_cons.1 hc with rfl | hc
      · rw [insertChar, if_neg (Char.lt_irrefl c), if_pos rfl]
      · have hlt := hd c hc
        have hne : c ≠ d := fun he => Char.lt_irrefl d (he ▸ hlt)
        rw [insertChar, if_neg (Char.lt_asymm hlt), if_neg hne, ih hds hc]

/-- Nothing changes when what is special already is made special. -/
theorem add_eq_self {s : SpecialSet} (hs : s.toList.Pairwise (· < ·)) {cs : List Char}
    (hcs : ∀ c ∈ cs, c ∈ s.toList) : s.add cs = s := by
  induction cs with
  | nil => rfl
  | cons c cs ih =>
      have hc := insertChar_of_mem hs (hcs c List.mem_cons_self)
      rw [add, List.foldl_cons, hc]
      exact ih fun d hd => hcs d (List.mem_cons_of_mem c hd)

theorem builtIn_increasing : builtIn.toList.Pairwise (· < ·) := by decide

end SpecialSet

/-! ## independence -/

namespace Registry

variable {types : Declarations} {r r' : Registry} {t : Ty}

/-- The registry stores nothing but parsers made of the parts of their types, and nothing is
special that is not special from the outset. -/
structure Plain (types : Declarations) (r : Registry) : Prop extends Settled types r where
  special : r.special = .builtIn

theorem plain_empty (types : Declarations) : (empty types).Plain types where
  types_eq := rfl
  makes _ _ h := by cases h
  special := rfl

/-- The resolution of an ordinary type keeps a registry plain, whether it succeeds or not. -/
theorem Plain.resolve (h : r.Plain types) (ht : t.Ordinary types) :
    (r.resolve t).2.Plain types := by
  have hsettles := Resolution.settles_of_runs (Resolution.runs_resolve r t) h.toSettled
  refine ⟨hsettles.settled, ?_⟩
  obtain ⟨cs, hcs, hneeded⟩ := (r.gains_resolve t).special
  have hordinary : ∀ c ∈ cs, c ∈ SpecialSet.builtIn.toList := fun c hc => by
    obtain ⟨u, hu, hc⟩ := hneeded c hc
    have hu' : (empty types).Needs t u := hu.anti h.types_eq fun _ _ hu => by cases hu
    exact ht u hu' c (h.types_eq ▸ hc)
  rw [hcs, h.special, SpecialSet.add_eq_self SpecialSet.builtIn_increasing hordinary]

theorem Plain.resolveAll (h : r.Plain types) {ts : List Ty} (hts : ∀ t ∈ ts, t.Ordinary types) :
    (r.resolveAll ts).Plain types := by
  induction ts generalizing r with
  | nil => exact h
  | cons t ts ih =>
      exact ih (h.resolve (hts t List.mem_cons_self)) fun u hu => hts u (List.mem_cons_of_mem t hu)

/-- Whatever ordinary types were asked for, a registry that was empty is plain. -/
theorem plain_after {calls : List RegistryCall} (h : ∀ call ∈ calls, call.Ordinary types) :
    ((empty types).after calls).Plain types := by
  obtain ⟨ts, hts, hafter⟩ := (empty types).after_resolves calls
  rw [hafter]
  refine (plain_empty types).resolveAll fun t ht => ?_
  obtain ⟨call, hcall, hasks⟩ := hts t ht
  exact h call hcall t hasks

/-- What is resolved in one plain registry is resolved in another to the same parser, unless that
needs more depth than there is. -/
theorem Plain.resolve_eq (h : r.Plain types) (h' : r'.Plain types) {p : Parser}
    (hp : (r.resolve t).1 = .ok p) :
    (r'.resolve t).1 = .ok p ∨
      (∃ u, (r'.resolve t).1 = .error (.tooDeep u)) ∧ ∀ q, ¬ t.MadeWithin types resolveDepth q := by
  have hsettles := Resolution.settles_of_runs (Resolution.runs_resolve r t) h.toSettled
  have hsettles' := Resolution.settles_of_runs (Resolution.runs_resolve r' t) h'.toSettled
  have hmakes := hsettles.makes p hp
  cases hq : (r'.resolve t).1 with
  | ok q => exact .inl (congrArg _ (Ty.makes_rightUnique types (hsettles'.makes q hq) hmakes))
  | error e =>
      obtain ⟨u, rfl⟩ := hsettles'.tooDeep e p hq hmakes
      refine .inr ⟨⟨u, rfl⟩, fun q hwithin => ?_⟩
      cases hq.symm.trans (hsettles'.within q hwithin)

/-- **Resolution does not depend on what was resolved before.**  After any history of ordinary
types the special characters are those of the outset, and a type that is resolved has the same
parser after any other history: the same name, the same template and the same reading of every
text.  The one difference is that a type whose parsers nest too deeply may find some of them
stored. -/
theorem resolve_after_any_history (types : Declarations) (calls calls' : List RegistryCall)
    (h : ∀ call ∈ calls, call.Ordinary types) (h' : ∀ call ∈ calls', call.Ordinary types) :
    ((empty types).after calls).special = .builtIn ∧
      ∀ t p, t.Ordinary types → (((empty types).after calls).resolve t).1 = .ok p →
        (∃ q, (((empty types).after calls').resolve t).1 = .ok q ∧ q.name = p.name ∧
          q.template = p.template ∧
          ∀ s, (((empty types).after calls').resolve t).2.read q s =
            (((empty types).after calls).resolve t).2.read p s) ∨
        (∃ u, (((empty types).after calls').resolve t).1 = .error (.tooDeep u)) ∧
          ∀ q, ¬ t.MadeWithin types resolveDepth q := by
  have hplain := plain_after h
  have hplain' := plain_after h'
  refine ⟨hplain.special, fun t p ht hp => (hplain.resolve_eq hplain' hp).imp_left fun hq => ?_⟩
  refine ⟨p, hq, rfl, rfl, fun s => ?_⟩
  rw [read, read, (hplain.resolve ht).special, (hplain'.resolve ht).special]

/-- Two options are resolved first, or nothing, and then four. -/
theorem resolve_after_options :
    ∃ p, (((empty fun _ _ => none).after [.resolve (.options 2 (.integer .u8))]).resolve
        (.options 4 (.integer .u8))).1 = .ok p ∧
      ∃ q, (((empty fun _ _ => none).after []).resolve (.options 4 (.integer .u8))).1 = .ok q ∧
        q.name = p.name ∧ q.template = p.template ∧
        ∀ s, (((empty fun _ _ => none).after []).resolve (.options 4 (.integer .u8))).2.read q s =
          (((empty fun _ _ => none).after [.resolve (.options 2 (.integer .u8))]).resolve
            (.options 4 (.integer .u8))).2.read p s := by
  obtain ⟨p, hp⟩ : ∃ p, (((empty fun _ _ => none).after
      [.resolve (.options 2 (.integer .u8))]).resolve (.options 4 (.integer .u8))).1 = .ok p :=
    ⟨_, rfl⟩
  obtain ⟨-, hsame⟩ := resolve_after_any_history (fun _ _ => none)
    [.resolve (.options 2 (.integer .u8))] []
    (fun call hcall t ht => by
      obtain rfl := List.mem_singleton.1 hcall
      exact ht ▸ Ty.ordinary_options 2 (Ty.ordinary_integer .u8))
    (fun _ hcall => absurd hcall List.not_mem_nil)
  rcases hsame _ p (Ty.ordinary_options 4 (Ty.ordinary_integer .u8)) hp with hq | ⟨⟨u, hu⟩, -⟩
  · exact ⟨p, hp, hq⟩
  · cases hu

set_option maxRecDepth 10000 in
/-- The depth shows: sixty-four options cannot be made at once, but in two steps they can. -/
theorem resolve_depends_on_stored_options :
    (∀ call ∈ [RegistryCall.resolve (.options 16 (.integer .u8))],
        call.Ordinary fun _ _ => none) ∧
      (Ty.options 64 (.integer .u8)).Ordinary (fun _ _ => none) ∧
      (∃ p, (((empty fun _ _ => none).after [.resolve (.options 16 (.integer .u8))]).resolve
        (.options 64 (.integer .u8))).1 = .ok p) ∧
      ((empty fun _ _ => none).resolve (.options 64 (.integer .u8))).1 =
        .error (.tooDeep (.integer .u8)) := by
  refine ⟨fun call hcall t ht => ?_, Ty.ordinary_options 64 (Ty.ordinary_integer .u8),
    ⟨_, rfl⟩, rfl⟩
  obtain rfl := List.mem_singleton.1 hcall
  exact ht ▸ Ty.ordinary_options 16 (Ty.ordinary_integer .u8)

end Registry

end TypedConsole
