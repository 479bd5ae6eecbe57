import TypedConsole.Registry.Resolve

/-!
# TypedConsole.Proofs.DepthCounter

The counter of the creations under way, and what it comes to.

A creation is guarded by a counter that goes up for it and down again when it ends.  So a resolution
leaves the counter where it was, also when it fails, and what the counter leaves of the limit can be
handed down in its place: `resolveWithin` does that (`resolve_eq_resolveWithin`), and everything
else that is said of resolution is said of it.
-/

namespace TypedConsole.Resolution

/-- The parser of a type, made within `depth` nested creations if it is not stored. -/
def resolveWithin : Nat → Ty → Resolution Parser
  | 0, t => do
    match (← get).lookup t with
    | some p => pure p
    | none => throw (.tooDeep t)
  | depth + 1, t => do
    match (← get).lookup t with
    | some p => pure p
    | none =>
      let p ← create (resolveWithin depth) t
      storeIfAbsent t p

/-- Run with a counter on a registry: the outcome, and the counter and the registry afterwards. -/
def Counting.on (m : Counting α) (k : Nat) (r : Registry) :
    (Except ResolveError α × Nat) × Registry := (m.run.run k).run r

/-- With the counter at `k`, the step `m` does what `m'` does without one, and leaves the counter
where it is. -/
def Agrees (k : Nat) (m : Counting α) (m' : Resolution α) : Prop :=
  ∀ r, m.on k r = (((m'.on r).1, k), (m'.on r).2)

variable {α β : Type} {k : Nat}

/-! ## single steps -/

theorem agrees_pure (a : α) : Agrees k (pure a) (pure a) := fun _ => rfl

theorem agrees_throw (e : ResolveError) :
    Agrees k (throw e : Counting α) (throw e : Resolution α) := fun _ => rfl

theorem agrees_get : Agrees k (getThe Registry : Counting Registry) (get : Resolution Registry) :=
  fun _ => rfl

theorem agrees_markSpecial (characters : List Char) :
    Agrees k (markSpecial characters) (markSpecial characters) := fun _ => rfl

theorem Counting.on_bind (m : Counting α) (f : α → Counting β) (k : Nat) (r : Registry) :
    (m >>= f).on k r =
      match m.on k r with
      | ((.ok a, k'), r') => (f a).on k' r'
      | ((.error e, k'), r') => ((.error e, k'), r') := by
  have hrun : (m >>= f).on k r =
      (fun x : (Except ResolveError α × Nat) × Registry =>
        ((ExceptT.bindCont f x.1.1).run x.1.2).run x.2) (m.on k r) := rfl
  rw [hrun]
  rcases m.on k r with ⟨⟨_ | a, k'⟩, r'⟩ <;> rfl

theorem on_bind (m : Resolution α) (f : α → Resolution β) (r : Registry) :
    (m >>= f).on r =
      match m.on r with
      | (.ok a, r') => (f a).on r'
      | (.error e, r') => (.error e, r') := by
  have hrun : (m >>= f).on r =
      (fun x : Except ResolveError α × Registry => ExceptT.bindCont f x.1 x.2) (m.on r) := rfl
  rw [hrun]
  rcases m.on r with ⟨_ | a, r'⟩ <;> rfl

theorem Agrees.bind {m : Counting α} {m' : Resolution α} {f : α → Counting β}
    {f' : α → Resolution β} (h : Agrees k m m') (hf : ∀ a, Agrees k (f a) (f' a)) :
    Agrees k (m >>= f) (m' >>= f') := by
  intro r
  rw [Counting.on_bind, h r, on_bind]
  rcases m'.on r with ⟨_ | a, r'⟩
  · rfl
  · exact hf a r'

theorem agrees_mapM {f : α → Counting β} {f' : α → Resolution β} (h : ∀ a, Agrees k (f a) (f' a))
    (as : List α) : Agrees k (as.mapM f) (as.mapM f') := by
  induction as with
  | nil => exact agrees_pure []
  | cons a as ih =>
      rw [List.mapM_cons, List.mapM_cons]
      exact (h a).bind fun b => ih.bind fun bs => agrees_pure (b :: bs)

/-! ## creations -/

section Create

variable {resolve : Ty → Counting Parser} {resolve' : Ty → Resolution Parser}
  (h : ∀ t, Agrees k (resolve t) (resolve' t))
include h

theorem agrees_sequenceOf (g : Groupings) (label : String → String)
    (collect : List Value → Option Value) (element : Ty) :
    Agrees k (sequenceOf resolve g label collect element)
      (sequenceOf resolve' g label collect element) :=
  (agrees_markSpecial _).bind fun _ => (h element).bind fun _ => agrees_pure _

theorem agrees_mapOf (label : String) (bind : Binder) (key value : Ty) :
    Agrees k (mapOf resolve label bind key value) (mapOf resolve' label bind key value) :=
  (agrees_markSpecial _).bind fun _ => (h key).bind fun _ => (h value).bind fun _ =>
    (h (.pair key value)).bind fun _ => agrees_pure _

theorem agrees_recordOf (spec : RecordSpec) :
    Agrees k (recordOf resolve spec) (recordOf resolve' spec) :=
  (agrees_markSpecial _).bind fun _ =>
    (agrees_mapM (fun s => (h s.type).bind fun _ => agrees_pure _) spec.slots).bind fun _ =>
      agrees_pure _

/-- A creation does the same with a counter as without, if the resolutions of its parts do. -/
theorem agrees_create (t : Ty) : Agrees k (create resolve t) (create resolve' t) := by
  cases t with
  | string | char | bool | integer | float => exact agrees_pure _
  | optional t => exact (h t).bind fun _ => agrees_pure _
  | sequence kind t => exact agrees_sequenceOf h _ _ _ t
  | set i t =>
      rw [create, create]
      exact agrees_sequenceOf h _ _ _ t
  | map i k v => exact agrees_mapOf h _ _ k v
  | pair k v =>
      exact (agrees_markSpecial _).bind fun _ => (h k).bind fun _ => (h v).bind fun _ =>
        agrees_pure _
  | tuple ts => exact agrees_recordOf h _
  | declared path args =>
      refine agrees_get.bind fun r => ?_
      rcases r.types path args with _ | ⟨_ | ⟨name, t⟩ | spec, zero⟩
      · exact agrees_throw _
      · exact agrees_throw _
      · exact (h t).bind fun _ => agrees_pure _
      · exact agrees_recordOf h spec

end Create

theorem agrees_storeIfAbsent (t : Ty) (p : Parser) :
    Agrees k (storeIfAbsent t p) (storeIfAbsent t p) := by
  refine agrees_get.bind fun r => ?_
  cases r.lookup t with
  | some q => exact agrees_pure q
  | none => exact fun _ => rfl

/-! ## the guard -/

/-- At the limit a creation is refused. -/
theorem agrees_guarded_of_le {t : Ty} {m : Counting Parser} (hk : resolveDepth ≤ k) :
    Agrees k (guarded t m) (throw (.tooDeep t)) := by
  intro r
  have hget : (getThe Nat : Counting Nat).on k r = ((.ok k, k), r) := rfl
  simp only [guarded, Counting.on_bind, hget, if_pos hk]
  rfl

/-- The counter goes down again however the creation ends. -/
theorem Counting.on_tryFinally (m : Counting α) (k : Nat) (r : Registry) :
    (tryFinally m (modifyThe Nat (· - 1))).on k r =
      (((m.on k r).1.1, (m.on k r).1.2 - 1), (m.on k r).2) := by
  rcases hm : m.on k r with ⟨⟨outcome, k'⟩, r'⟩
  have hrun : m k r = ((outcome, k'), r') := hm
  simp only [on, tryFinally, tryFinally', ExceptT.run, ExceptT.mk, StateT.run, Functor.map,
    bind, StateT.bind, ExceptT.map, pure, hrun]
  cases outcome <;> rfl

/-- Below the limit it runs with the counter one higher. -/
theorem agrees_guarded {t : Ty} {m : Counting Parser} {m' : Resolution Parser}
    (hk : k < resolveDepth) (h : Agrees (k + 1) m m') : Agrees k (guarded t m) m' := by
  intro r
  have hget : (getThe Nat : Counting Nat).on k r = ((.ok k, k), r) := rfl
  have hup : (modifyThe Nat (· + 1) : Counting Unit).on k r = ((.ok (), k + 1), r) := rfl
  simp only [guarded, Counting.on_bind, hget, if_neg (Nat.not_le.2 hk), hup,
    Counting.on_tryFinally, h r, Nat.add_sub_cancel]

/-- **With the counter at `k`**, resolution has what is left of the limit for its depth. -/
theorem agrees_resolveCounting {fuel : Nat} (hfuel : resolveDepth - k < fuel) (t : Ty) :
    Agrees k (resolveCounting fuel t) (resolveWithin (resolveDepth - k) t) := by
  induction fuel generalizing k t with
  | zero => exact absurd hfuel (Nat.not_lt_zero _)
  | succ fuel ih =>
      rcases Nat.lt_or_ge k resolveDepth with hk | hk
      · have hleft : resolveDepth - k = resolveDepth - (k + 1) + 1 := by omega
        rw [hleft]
        refine agrees_get.bind fun r => ?_
        cases r.lookup t with
        | some p => exact agrees_pure p
        | none =>
            have hcreate := agrees_create (ih (k := k + 1) (by omega)) t
            exact (agrees_guarded hk hcreate).bind (agrees_storeIfAbsent t)
      · rw [Nat.sub_eq_zero_of_le hk]
        refine agrees_get.bind fun r => ?_
        cases r.lookup t with
        | some p => exact agrees_pure p
        | none => exact (agrees_guarded_of_le hk).bind (agrees_storeIfAbsent t)

/-- **Resolution** has the whole limit for its depth. -/
theorem resolve_eq_resolveWithin (t : Ty) : resolve t = resolveWithin resolveDepth t := by
  funext r
  have h := agrees_resolveCounting (k := 0) (Nat.lt_succ_self _) t r
  exact congrArg (fun x : (Except ResolveError Parser × Nat) × Registry => (x.1.1, x.2)) h

end TypedConsole.Resolution
