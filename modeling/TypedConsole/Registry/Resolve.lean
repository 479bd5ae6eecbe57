import TypedConsole.Registry

/-!
# TypedConsole.Registry.Resolve

Resolution of a type to its parser. A stored parser is taken as it is. Otherwise one is made from
the parsers of the types it is composed of, which are resolved in turn, and stored; the making of
parsers nests at most 64 deep. Whatever was stored or became special on the way remains when the
resolution of a composed type fails.
-/

namespace TypedConsole

/-- Why a type has no parser. -/
inductive ResolveError
  /-- Nothing says how values of the type are written. -/
  | notFound (type : Ty)
  /-- Making the parser of the type would nest too deeply. -/
  | tooDeep (type : Ty)
deriving DecidableEq

/-- The deepest chain of parsers being made for one another. -/
def resolveDepth : Nat := 64

/-- The wording of the error. -/
def ResolveError.message : ResolveError → String
  | notFound t => s!"No parser is available for type '{t.fullName}'."
  | tooDeep t =>
    s!"Resolving a parser for type '{t.fullName}' exceeded the nesting limit of {resolveDepth}."

/-- A step that works on a registry and may fail. A failure keeps the changes made before it. -/
abbrev Resolution := ExceptT ResolveError (StateM Registry)

/-- Run on a registry: the outcome, and the registry afterwards. -/
def Resolution.on (m : Resolution α) (r : Registry) : Except ResolveError α × Registry := m.run r

/-! ## containers -/

namespace SequenceKind

/-- The name of a sequence in help messages, from the name of its elements. -/
def label (kind : SequenceKind) (element : String) : String :=
  match kind with
  | .vector => s!"Vec<{element}>"
  | .deque => s!"VecDeque<{element}>"
  | .stack => s!"Stack<{element}>"
  | .slice => s!"[{element}]"
  | .array n => s!"[{element}; {n}]"

/-- The container of the elements: a stack turns them around, an array takes its own number. -/
def collect (kind : SequenceKind) (vs : List Value) : Option Value :=
  match kind with
  | .stack => some (.list vs.reverse)
  | .array n => if vs.length = n then some (.list vs) else none
  | _ => some (.list vs)

end SequenceKind

namespace Indexing

/-- The name of a set in help messages. -/
def setLabel : Indexing → String
  | .hashed => "HashSet"
  | .ordered => "BTreeSet"

/-- The name of a map in help messages. -/
def mapLabel : Indexing → String
  | .hashed => "HashMap"
  | .ordered => "BTreeMap"

end Indexing

/-- The set of the elements. -/
def collectSet (vs : List Value) : Option Value := some (.list (Value.distinct vs))

/-- Bindings in increasing order of their keys. -/
def bindSorted : Binder := fun entries k v =>
  (Value.bind k v entries, (Value.find? k entries).isNone)

/-! ## making parsers -/

namespace Resolution

section Steps

variable {m : Type → Type} [Monad m] [MonadStateOf Registry m] [MonadExceptOf ResolveError m]

/-- Make characters special. -/
def markSpecial (characters : List Char) : m Unit :=
  modify fun r : Registry => r.addSpecial characters

/-- Make special what delimits a group. -/
def markGroup (g : Groupings) (separator : Char) : m Unit :=
  markSpecial (g.characters ++ [separator])

/-- A parser for groups of elements of a type, under a name made from theirs. -/
def sequenceOf (resolve : Ty → m Parser) (g : Groupings) (label : String → String)
    (collect : List Value → Option Value) (element : Ty) : m Parser := do
  markGroup g memberSeparator
  let p ← resolve element
  pure (.sequence p g (label p.name) collect)

/-- A parser for maps, under a name made from those of keys and values. -/
def mapOf (resolve : Ty → m Parser) (label : String) (bind : Binder) (key value : Ty) :
    m Parser := do
  markGroup .braces memberSeparator
  let k ← resolve key
  let v ← resolve value
  let p ← resolve (.pair key value)
  pure (.map p s!"{label}<{k.name}, {v.name}>" bind)

/-- A parser for records. -/
def recordOf (resolve : Ty → m Parser) (r : RecordSpec) : m Parser := do
  markGroup r.groupings r.separator
  let slots ← r.slots.mapM fun s => do
    let p ← resolve s.type
    pure ⟨s.type, p, s.default⟩
  pure (r.parser slots)

/-- A new parser for a type, composed of parsers that `resolve` gives. -/
def create (resolve : Ty → m Parser) : Ty → m Parser
  | .string => pure .string
  | .char => pure .char
  | .bool => pure .bool
  | .integer t => pure (.integer t)
  | .float t => pure (.float t)
  | .optional t => do
    let p ← resolve t
    pure (.optional p)
  | .sequence kind t => sequenceOf resolve .brackets kind.label kind.collect t
  | .set i t => sequenceOf resolve .braces (fun name => s!"{i.setLabel}<{name}>") collectSet t
  | .map i k v => mapOf resolve i.mapLabel bindSorted k v
  | .pair k v => do
    markSpecial [keySeparator]
    let k ← resolve k
    let v ← resolve v
    pure (.pair k v)
  | .tuple ts => recordOf resolve (.tuple ts)
  | .declared path args => do
    match (← get).types path args with
    | some ⟨.record spec, _⟩ => recordOf resolve spec
    | some ⟨.alias name t, _⟩ => do
      let p ← resolve t
      pure (.renamed p name)
    | some ⟨.opaqueType, _⟩ | none => throw (.notFound (.declared path args))

/-- The parser stored for a type, storing `p` if there is none. -/
def storeIfAbsent (t : Ty) (p : Parser) : m Parser := do
  match (← get).lookup t with
  | some q => pure q
  | none =>
    modify fun r : Registry => r.register t p
    pure p

end Steps

/-! ## the depth of creations -/

/-- Resolution beside a counter of the creations that are under way. -/
abbrev Counting := ExceptT ResolveError (StateT Nat (StateM Registry))

/-- A creation for `t` that is refused if the counter stands at the limit. The counter goes up for
it and down again when it ends, with a parser or without. -/
def guarded (t : Ty) (creation : Counting Parser) : Counting Parser := do
  if resolveDepth ≤ (← getThe Nat) then throw (.tooDeep t)
  modifyThe Nat (· + 1)
  try creation finally modifyThe Nat (· - 1)

/-- The parser of a type, made under guard if it is not stored. The guard refuses before `fuel`
runs out. -/
def resolveCounting : Nat → Ty → Counting Parser
  | 0, t => throw (.tooDeep t)
  | fuel + 1, t => do
    match (← getThe Registry).lookup t with
    | some p => pure p
    | none =>
      let p ← guarded t (create (resolveCounting fuel) t)
      storeIfAbsent t p

/-- The parser of a type, with no creation under way. -/
def resolve (t : Ty) : Resolution Parser :=
  ExceptT.mk ((resolveCounting (resolveDepth + 1) t).run.run' 0)

end Resolution

namespace Registry

/-- Resolve a type: its parser or the error, and the registry afterwards. -/
def resolve (r : Registry) (t : Ty) : Except ResolveError Parser × Registry :=
  (Resolution.resolve t).on r

/-- The value of the literal at the front of a text, and what follows it, in a registry of its
own with these declared types. -/
def readFresh (types : Declarations) (t : Ty) : Reader Value := fun s =>
  match (empty types).resolve t with
  | (.ok p, r) => r.read p s
  | (.error _, _) => (none, s)

end Registry

end TypedConsole
