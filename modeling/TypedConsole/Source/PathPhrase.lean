import TypedConsole.Source.Attribute

/-!
# TypedConsole.Source.PathPhrase

Paths in the Rust language with their generic arguments, and the calls of macros that plain paths
name. Generic arguments have one normal order, lifetimes before all others.
-/

namespace TypedConsole.Source

open Phrase

namespace PathPhrase

/-- A path comes next. -/
def startsPath (ts : Tokens) : Bool :=
  startsSegment ts || startsOperator "::".toList ts || startsOperator ['<'] ts

/-- A double colon comes next, and behind it something that satisfies the test. -/
def startsQualified (test : Tokens → Bool) (ts : Tokens) : Bool :=
  startsOperator "::".toList ts && test (ts.drop 2)

/-! ## lifetimes first -/

/-- Items behind others of which the last may lack its comma. -/
def behind (items others : List (Tokens × Bool)) : Tokens :=
  let missing := items.getLast?.any (!·.2) && !others.isEmpty
  items.flatMap (itemTrees ",") ++ (if missing then operatorTrees [','] else []) ++
    others.flatMap (itemTrees ",")

/-- Items in their normal order. Each is marked if it is a lifetime, and then by its comma. -/
def lifetimesFirst (items : List ((Bool × Tokens) × Bool)) : Tokens :=
  let (lifetimes, others) := items.partition (·.1.1)
  behind (lifetimes.map fun (item, comma) => (item.2, comma))
    (others.map fun (item, comma) => (item.2, comma))

section
variable (g : Rules)

/-! ## generic arguments -/

/-- A literal, name or block that stands for a constant. -/
def constant : Phrase := do
  if ← next startsLiteral then literal
  else if ← next startsName then name
  else g.block true

/-- A constant that cannot be mistaken for a type comes next. -/
def startsConstant (ts : Tokens) : Bool := startsLiteral ts || startsGroup .braces ts

/-- What an associated item is set to: a constant or a type. -/
def associatedValue : Phrase := do
  if ← next startsConstant then constant g else g.typeTrees true

/-- The bounds on an associated type. -/
def associatedBounds : Phrase :=
  list (next fun ts => startsOperator [','] ts || startsOperator ['>'] ts) "+"
    (g.boundTrees false true)

/-- A generic argument that is no lifetime: a constant, a type, an associated item with its value,
or an associated type with its bounds. -/
def valueArgument : Phrase := do
  if ← next startsConstant then constant g
  else
    let type ← g.type true
    match type.kind with
    | .segment =>
      if ← nextOperator "=" then return type.trees ++ (← operator "=") ++ (← associatedValue g)
      else if ← nextOperator ":" then
        return type.trees ++ (← operator ":") ++ (← associatedBounds g)
      else return type.trees
    | _ => return type.trees

/-- A generic argument, marked if it is a lifetime. -/
def genericArgument : Reading (Bool × Tokens) := do
  if ← next (fun ts => startsLifetime ts && !startsOperator ['+'] (afterTree ts)) then
    return (true, ← lifetime)
  else return (false, ← valueArgument g)

/-- Generic arguments in angle brackets. -/
def genericArguments : Phrase := do
  let opening ← operator "<"
  let arguments ← items (nextOperator ">") "," (genericArgument g)
  return opening ++ lifetimesFirst arguments ++ (← operator ">")

end

/-! ## paths -/

/-- A path with arguments. -/
structure Form where
  trees : Tokens
  /-- It starts from a type in angle brackets. -/
  qualified : Bool
  /-- It is a single segment. -/
  single : Bool
deriving Repr

namespace Form

/-- No segment has arguments. -/
def isPlain (p : Form) : Bool := p.trees.all fun
  | .name _ | .punctuation ':' _ => true
  | _ => false

/-- The path without the brackets of its last segment, if they hold no arguments. -/
def openTrees? (p : Form) : Option Tokens :=
  match p.trees.reverse with
  | .name _ :: _ => some p.trees
  | .punctuation '>' _ :: .punctuation '<' _ :: before =>
    some (before.dropWhile fun
      | .punctuation _ _ => true
      | _ => false).reverse
  | _ => none

/-- The name that the path is, if it is one. -/
def name? (p : Form) : Option String :=
  match p.trees with
  | [.name text] => some text
  | _ => none

end Form

section
variable (g : Rules)

/-- A segment of a path. In an expression its arguments stand behind a double colon. -/
def segment (inExpression : Bool) : Phrase := do
  if ← nextOneOf ["super", "self", "crate", "try"] then anyWord
  else
    let head ← if ← nextWord "Self" then anyWord else name
    let angle ← next fun ts => !inExpression && startsOnly "<" "<=" ts
    let qualified ← next (startsQualified (startsOperator ['<']))
    if angle || qualified then
      return head ++ (← optionalOperator "::") ++ (← genericArguments g)
    else return head

/-- Further segments. A double colon before parentheses is none. -/
def moreSegments (inExpression : Bool) : Phrase :=
  whileNext
    (next fun ts =>
      startsOperator "::".toList ts && !startsQualified (startsGroup .parentheses) ts)
    (andThen (operator "::") (segment g inExpression))

/-- A path that starts with a segment. -/
def unqualified (inExpression : Bool) : Reading Form := do
  let mark ← optionalOperator "::"
  let head ← segment g inExpression
  let more ← moreSegments g inExpression
  return ⟨mark ++ head ++ more, false, mark.isEmpty && more.isEmpty⟩

/-- A path that starts from a type in angle brackets. -/
def qualified (inExpression : Bool) : Phrase :=
  inOrder [operator "<", g.typeTrees true,
    whenNext (nextWord "as")
      (andThen (word "as") do return (← unqualified g false).trees),
    operator ">", operator "::", segment g inExpression,
    whileNext (nextOperator "::") (andThen (operator "::") (segment g inExpression))]

/-- A path, which may start from a type in angle brackets. -/
def path (inExpression : Bool) : Reading Form := do
  if ← nextOperator "<" then return ⟨← qualified g inExpression, true, false⟩
  else unqualified g inExpression

end

/-! ## calls of macros -/

/-- The call of a macro goes on here. -/
def startsCall (ts : Tokens) : Bool := startsOnly "!" "!=" ts

/-- The mark of a call and the arguments, in any delimiters. -/
def callTail : Phrase := andThen (operator "!") anyGroup

/-- The call of the macro that the path names, if a call follows. -/
def macroCall? (path : Form) : Reading (Option Tokens) := do
  if !path.qualified && path.isPlain && (← next startsCall) then
    return some (path.trees ++ (← callTail))
  else return none

/-- The trees end in braces. -/
def endsInBraces (ts : Tokens) : Bool :=
  match ts.getLast? with
  | some (.group .braces _) => true
  | _ => false

end PathPhrase

end TypedConsole.Source
