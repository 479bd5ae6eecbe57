import TypedConsole.Source.Token

/-!
# TypedConsole.Source.Phrase

Phrases of source text. A phrase is read from the front of a list of token trees and is itself the
list of trees that it covers, in a normal spacing: the characters of an operator are joined to each
other and to nothing else. Phrases are put together by juxtaposition, repetition and lists. Where
syntax has no normal form, its trees are kept as they are written.
-/

namespace TypedConsole.Source

/-- Reads something from the front of source text, if it stands there. -/
abbrev Reading (α : Type) := StateT Tokens Option α

/-- Reads a phrase and gives its trees. -/
abbrev Phrase := Reading Tokens

namespace Phrase

/-! ## looking ahead -/

/-- The characters come next as one operator. The last of them may be joined to more. -/
def startsOperator : List Char → Tokens → Bool
  | [], _ => true
  | c :: cs, .punctuation d joined :: ts => c == d && (cs.isEmpty || joined) && startsOperator cs ts
  | _ :: _, _ => false

/-- The name comes next. -/
def startsWord (word : String) : Tokens → Bool
  | .name text :: _ => text == word
  | _ => false

/-- A group in the delimiter comes next. -/
def startsGroup (d : Delimiter) : Tokens → Bool
  | .group e _ :: _ => d == e
  | _ => false

/-- The words that cannot be names. -/
def keywords : List String :=
  ["_", "abstract", "as", "async", "await", "become", "box", "break", "const", "continue", "crate",
   "do", "dyn", "else", "enum", "extern", "false", "final", "fn", "for", "if", "impl", "in", "let",
   "loop", "macro", "match", "mod", "move", "mut", "override", "priv", "pub", "ref", "return",
   "Self", "self", "static", "struct", "super", "trait", "true", "try", "type", "typeof", "unsafe",
   "unsized", "use", "virtual", "where", "while", "yield"]

/-- A name that is no keyword comes next. -/
def startsName : Tokens → Bool
  | .name text :: _ => !keywords.contains text
  | _ => false

/-- A word comes next, be it a keyword. -/
def startsAnyWord : Tokens → Bool
  | .name _ :: _ => true
  | _ => false

/-- A lifetime comes next. -/
def startsLifetime : Tokens → Bool
  | .punctuation '\'' true :: .name _ :: _ => true
  | _ => false

/-- A literal comes next. The truth values are literals. -/
def startsLiteral : Tokens → Bool
  | .literal _ :: _ | .name "true" :: _ | .name "false" :: _ => true
  | .punctuation '-' _ :: .literal text :: _ => text.toList.head?.any Char.isDigit
  | _ => false

/-- A literal of a string of characters comes next. -/
def startsText : Tokens → Bool
  | .literal text :: _ => text.toList.head?.any fun c => c == '"' || c == 'r'
  | _ => false

/-- What follows the tree that comes next. A lifetime counts as one tree. -/
def afterTree : Tokens → Tokens
  | .punctuation '\'' true :: .name _ :: ts => ts
  | _ :: ts => ts
  | [] => []

/-- The operator comes next, and not the longer one. -/
def startsOnly (operator longer : String) (ts : Tokens) : Bool :=
  startsOperator operator.toList ts && !startsOperator longer.toList ts

/-- A single colon comes next, and no path. -/
def startsColon (ts : Tokens) : Bool := startsOnly ":" "::" ts

/-- An equals sign comes next, and not the arrow of an arm. -/
def startsEquals (ts : Tokens) : Bool := startsOnly "=" "=>" ts

/-- A point comes next, and not a range. -/
def startsPoint (ts : Tokens) : Bool := startsOnly "." ".." ts

/-- One of the words comes next. -/
def startsOneOf (words : List String) (ts : Tokens) : Bool := words.any (startsWord · ts)

/-- What comes next satisfies the test. -/
def next (test : Tokens → Bool) : Reading Bool := do return test (← get)

/-- The operator comes next. -/
def nextOperator (operator : String) : Reading Bool := next (startsOperator operator.toList)

/-- The word comes next. -/
def nextWord (word : String) : Reading Bool := next (startsWord word)

/-- A group comes next. -/
def nextGroup (d : Delimiter) : Reading Bool := next (startsGroup d)

/-- One of the words comes next. -/
def nextOneOf (words : List String) : Reading Bool := next (startsOneOf words)

/-- Nothing comes next. -/
def nextEnd : Reading Bool := next List.isEmpty

/-! ## single phrases -/

/-- No phrase at all. -/
def empty : Phrase := pure []

/-- The trees of an operator. -/
def operatorTrees : List Char → Tokens
  | [] => []
  | [c] => [.punctuation c false]
  | c :: cs => .punctuation c true :: operatorTrees cs

/-- Reads the operator. -/
def operator (text : String) : Phrase := do
  if ← nextOperator text then
    modify (List.drop text.length)
    return operatorTrees text.toList
  else failure

/-- Reads one tree that satisfies the test. -/
def tree (test : Tokens → Bool) : Phrase := do
  match ← get with
  | t :: ts => if test (t :: ts) then set ts; return [t] else failure
  | [] => failure

/-- Reads the word. -/
def word (text : String) : Phrase := tree (startsWord text)

/-- Reads a name that is no keyword. -/
def name : Phrase := tree startsName

/-- Reads any word. -/
def anyWord : Phrase := tree startsAnyWord

/-- Reads a lifetime. -/
def lifetime : Phrase := do
  if ← next startsLifetime then
    match ← get with
    | quote :: text :: rest => set rest; return [quote, text]
    | _ => failure
  else failure

/-- Reads a literal, possibly negative. -/
def literal : Phrase := do
  if ← next startsLiteral then
    match ← get with
    | .punctuation '-' _ :: number :: rest => set rest; return [.punctuation '-' false, number]
    | t :: rest => set rest; return [t]
    | [] => failure
  else failure

/-- Reads a group as it stands. -/
def anyGroup : Phrase := tree fun ts =>
  startsGroup .parentheses ts || startsGroup .brackets ts || startsGroup .braces ts

/-! ## composition -/

/-- One phrase and then another. -/
def andThen (p q : Phrase) : Phrase := do return (← p) ++ (← q)

/-- The phrases one after another. -/
def inOrder : List Phrase → Phrase
  | [] => empty
  | p :: ps => andThen p (inOrder ps)

/-- The phrase if the test holds for what comes next, and otherwise nothing. -/
def whenNext (test : Reading Bool) (p : Phrase) : Phrase := do
  if ← test then p else empty

/-- The operator if it comes next, and otherwise nothing. -/
def optionalOperator (text : String) : Phrase := whenNext (nextOperator text) (operator text)

/-- The word if it comes next, and otherwise nothing. -/
def optionalWord (text : String) : Phrase := whenNext (nextWord text) (word text)

/-- The phrase as long as the test holds for what comes next, at most `count` times. -/
def whileWithin (test : Reading Bool) (p : Phrase) : Nat → Phrase
  | 0 => empty
  | count + 1 => whenNext test (andThen p (whileWithin test p count))

/-- The phrase as long as the test holds for what comes next. A phrase that covers no tree is not
repeated more often than trees remain. -/
def whileNext (test : Reading Bool) (p : Phrase) : Phrase := do
  whileWithin test p (← get).length

/-- What is read as long as the test holds for what comes next, at most `count` times. -/
def allWithin (test : Reading Bool) (p : Reading α) : Nat → Reading (List α)
  | 0 => pure []
  | count + 1 => do
    if ← test then return (← p) :: (← allWithin test p count) else return []

/-- What is read as long as the test holds for what comes next. -/
def allNext (test : Reading Bool) (p : Reading α) : Reading (List α) := do
  allWithin test p (← get).length

/-- Items with the operator after each, as the items and whether the operator follows. It may be
missing after the last, and `ended` says where the items stop. -/
def itemsWithin (ended : Reading Bool) (separator : String) (p : Reading α) :
    Nat → Reading (List (α × Bool))
  | 0 => pure []
  | count + 1 => do
    if ← ended then pure []
    else
      let item ← p
      if ← nextOperator separator then
        let _ ← operator separator
        return (item, true) :: (← itemsWithin ended separator p count)
      else return [(item, false)]

/-- Items separated by the operator, up to where they end. -/
def items (ended : Reading Bool) (separator : String) (p : Reading α) :
    Reading (List (α × Bool)) := do
  itemsWithin ended separator p ((← get).length + 1)

/-- An item and the separator after it. -/
def itemTrees (separator : String) (item : Tokens × Bool) : Tokens :=
  if item.2 then item.1 ++ operatorTrees separator.toList else item.1

/-- Items separated by the operator, up to where they end, as one phrase. -/
def list (ended : Reading Bool) (separator : String) (p : Phrase) : Phrase := do
  return (← items ended separator p).flatMap (itemTrees separator)

/-- Items separated by commas that fill what remains. -/
def commas (p : Phrase) : Phrase := list nextEnd "," p

/-- The trees of a text that is one phrase throughout. -/
def whole? (p : Reading α) (ts : Tokens) : Option α :=
  match p.run ts with
  | some (found, []) => some found
  | _ => none

/-- Reads the content of a group in the delimiter, to its end. -/
def contentOf (d : Delimiter) (p : Reading α) : Reading α := do
  match ← get with
  | .group e content :: rest =>
    if d = e then
      match whole? p content with
      | some found => set rest; return found
      | none => failure
    else failure
  | _ => failure

/-- Reads a group in the delimiter whose content is one phrase throughout. -/
def inside (d : Delimiter) (p : Phrase) : Phrase := do return [.group d (← contentOf d p)]

/-! ## trees as they are written -/

/-- The trees that have been passed since `start` came next, as they are written. -/
def since (start : Tokens) : Phrase := do
  return start.take (start.length - (← get).length)

/-- The trees of what is read, as they are written. -/
def asWritten (p : Reading α) : Phrase := do
  let start ← get
  let _ ← p
  since start

/-- What is read, or nothing if it cannot be read from here. -/
def attempt (p : Reading α) : Reading (Option α) := do
  match p.run (← get) with
  | some (found, rest) => set rest; return some found
  | none => return none

end Phrase

end TypedConsole.Source
