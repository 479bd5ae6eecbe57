import TypedConsole.Arguments
import TypedConsole.Cursor
import TypedConsole.Grammar
import TypedConsole.ParseError

/-!
# TypedConsole.Interpretation

Reading a command line by a grammar. The line is a sequence of items with blanks between them:
short options, which may be merged behind one dash, long options, the mark `--` that ends the
options, and values for the positionals in order. Each parameter is supplied at most once; those
left over take what they fall back to.
-/

namespace TypedConsole

/-- How far the reading of a line has come. -/
structure Progress where
  cursor : Cursor
  /-- What has been supplied, by the index of the parameter. -/
  supplied : List (Option TypedValue)
  /-- The number of positionals that have been filled. -/
  filled : Nat
  /-- Options are still recognised. -/
  optionsEnabled : Bool

namespace Cursor

/-- Claim what a reader claims. -/
def read (r : Reader α) (c : Cursor) : Option α × Cursor :=
  let (v, t) := r c.rest
  (v, c.leaving t)

end Cursor

namespace Grammar

/-! ## recognising options -/

/-- The two dashes in front of a long name. -/
def doubleDash : List Char := [dash, dash]

/-- A text starts with two dashes and a blank or the end behind them. -/
def marksEndOfOptions : List Char → Bool
  | a :: b :: r => a = dash && b = dash && Text.atBoundary r
  | _ => false

/-- A dash and this text are a short option: it starts with a letter or with a short name. Any
other text behind a dash is part of a value, such as the digits of a negative number. -/
def startsShortOption (g : Grammar) : List Char → Bool
  | [] => false
  | c :: _ => !Text.isBlank c && (Text.isAlphabetic c || (g.findShort c).isSome)

/-- A text is at the end of a long name: a blank, an equals sign or nothing comes next. -/
def atNameEnd : List Char → Bool
  | [] => true
  | c :: _ => Text.isBlank c || c = assignment

/-- The text starts with the long name, which ends there. -/
def startsWithLong (long : String) (s : List Char) : Bool :=
  long.toList.isPrefixOf s && atNameEnd (s.drop long.length)

/-- The longer one of two switches by their long names, the second if they are equally long. -/
def longer (best : Option (Descriptor × String)) (d : Descriptor × String) :
    Option (Descriptor × String) :=
  match best with
  | none => some d
  | some b => if b.2.length ≤ d.2.length then some d else some b

/-- The switch or flag whose long name starts the text. -/
def matchLong (g : Grammar) (s : List Char) : Option (Descriptor × String) :=
  let named := g.switches.filterMap fun d => d.long.map fun long => (d, long)
  (named.filter fun d => startsWithLong d.2 s).foldl longer none

/-- The name at the front of a text, up to a blank or an equals sign. -/
def nameAt (s : List Char) : List Char :=
  s.takeWhile fun c => !(Text.isBlank c || c = assignment)

/-! ## reading values -/

/-- A parameter that has been supplied may not be supplied again. -/
def checkFresh (p : Progress) (d : Descriptor) (offset : Nat) : Except ParseError Unit :=
  if (p.supplied[d.index]?.join).isSome then .error (.duplicateParameter d.label offset) else .ok ()

/-- Note the value of a parameter. -/
def supply (p : Progress) (d : Descriptor) (v : TypedValue) : Progress :=
  { p with supplied := p.supplied.set d.index (some v) }

/-- The number of elements of a value, if the parameter bounds it. -/
def countOf (d : Descriptor) (v : Value) : Option Nat :=
  if d.counted then some v.elementCount else none

/-- Read the value of a parameter, up to a blank or the end of the line. -/
def readValue (special : SpecialSet) (d : Descriptor) (p : Progress) :
    Except ParseError Progress :=
  let (value, cursor) := p.cursor.read (d.parser.read special)
  match value with
  | none => .error (.invalidValue d.label cursor.offset)
  | some v =>
    if !cursor.atBoundary then .error (.invalidValue d.label cursor.offset)
    else
      let p' := supply { p with cursor } d ⟨d.type, v⟩
      match countOf d v with
      | none => .ok p'
      | some count =>
        if d.arity.permits count then .ok p'
        else .error (.elementCount d.label count p.cursor.offset)

/-- Skip the blanks between an option and its value. There must be a value. -/
def expectValue (option : String) (p : Progress) : Except ParseError Progress :=
  let cursor := p.cursor.skipBlanks
  if cursor.atEnd then .error (.malformedOption option .needsValue cursor.offset)
  else .ok { p with cursor }

/-- The flag is set by its presence. -/
def setFlag (p : Progress) (d : Descriptor) : Progress := supply p d ⟨.bool, .bool true⟩

/-! ## items -/

/-- What follows the long name of an option: nothing for a flag, and for a switch a value behind
an equals sign or blanks. -/
def longValue (special : SpecialSet) (d : Descriptor) (p : Progress) :
    Except ParseError Progress :=
  let attached := p.cursor.rest.head? = some assignment
  if d.kind = .flag then
    if attached then .error (.malformedOption d.label .takesNoValue p.cursor.offset)
    else .ok (setFlag p d)
  else if attached then
    let cursor := p.cursor.advance 1
    if cursor.atBoundary then .error (.malformedOption d.label .needsValue cursor.offset)
    else readValue special d { p with cursor }
  else do
    let p ← expectValue d.label p
    readValue special d p

/-- A long option, the cursor being at its dashes. -/
def longOption (g : Grammar) (special : SpecialSet) (p : Progress) :
    Except ParseError Progress :=
  let start := p.cursor.offset
  let named := p.cursor.advance doubleDash.length
  match g.matchLong named.rest with
  | none =>
    .error (.unknownOption (String.ofList (doubleDash ++ nameAt named.rest)) start)
  | some (d, long) => do
    checkFresh p d start
    longValue special d { p with cursor := named.advance long.length }

/-- The short options merged behind a dash, the cursor being at the next short name. `start` is
the offset of the dash. -/
def shortOptions (g : Grammar) (special : SpecialSet) (start : Nat) (p : Progress) :
    Except ParseError Progress :=
  match _h : p.cursor.rest with
  | [] => .ok p
  | c :: _ =>
    let offset := p.cursor.offset
    let option := String.ofList [dash, c]
    match g.findShort c with
    | none => .error (.unknownOption option offset)
    | some d =>
      match checkFresh p d (if offset = start + 1 then start else offset) with
      | .error e => .error e
      | .ok () =>
        let cursor := p.cursor.advance 1
        let p' := { p with cursor }
        if d.kind = .flag then
          if cursor.atBoundary then .ok (setFlag p' d)
          else shortOptions g special start (setFlag p' d)
        else if cursor.atBoundary then do
          let p' ← expectValue option p'
          readValue special d p'
        else readValue special d p'
termination_by p.cursor.remaining
decreasing_by
  have h := congrArg List.length _h
  simp only [Cursor.length_rest, List.length_cons] at h
  simp only [setFlag, supply, Cursor.remaining_advance]
  omega

/-- The value of the next positional. -/
def positional (g : Grammar) (special : SpecialSet) (p : Progress) :
    Except ParseError Progress :=
  match g.positionals[p.filled]? with
  | none => .error (.unexpectedArgument p.cursor.offset)
  | some d => readValue special d { p with filled := p.filled + 1 }

/-- One item, the cursor being at its first character. -/
def item (g : Grammar) (special : SpecialSet) (p : Progress) : Except ParseError Progress :=
  match p.cursor.rest with
  | c :: r =>
    if p.optionsEnabled && c = dash then
      if marksEndOfOptions (c :: r) then
        .ok { p with cursor := p.cursor.advance doubleDash.length, optionsEnabled := false }
      else if r.head? = some dash then g.longOption special p
      else if g.startsShortOption r then
        g.shortOptions special p.cursor.offset { p with cursor := p.cursor.advance 1 }
      else g.positional special p
    else g.positional special p
  | [] => g.positional special p

/-- All items up to the end of the line. An item has to claim something, or the reading ends. -/
def items (g : Grammar) (special : SpecialSet) (p : Progress) : Except ParseError Progress :=
  let p := { p with cursor := p.cursor.skipBlanks }
  if p.cursor.atEnd then .ok p
  else
    match g.item special p with
    | .error e => .error e
    | .ok p' =>
      if _h : p'.cursor.skipBlanks.remaining < p.cursor.remaining then g.items special p'
      else .ok p'
termination_by p.cursor.skipBlanks.remaining

/-! ## parameters that were not supplied -/

/-- What a parameter takes that was not supplied. -/
def fallbackValue (special : SpecialSet) (d : Descriptor) : Fallback → Value
  | .zero => d.zero
  | .value v => v
  | .text literal =>
    ((d.parser.read special (Text.skipBlanks literal.toList)).1).getD d.zero

/-- The value of each parameter: the one supplied, or what it falls back to. The first one that
has neither is missing. -/
def settle (special : SpecialSet) (offset : Nat) :
    List Descriptor → List (Option TypedValue) → Except ParseError (List TypedValue)
  | _ :: ds, some v :: vs => do
    let rest ← settle special offset ds vs
    pure (v :: rest)
  | d :: ds, none :: vs =>
    match d.required, d.fallback with
    | false, some f => do
      let rest ← settle special offset ds vs
      pure (⟨d.type, fallbackValue special d f⟩ :: rest)
    | _, _ => .error (.missingRequired d.label offset)
  | _, _ => .ok []

/-- Nothing supplied yet, at the start of a line. -/
def begin (g : Grammar) (text : List Char) : Progress :=
  ⟨.start text, g.parameters.map fun _ => none, 0, true⟩

/-- Read a line of arguments under a set of special characters. -/
def parse (g : Grammar) (special : SpecialSet) (text : List Char) :
    Except ParseError Arguments := do
  let p ← g.items special (g.begin text)
  let values ← settle special p.cursor.offset g.parameters p.supplied
  pure ⟨values.map some⟩

end Grammar

end TypedConsole
