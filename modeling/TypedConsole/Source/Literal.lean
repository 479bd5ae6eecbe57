import TypedConsole.Text.Identifier

/-!
# TypedConsole.Source.Literal

Literals at the front of source text: quoted and raw strings of characters, of bytes and of
foreign text, single characters and bytes, and numbers. A recogniser gives what follows the
literal. The value of a string literal is read off by the same walk that finds its end.
-/

namespace TypedConsole.Source

/-- Gives what follows at the front of a text, if what it recognises stands there. -/
abbrev Recogniser := List Char → Option (List Char)

/-! ## names -/

/-- The characters of a name at the front of a text, and what follows. -/
def splitName : List Char → Option (List Char × List Char)
  | c :: r =>
    if Text.startsIdentifier c then
      some (c :: r.takeWhile Text.continuesIdentifier, r.dropWhile Text.continuesIdentifier)
    else none
  | [] => none

/-- What follows the suffix of a literal. A literal may have none. -/
def afterSuffix (s : List Char) : List Char :=
  match splitName s with
  | some (_, r) => r
  | none => s

/-! ## escapes -/

/-- The value of a hexadecimal digit. -/
def hexValue? (c : Char) : Option Nat :=
  if c.isDigit then some (c.toNat - '0'.toNat)
  else if 'a' ≤ c && c ≤ 'f' then some (c.toNat - 'a'.toNat + 10)
  else if 'A' ≤ c && c ≤ 'F' then some (c.toNat - 'A'.toNat + 10)
  else none

/-- The code point between braces: one to six digits, with underscores after the first. -/
def bracedCode (value digits : Nat) : List Char → Option (Char × List Char)
  | [] => none
  | c :: r =>
    if c == '_' && 0 < digits then bracedCode value digits r
    else if c == '\x7d' && 0 < digits then
      if value.isValidChar then some (Char.ofNat value, r) else none
    else
      match hexValue? c with
      | some d => if digits == 6 then none else bracedCode (16 * value + d) (digits + 1) r
      | none => none

/-- What quotes stand for: characters, bytes, or foreign text that a zero byte ends. -/
inductive QuotedKind
  | characters
  | bytes
  | foreign
deriving DecidableEq, Repr

namespace QuotedKind

/-- The character may stand for itself between quotes of this kind. -/
def permits (kind : QuotedKind) (c : Char) : Bool :=
  match kind with
  | characters => true
  | bytes => c.toNat < 128
  | foreign => c.toNat != 0

/-- The code may be written as an escape of two digits. -/
def permitsCode (kind : QuotedKind) (code : Nat) : Bool :=
  match kind with
  | characters => code < 128
  | bytes => true
  | foreign => code != 0

end QuotedKind

/-- The character that an escape stands for, and what follows, after the backslash. -/
def readEscape (kind : QuotedKind) : List Char → Option (Char × List Char)
  | 'n' :: r => some ('\n', r)
  | 'r' :: r => some ('\r', r)
  | 't' :: r => some ('\t', r)
  | '\\' :: r => some ('\\', r)
  | '\'' :: r => some ('\'', r)
  | '"' :: r => some ('"', r)
  | '0' :: r => if kind == .foreign then none else some (Char.ofNat 0, r)
  | 'x' :: a :: b :: r => do
    let code := 16 * (← hexValue? a) + (← hexValue? b)
    if kind.permitsCode code then some (Char.ofNat code, r) else none
  | 'u' :: '\x7b' :: r => do
    if kind == .bytes then none
    else
      let (c, r) ← bracedCode 0 0 r
      if kind.permits c then some (c, r) else none
  | _ => none

/-! ## quoted strings -/

/-- What follows the spaces, tabs and line breaks after a backslash at the end of a line. Other
blanks belong to what follows. -/
def afterContinuation : Recogniser
  | [] => none
  | '\r' :: '\n' :: r => afterContinuation r
  | '\r' :: _ => none
  | c :: r => if c == ' ' || c == '\t' || c == '\n' then afterContinuation r else some (c :: r)

/-- The value of a string whose opening quote has been read, and what follows its closing quote.
A line break is written as itself, and a return only before a line feed. -/
def readQuoted (kind : QuotedKind) : Nat → List Char → Option (List Char × List Char)
  | 0, _ => none
  | _ + 1, [] => none
  | fuel + 1, c :: r =>
    if c == '"' then some ([], r)
    else if c == '\r' then
      match r with
      | '\n' :: r => (readQuoted kind fuel r).map fun (v, t) => ('\n' :: v, t)
      | _ => none
    else if c == '\\' then
      match r with
      | '\n' :: _ | '\r' :: _ => do
        let r ← afterContinuation r
        readQuoted kind fuel r
      | _ => do
        let (d, r) ← readEscape kind r
        let (v, t) ← readQuoted kind fuel r
        some (d :: v, t)
    else if kind.permits c then (readQuoted kind fuel r).map fun (v, t) => (c :: v, t)
    else none

/-- The value of a string that `hashes` end, and what follows. -/
def readRawBody (kind : QuotedKind) (hashes : List Char) :
    List Char → Option (List Char × List Char)
  | [] => none
  | '\r' :: '\n' :: r => (readRawBody kind hashes r).map fun (v, t) => ('\r' :: '\n' :: v, t)
  | '\r' :: _ => none
  | c :: r =>
    if c == '"' && hashes.isPrefixOf r then some ([], r.drop hashes.length)
    else if kind.permits c then (readRawBody kind hashes r).map fun (v, t) => (c :: v, t)
    else none

/-- The value of a string between a quote with hashes before it and one with as many after it. -/
def readRaw (kind : QuotedKind) (s : List Char) : Option (List Char × List Char) :=
  let hashes := s.takeWhile (· == '#')
  match s.drop hashes.length with
  | '"' :: r => if hashes.length ≤ 255 then readRawBody kind hashes r else none
  | _ => none

/-- The kind and value of a string literal at the front of a text, and what follows it and its
suffix. -/
def readString (s : List Char) : Option (QuotedKind × List Char × List Char) :=
  let found := match s with
    | '"' :: r => (readQuoted .characters s.length r).map (QuotedKind.characters, ·)
    | 'r' :: r => (readRaw .characters r).map (QuotedKind.characters, ·)
    | 'b' :: '"' :: r => (readQuoted .bytes s.length r).map (QuotedKind.bytes, ·)
    | 'b' :: 'r' :: r => (readRaw .bytes r).map (QuotedKind.bytes, ·)
    | 'c' :: '"' :: r => (readQuoted .foreign s.length r).map (QuotedKind.foreign, ·)
    | 'c' :: 'r' :: r => (readRaw .foreign r).map (QuotedKind.foreign, ·)
    | _ => none
  found.map fun (kind, value, r) => (kind, value, afterSuffix r)

/-- The value of a text that is one literal of a string of characters. -/
def stringValue? (literal : String) : Option String :=
  match readString literal.toList with
  | some (.characters, value, []) => some (String.ofList value)
  | _ => none

/-! ## single characters -/

/-- What follows the quote that must come next, and the suffix after it. -/
def afterQuote : Recogniser
  | '\'' :: r => some (afterSuffix r)
  | _ => none

/-- Recognises a character or a byte in single quotes. -/
def characterEnd : Recogniser
  | '\'' :: '\\' :: r => (readEscape .characters r).bind fun (_, t) => afterQuote t
  | '\'' :: _ :: r => afterQuote r
  | 'b' :: '\'' :: '\\' :: r => (readEscape .bytes r).bind fun (_, t) => afterQuote t
  | 'b' :: '\'' :: c :: r => if c.toNat < 128 then afterQuote r else none
  | _ => none

/-! ## numbers -/

/-- What follows a number and its suffix, unless the word goes on. -/
def afterNumber (s : List Char) : Option (List Char) :=
  match afterSuffix s with
  | [] => some []
  | c :: r => if Text.continuesIdentifier c then none else some (c :: r)

/-- A decimal digit or an underscore. -/
def isDigitOrUnderscore (c : Char) : Bool := c.isDigit || c == '_'

/-- The exponent after its mark: a sign and digits, at least one. Nothing if there is no digit. -/
def afterExponent (s : List Char) : Option (List Char) :=
  let unsigned := s.dropWhile (· == '_')
  let signed := match unsigned with
    | '+' :: r | '-' :: r => r
    | r => r
  let digits := signed.takeWhile isDigitOrUnderscore
  if digits.any Char.isDigit then some (signed.drop digits.length) else none

/-- Recognises a number with a point, an exponent or both. -/
def floatEnd (s : List Char) : Option (List Char) :=
  match s with
  | [] => none
  | c :: _ =>
    if !c.isDigit then none
    else
      match s.dropWhile isDigitOrUnderscore with
      | '.' :: r =>
        if r.head?.any fun c => c == '.' || Text.startsIdentifier c then none
        else
          let fraction := r.dropWhile isDigitOrUnderscore
          match fraction with
          | c :: t =>
            if c == 'e' || c == 'E' then afterNumber ((afterExponent t).getD fraction)
            else afterNumber fraction
          | [] => some []
      | c :: r =>
        if c == 'e' || c == 'E' then (afterExponent r).bind afterNumber else none
      | [] => none

/-- The digits of a number in a base: what follows them, if there is one. A decimal digit beyond
the base is refused; a letter beyond it ends the digits. -/
def afterDigits (base : Nat) (started : Bool) : List Char → Option (List Char)
  | [] => if started then some [] else none
  | c :: r =>
    if c == '_' then
      if !started && base == 10 then none else afterDigits base started r
    else
      match hexValue? c with
      | some d =>
        if d < base then afterDigits base true r
        else if c.isDigit || !started then none
        else some (c :: r)
      | none => if started then some (c :: r) else none

/-- Recognises a whole number. -/
def integerEnd (s : List Char) : Option (List Char) :=
  let digits := match s with
    | '0' :: 'x' :: r => afterDigits 16 false r
    | '0' :: 'o' :: r => afterDigits 8 false r
    | '0' :: 'b' :: r => afterDigits 2 false r
    | _ => afterDigits 10 false s
  digits.bind afterNumber

/-- The literal of a number has a point or an exponent. -/
def hasFraction (literal : String) : Bool :=
  match literal.toList with
  | '-' :: _ | [] => false
  | c :: r =>
    c.isDigit &&
      match r.dropWhile isDigitOrUnderscore with
      | '.' :: _ => true
      | e :: t =>
        (e == 'e' || e == 'E') &&
          (t.dropWhile (· == '_')).head?.any fun d => d.isDigit || d == '+' || d == '-'
      | [] => false

/-- The value of digits in a base between which underscores may stand. There is a digit. -/
def digitsValue? (base : Nat) (s : List Char) : Option Nat := do
  let digits ← (s.filter (· != '_')).mapM hexValue?
  if digits.isEmpty || digits.any (base ≤ ·) then none
  else some (digits.foldl (base * · + ·) 0)

/-- The position that the literal of a whole number without suffix stands for. Positions have
32 bits. -/
def position? (literal : String) : Option Nat :=
  let value := match literal.toList with
    | '0' :: 'x' :: r => digitsValue? 16 r
    | '0' :: 'o' :: r => digitsValue? 8 r
    | '0' :: 'b' :: r => digitsValue? 2 r
    | s => digitsValue? 10 s
  value.filter (· < Nat.pow 2 32)

/-! ## all literals -/

/-- Recognises a literal. -/
def literalEnd (s : List Char) : Option (List Char) :=
  (readString s).map (·.2.2) <|> characterEnd s <|> floatEnd s <|> integerEnd s

end TypedConsole.Source
