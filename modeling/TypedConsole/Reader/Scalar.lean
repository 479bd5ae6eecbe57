import TypedConsole.Reader
import TypedConsole.SpecialSet
import TypedConsole.Text.Lowercase
import TypedConsole.Number.Decimal
import TypedConsole.Number.IntegerType
import TypedConsole.Number.BinaryFloat

/-!
# TypedConsole.Reader.Scalar

Readers of scalar literals: strings, single characters, truth values, integers and floating point
numbers. Apart from quoted strings, a scalar is a token: it ends at a blank, at a special
character or with the text.
-/

namespace TypedConsole.Reader

/-- The characters up to a blank or a special character, and what follows them. -/
def token (special : SpecialSet) (s : List Char) : List Char × List Char :=
  (s.takeWhile (!special.terminates ·), s.dropWhile (!special.terminates ·))

/-! ## strings and characters -/

/-- What precedes the closing quote, where a backslash before a quote stands for that quote. Fails
at the end of the text if no quote closes it. -/
def quotedText (quote : Char) : Reader (List Char)
  | [] => (none, [])
  | '\\' :: c :: s =>
    if c = quote then
      let (v, t) := quotedText quote s
      (v.map (quote :: ·), t)
    else
      let (v, t) := quotedText quote (c :: s)
      (v.map ('\\' :: ·), t)
  | c :: s =>
    if c = quote then (some [], s)
    else
      let (v, t) := quotedText quote s
      (v.map (c :: ·), t)

/-- A string begins and ends with a double or a single quote, or is a token. A token is not
empty. -/
def string (special : SpecialSet) : Reader String
  | [] => (none, [])
  | c :: s =>
    if c = '"' || c = '\'' then
      let (v, t) := quotedText c s
      (v.map String.ofList, t)
    else
      let (word, t) := token special (c :: s)
      (if word.isEmpty then none else some (String.ofList word), t)

/-- A character other than a blank, with the end of a token behind it. -/
def char (special : SpecialSet) : Reader Char
  | [] => (none, [])
  | c :: s =>
    if Text.isBlank c then (none, c :: s)
    else (if special.atTokenEnd s then some c else none, s)

/-! ## truth values -/

/-- The truth value that a lower-case word stands for. -/
def truthValue (word : String) : Option Bool :=
  if word = "true" || word = "t" || word = "1" then some true
  else if word = "false" || word = "f" || word = "0" then some false
  else none

/-- One of the words for true and false, in any letter case. -/
def bool (special : SpecialSet) : Reader Bool := fun s =>
  let (word, t) := token special s
  (truthValue (Text.lowercase (String.ofList word)), t)

/-! ## numbers -/

/-- The sign at the front, if there is one. -/
def sign : List Char → Option Char × List Char
  | c :: s => if c = '+' || c = '-' then (some c, s) else (none, c :: s)
  | [] => (none, [])

/-- The number with a sign and these digits, if the type holds it. Unsigned types take no minus,
not even before a zero. -/
def integerValue (type : IntegerType) (sign : Option Char) (digits : List Char) : Option Int :=
  let n : Int := Decimal.value digits
  if sign = some '-' then
    if type.signed && type.holds (-n) then some (-n) else none
  else if type.holds n then some n else none

/-- A sign or none, at least one digit, and the end of a token. -/
def integer (type : IntegerType) (special : SpecialSet) : Reader Int := fun s =>
  let (sign, r) := sign s
  let digits := r.takeWhile Decimal.isDigit
  let t := r.dropWhile Decimal.isDigit
  if digits.isEmpty || !special.atTokenEnd t then (none, t)
  else (integerValue type sign digits, t)

/-- Digits, a point and digits: what precedes the point, what follows it, and the rest. The point
and either run of digits may be missing. -/
def decimal (s : List Char) : List Char × List Char × List Char :=
  let whole := s.takeWhile Decimal.isDigit
  match s.dropWhile Decimal.isDigit with
  | '.' :: r => (whole, r.takeWhile Decimal.isDigit, r.dropWhile Decimal.isDigit)
  | r => (whole, [], r)

/-- The number of the format nearest to the decimal, if it is finite. -/
def floatValue (type : FloatType) (sign : Option Char) (whole fraction : List Char) :
    Option BinaryFloat :=
  type.round (sign = some '-') (Decimal.value (whole ++ fraction)) (Nat.pow 10 fraction.length)

/-- A sign or none, a decimal with at least one digit, and the end of a token. -/
def float (type : FloatType) (special : SpecialSet) : Reader BinaryFloat := fun s =>
  let (sign, r) := sign s
  let (whole, fraction, t) := decimal r
  if (whole ++ fraction).isEmpty || !special.atTokenEnd t then (none, t)
  else (floatValue type sign whole fraction, t)

end TypedConsole.Reader
