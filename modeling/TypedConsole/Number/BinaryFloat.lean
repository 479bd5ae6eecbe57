/-!
# TypedConsole.Number.BinaryFloat

Binary floating point numbers as exact data: a sign, a significand and an exponent, standing for
`±significand · 2 ^ exponent`. A rational number is rounded to a format once, to the nearest
number of the format and, halfway between two, to the one with the even significand. A rational
that rounds beyond the greatest finite number has no value.
-/

namespace TypedConsole

/-! ## formats -/

/-- The single and the double width format. -/
inductive FloatType
  | f32 | f64
deriving DecidableEq, Repr

namespace FloatType

/-- The number of binary digits of a significand. -/
def precision : FloatType → Nat
  | f32 => 24
  | f64 => 53

/-- The width of the interchange format in bits. -/
def width : FloatType → Nat
  | f32 => 32
  | f64 => 64

/-- The exponent of the smallest numbers: their significands may have fewer digits. -/
def minExponent : FloatType → Int
  | f32 => -149
  | f64 => -1074

/-- The exponent of the greatest finite numbers. -/
def maxExponent : FloatType → Int
  | f32 => 104
  | f64 => 971

/-- The name of the format's type. -/
def name : FloatType → String
  | f32 => "f32"
  | f64 => "f64"

end FloatType

/-! ## numbers -/

/-- The number `significand · 2 ^ exponent`, negated if `negative`. Zero has both signs. -/
structure BinaryFloat where
  negative : Bool
  significand : Nat
  exponent : Int
deriving DecidableEq, Repr

/-! ## rounding -/

/-- The integer nearest to `num / den`, of two equally near ones the even one. -/
def roundHalfEven (num den : Nat) : Nat :=
  let q := num / den
  let r := num % den
  if den < 2 * r || (2 * r == den && q % 2 == 1) then q + 1 else q

/-- Numerator and denominator of `num / den` divided by `2 ^ e`. -/
def scaleDown (num den : Nat) (e : Int) : Nat × Nat :=
  if 0 ≤ e then (num, den * Nat.pow 2 e.toNat) else (num * Nat.pow 2 (-e).toNat, den)

/-- The binary order of magnitude of a positive rational: the `l` with
`2 ^ l ≤ num / den < 2 ^ (l + 1)`. The order of the two logarithms' difference is at most one too
great. -/
def magnitude (num den : Nat) : Int :=
  let l : Int := (Nat.log2 num : Int) - Nat.log2 den
  let (n, d) := scaleDown num den l
  if d ≤ n then l else l - 1

namespace FloatType

/-- The exponent at which a rational is rounded: its significand gets `precision` digits unless
that takes an exponent below the format's least. -/
def roundingExponent (f : FloatType) (num den : Nat) : Int :=
  if num = 0 then f.minExponent
  else max f.minExponent (magnitude num den - (f.precision - 1))

/-- The significand and exponent nearest to `num / den`, if they are finite. A significand that
rounds up to one digit too many is halved. -/
def roundMagnitude (f : FloatType) (num den : Nat) : Option (Nat × Int) :=
  let e := f.roundingExponent num den
  let (n, d) := scaleDown num den e
  let q := roundHalfEven n d
  let (q, e) := if q = Nat.pow 2 f.precision then (Nat.pow 2 (f.precision - 1), e + 1) else (q, e)
  if e ≤ f.maxExponent then some (q, e) else none

/-- The number of the format nearest to `num / den`, with the given sign. -/
def round (f : FloatType) (negative : Bool) (num den : Nat) : Option BinaryFloat :=
  (f.roundMagnitude num den).map fun (q, e) => ⟨negative, q, e⟩

/-- Positive zero. -/
def zero (f : FloatType) : BinaryFloat := ⟨false, 0, f.minExponent⟩

/-- One. -/
def one (f : FloatType) : BinaryFloat := ⟨false, Nat.pow 2 (f.precision - 1), 1 - f.precision⟩

/-- The interchange bits: sign, biased exponent, and the significand without its leading digit.
Numbers of the least exponent with a shorter significand have the biased exponent zero. -/
def toBits (f : FloatType) (x : BinaryFloat) : Nat :=
  let leading := Nat.pow 2 (f.precision - 1)
  let biased := if x.significand < leading then 0 else (x.exponent - f.minExponent + 1).toNat
  let sign := if x.negative then Nat.pow 2 (f.width - 1) else 0
  sign + biased * leading + x.significand % leading

end FloatType

/-! ## comparison and whole parts -/

namespace BinaryFloat

/-- The number as a multiple of `2 ^ e`, for `e` no greater than its exponent. -/
def multipleOf (x : BinaryFloat) (e : Int) : Int :=
  let m : Int := x.significand * Nat.pow 2 (x.exponent - e).toNat
  if x.negative then -m else m

/-- The order of the numbers' values: the two zeros are equal. -/
def le (x y : BinaryFloat) : Bool :=
  let e := min x.exponent y.exponent
  x.multipleOf e ≤ y.multipleOf e

/-- The product rounded to the format. -/
def mul? (f : FloatType) (x y : BinaryFloat) : Option BinaryFloat :=
  let m := x.significand * y.significand
  let e := x.exponent + y.exponent
  if 0 ≤ e then f.round (x.negative != y.negative) (m * Nat.pow 2 e.toNat) 1
  else f.round (x.negative != y.negative) m (Nat.pow 2 (-e).toNat)

/-- The magnitude without its fraction. -/
def truncate (x : BinaryFloat) : Nat :=
  if 0 ≤ x.exponent then x.significand * Nat.pow 2 x.exponent.toNat
  else x.significand / Nat.pow 2 (-x.exponent).toNat

end BinaryFloat

end TypedConsole
