/-!
# TypedConsole.Number.Decimal

Decimal digits: the number that a run of digits stands for, and the digits of a number in other
bases at a fixed width.
-/

namespace TypedConsole.Decimal

/-- One of the ten ASCII digits. -/
def isDigit (c : Char) : Bool := '0' ≤ c && c ≤ '9'

/-- The value of an ASCII digit. -/
def digitValue (c : Char) : Nat := c.toNat - '0'.toNat

/-- The number that the digits stand for after the digits that gave `value`. -/
def valueFrom (value : Nat) (digits : List Char) : Nat :=
  digits.foldl (fun n c => 10 * n + digitValue c) value

/-- The number that the digits stand for. -/
def value (digits : List Char) : Nat := valueFrom 0 digits

/-- The lower-case hexadecimal digits of `n`, filled up with zeros to `width`. -/
def hexadecimal (width n : Nat) : String :=
  let digits := Nat.toDigits 16 n
  String.ofList (List.replicate (width - digits.length) '0' ++ digits)

end TypedConsole.Decimal
