/-!
# TypedConsole.Number.IntegerType

The twelve fixed-width integer types. Values are plain integers; a type only says which of them
it can hold. The two word-sized types are 64 bits wide.
-/

namespace TypedConsole

/-- A signed or unsigned integer type of a fixed width. -/
inductive IntegerType
  | i8 | i16 | i32 | i64 | i128 | isize
  | u8 | u16 | u32 | u64 | u128 | usize
deriving DecidableEq, Repr

namespace IntegerType

/-- The width in bits. -/
def bits : IntegerType → Nat
  | i8 | u8 => 8
  | i16 | u16 => 16
  | i32 | u32 => 32
  | i64 | u64 | isize | usize => 64
  | i128 | u128 => 128

/-- Whether the type holds negative numbers. -/
def signed : IntegerType → Bool
  | i8 | i16 | i32 | i64 | i128 | isize => true
  | u8 | u16 | u32 | u64 | u128 | usize => false

/-- The least number the type holds. -/
def least (t : IntegerType) : Int := if t.signed then -(Nat.pow 2 (t.bits - 1)) else 0

/-- The greatest number the type holds. -/
def greatest (t : IntegerType) : Int :=
  Nat.pow 2 (if t.signed then t.bits - 1 else t.bits) - 1

/-- The type can hold the number. -/
def holds (t : IntegerType) (n : Int) : Bool := t.least ≤ n && n ≤ t.greatest

/-- The name of the type. -/
def name : IntegerType → String
  | i8 => "i8" | i16 => "i16" | i32 => "i32" | i64 => "i64" | i128 => "i128" | isize => "isize"
  | u8 => "u8" | u16 => "u16" | u32 => "u32" | u64 => "u64" | u128 => "u128" | usize => "usize"

/-- All integer types. -/
def all : List IntegerType :=
  [i8, i16, i32, i64, i128, isize, u8, u16, u32, u64, u128, usize]

end IntegerType

end TypedConsole
