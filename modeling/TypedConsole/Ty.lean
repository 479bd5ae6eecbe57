import TypedConsole.Number.IntegerType
import TypedConsole.Number.BinaryFloat

/-!
# TypedConsole.Ty

The types of literals. Scalars, containers, pairs, tuples and optional values are built in; a
declared type is known by its path and its arguments, and a set of declarations says what it is.
-/

namespace TypedConsole

/-- The containers written as a sequence of elements. -/
inductive SequenceKind
  | vector
  | deque
  /-- The element written last is on top. -/
  | stack
  /-- A boxed slice. -/
  | slice
  /-- Exactly this many elements. -/
  | array (length : Nat)
deriving DecidableEq, Repr

/-- How a set or map finds its keys. The literals and their values do not depend on it. -/
inductive Indexing
  | hashed
  | ordered
deriving DecidableEq, Repr

/-- The type of a literal. -/
inductive Ty
  | string
  | char
  | bool
  | integer (type : IntegerType)
  | float (type : FloatType)
  | optional (inner : Ty)
  | sequence (kind : SequenceKind) (element : Ty)
  | set (indexing : Indexing) (element : Ty)
  | map (indexing : Indexing) (key value : Ty)
  /-- A single pair `key: value`. -/
  | pair (key value : Ty)
  | tuple (components : List Ty)
  | declared (path : String) (arguments : List Ty)
deriving Repr

namespace Ty

/-! ## equality -/

mutual
/-- Structural equality. -/
def beq : Ty → Ty → Bool
  | string, string => true
  | char, char => true
  | bool, bool => true
  | integer a, integer b => a == b
  | float a, float b => a == b
  | optional a, optional b => beq a b
  | sequence k a, sequence l b => k == l && beq a b
  | set i a, set j b => i == j && beq a b
  | map i k a, map j l b => i == j && beq k l && beq a b
  | pair k a, pair l b => beq k l && beq a b
  | tuple as, tuple bs => beqList as bs
  | declared p as, declared q bs => p == q && beqList as bs
  | _, _ => false

/-- Structural equality of lists of types. -/
def beqList : List Ty → List Ty → Bool
  | [], [] => true
  | a :: as, b :: bs => beq a b && beqList as bs
  | _, _ => false
end

mutual
theorem beq_eq_true_iff : (a b : Ty) → (beq a b = true ↔ a = b)
  | string, b | char, b | bool, b => by cases b <;> simp [beq]
  | integer _, b | float _, b => by cases b <;> simp [beq]
  | optional a, b => by cases b <;> simp [beq, beq_eq_true_iff a]
  | sequence _ a, b => by cases b <;> simp [beq, beq_eq_true_iff a]
  | set _ a, b => by cases b <;> simp [beq, beq_eq_true_iff a]
  | map _ k a, b => by
    cases b <;> simp [beq, beq_eq_true_iff a, beq_eq_true_iff k, and_assoc]
  | pair k a, b => by cases b <;> simp [beq, beq_eq_true_iff a, beq_eq_true_iff k]
  | tuple as, b => by cases b <;> simp [beq, beqList_eq_true_iff as]
  | declared _ as, b => by cases b <;> simp [beq, beqList_eq_true_iff as]

theorem beqList_eq_true_iff : (as bs : List Ty) → (beqList as bs = true ↔ as = bs)
  | [], bs => by cases bs <;> simp [beqList]
  | a :: as, bs => by cases bs <;> simp [beqList, beq_eq_true_iff a, beqList_eq_true_iff as]
end

instance : DecidableEq Ty := fun a b => decidable_of_iff (beq a b = true) (beq_eq_true_iff a b)

/-! ## containers -/

/-- The values of the type have a number of elements: containers, and optional containers. -/
def isContainer : Ty → Bool
  | sequence _ _ | set _ _ | map _ _ _ => true
  | optional t => t.isContainer
  | _ => false

end Ty

end TypedConsole
