/-!
# TypedConsole.Stack

Stacks: what was pushed last is popped first. A stack made of a list has the last element on top.
-/

namespace TypedConsole

/-- A stack, as the list of its elements from the top down. -/
structure Stack (α : Type) where
  fromTop : List α := []
deriving DecidableEq, Repr

namespace Stack

/-- The stack onto which the elements have been pushed in order. -/
def ofList (xs : List α) : Stack α := ⟨xs.reverse⟩

/-- Put an element on top. -/
def push (s : Stack α) (x : α) : Stack α := ⟨x :: s.fromTop⟩

/-- Take the top element. -/
def pop (s : Stack α) : Option α × Stack α := (s.fromTop.head?, ⟨s.fromTop.tail⟩)

/-- The top element. -/
def peek (s : Stack α) : Option α := s.fromTop.head?

/-- The number of elements. -/
def size (s : Stack α) : Nat := s.fromTop.length

/-- There are no elements. -/
def isEmpty (s : Stack α) : Bool := s.fromTop.isEmpty

theorem pop_push (s : Stack α) (x : α) : (s.push x).pop = (some x, s) := rfl

theorem ofList_concat (xs : List α) (x : α) : ofList (xs ++ [x]) = (ofList xs).push x := by
  simp [ofList, push]

end Stack

end TypedConsole
