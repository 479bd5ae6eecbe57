import TypedConsole.Reader

/-!
# TypedConsole.Reader.Group

Groups: elements between an opening and a closing character. Elements may have blanks around them,
and one separator may stand between two neighbours. A separator before the first element, after
the last one or next to another separator is a failure, and so is a missing closing character.
-/

namespace TypedConsole

/-- An opening and a closing character that belong together. -/
structure Grouping where
  opening : Char
  closing : Char
deriving DecidableEq, Repr

/-- One or more ways to write a group. The first is the one that help messages show. -/
structure Groupings where
  first : Grouping
  others : List Grouping := []
deriving DecidableEq, Repr

namespace Groupings

/-- All groupings, the first one first. -/
def toList (g : Groupings) : List Grouping := g.first :: g.others

/-- The grouping that starts with the character. -/
def openedBy (g : Groupings) (c : Char) : Option Grouping := g.toList.find? (·.opening = c)

/-- All opening and closing characters. -/
def characters (g : Groupings) : List Char := g.toList.flatMap fun p => [p.opening, p.closing]

/-- Square brackets or parentheses. -/
def brackets : Groupings := ⟨⟨'[', ']'⟩, [⟨'(', ')'⟩]⟩

/-- Braces. -/
def braces : Groupings := ⟨⟨'\x7b', '\x7d'⟩, []⟩

end Groupings

namespace Reader

/-- Read elements up to the closing character, `index` being the number of the next one and
`separated` telling whether a separator has just been read. An element has to claim something, or
the group fails. -/
def elements (closing separator : Char) (element : Nat → Reader α) (index : Nat)
    (separated : Bool) (s : List Char) : Option (List α) × List Char :=
  match _hs : Text.skipBlanks s with
  | [] => (none, [])
  | c :: r =>
    if c = closing then (if separated then (none, c :: r) else (some [], r))
    else if c = separator then (none, c :: r)
    else match element index (c :: r) with
      | (none, t) => (none, t)
      | (some a, t) =>
        if _ht : t.length < (c :: r).length then
          match _hu : Text.skipBlanks t with
          | [] => (none, [])
          | d :: u =>
            let (as, v) :=
              if d = separator then elements closing separator element (index + 1) true u
              else elements closing separator element (index + 1) false (d :: u)
            (as.map (a :: ·), v)
        else (none, t)
termination_by s.length
decreasing_by
  all_goals
    have h₁ := Text.length_skipBlanks_le s
    have h₂ := Text.length_skipBlanks_le t
    rw [_hs] at h₁
    rw [_hu] at h₂
    simp only [List.length_cons] at *
    omega

/-- Read a group enclosed by one of the pairs. The opening character at the front selects the first
pair that has it; without one nothing is claimed. `element i` reads the element number `i`, counted
from zero. -/
def groupIn (pairs : List Grouping) (separator : Char) (element : Nat → Reader α) :
    Reader (List α)
  | [] => (none, [])
  | c :: s =>
    match pairs.find? (·.opening = c) with
    | none => (none, c :: s)
    | some g => elements g.closing separator element 0 false s

/-- Read a group in one of the groupings. -/
def group (groupings : Groupings) (separator : Char) (element : Nat → Reader α) :
    Reader (List α) := groupIn groupings.toList separator element

/-- The character at the front selects the grouping. -/
theorem group_cons (groupings : Groupings) (separator : Char) (element : Nat → Reader α) (c : Char)
    (s : List Char) :
    group groupings separator element (c :: s) =
      match groupings.openedBy c with
      | none => (none, c :: s)
      | some g => elements g.closing separator element 0 false s := rfl

end Reader

end TypedConsole
