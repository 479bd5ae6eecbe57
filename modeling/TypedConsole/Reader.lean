import TypedConsole.Text.Blank

/-!
# TypedConsole.Reader

Readers of literals. A reader looks at the remaining text and gives the value that it recognises
at the front, if any, and what it leaves. A reader that fails may have claimed characters too:
what it leaves then tells how far it came.
-/

namespace TypedConsole

/-- A reader of values at the front of a text. -/
abbrev Reader (α : Type) := List Char → Option α × List Char

namespace Reader

/-- Only ever claims characters from the front. -/
def Claims (r : Reader α) : Prop := ∀ s, (r s).2 <:+ s

/-- Claims a character whenever it succeeds on a text that starts with something other than a
blank. -/
def Progresses (r : Reader α) : Prop :=
  ∀ c s v t, Text.isBlank c = false → r (c :: s) = (some v, t) → t.length < (c :: s).length

/-- Succeeds with `v` if the text starts with `literal`, and otherwise fails where it stands. -/
def literal (text : List Char) (v : α) : Reader α := fun s =>
  if text.isPrefixOf s then (some v, s.drop text.length) else (none, s)

/-- Turns a value into another, or rejects it. -/
def mapOption (f : α → Option β) (r : Reader α) : Reader β := fun s =>
  let (v, t) := r s
  (v.bind f, t)

/-- Turns a value into another. -/
def map (f : α → β) (r : Reader α) : Reader β := r.mapOption (some ∘ f)

theorem claims_literal (text : List Char) (v : α) : (literal text v).Claims := by
  intro s
  simp only [literal]
  split
  · exact List.drop_suffix _ _
  · exact List.suffix_refl _

theorem progresses_literal {text : List Char} (h : text ≠ []) (v : α) :
    (literal text v).Progresses := by
  intro c s w t _ hr
  simp only [literal] at hr
  split at hr
  · simp only [Prod.mk.injEq] at hr
    have : 0 < text.length := List.length_pos_iff.2 h
    rw [← hr.2, List.length_drop, List.length_cons]
    omega
  · simp at hr

theorem Claims.mapOption {r : Reader α} (h : r.Claims) (f : α → Option β) :
    (r.mapOption f).Claims := h

theorem Claims.map {r : Reader α} (h : r.Claims) (f : α → β) : (r.map f).Claims := h

end Reader

end TypedConsole
