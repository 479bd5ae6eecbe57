import Mathlib.Algebra.BigOperators.Group.List.Basic
import Mathlib.Algebra.GroupWithZero.Nat
import Mathlib.Data.List.DropRight
import TypedConsole.Text.Identifier
import TypedConsole.Ty.Name

/-!
# TypedConsole.Proofs.ShortNames

Short names, said on the structure of a name and not on its characters.

A `TypeExpression` is a path with arguments or none, a tuple, a slice or an array.  Its text is
`render`; `short` cuts every path in it down to its last segment and changes nothing else.  The
segments of a path are identifiers.

Shortening takes letters, numbers, low lines and colons for a path, and identifiers may hold more,
such as the middle dot in `col·lecció`.  There the path is at its end for shortening, and what was
read of the segment is given out.  So a path is left with its name behind the remnants of its
qualifiers (`Path.remainder`), and the short name is the text of the shortened expression exactly if
there are no remnants (`shorten_render`).

A character that no path goes on with parts a text into two that are shortened on their own
(`shortenFrom_append_cons`).  The marks of a name are such characters, and so the paths between them
are all there is to shorten.
-/

namespace TypedConsole

open Ty (isPathChar lastSegment lastSegmentFrom shorten shortenFrom)

/-! ## paths -/

/-- The characters are those of an identifier. -/
def isIdentifier : List Char → Bool
  | [] => false
  | c :: r => Text.startsIdentifier c && r.all Text.continuesIdentifier

/-- A segment of a path. -/
structure Segment where
  text : String
  legal : isIdentifier text.toList = true

/-- A path: a name, and what it is qualified by. -/
structure Path where
  qualifiers : List Segment := []
  name : Segment

namespace Path

/-- The segments of the path with two colons between them. -/
def text (p : Path) : String := "::".intercalate ((p.qualifiers ++ [p.name]).map (·.text))

/-- The last segment of the path. -/
def short (p : Path) : Path := ⟨[], p.name⟩

/-- The characters of the qualifiers are all taken for those of a path. -/
def IsPlain (p : Path) : Prop := ∀ q ∈ p.qualifiers, ∀ c ∈ q.text.toList, isPathChar c = true

end Path

/-! ## expressions -/

/-- The structure of the name of a type. -/
inductive TypeExpression
  | path (path : Path) (arguments : List TypeExpression)
  | tuple (components : List TypeExpression)
  | slice (element : TypeExpression)
  | array (element : TypeExpression) (length : Nat)

namespace TypeExpression

mutual
/-- The text of an expression, `f` giving the texts of its paths. -/
def renderWith (f : Path → String) : TypeExpression → String
  | path p [] => f p
  | path p (a :: as) => s!"{f p}<{commaSeparated (renderWith f a :: renderAllWith f as)}>"
  | tuple es => tupleName (renderAllWith f es)
  | slice e => s!"[{renderWith f e}]"
  | array e n => s!"[{renderWith f e}; {n}]"

/-- The texts of expressions. -/
def renderAllWith (f : Path → String) : List TypeExpression → List String
  | [] => []
  | e :: es => renderWith f e :: renderAllWith f es
end

/-- The text of an expression. -/
def render (e : TypeExpression) : String := e.renderWith Path.text

mutual
/-- The expression with the last segment of every path in place of the path. -/
def short : TypeExpression → TypeExpression
  | path p as => path p.short (shortAll as)
  | tuple es => tuple (shortAll es)
  | slice e => slice (short e)
  | array e n => array (short e) n

/-- The expressions with the last segments of their paths. -/
def shortAll : List TypeExpression → List TypeExpression
  | [] => []
  | e :: es => short e :: shortAll es
end

mutual
/-- The paths in an expression. -/
def paths : TypeExpression → List Path
  | path p as => p :: allPaths as
  | tuple es => allPaths es
  | slice e => paths e
  | array e _ => paths e

/-- The paths in expressions. -/
def allPaths : List TypeExpression → List Path
  | [] => []
  | e :: es => paths e ++ allPaths es
end

end TypeExpression

/-! ## the last segment -/

theorem lastSegmentFrom_cons {c : Char} (hc : c ≠ ':') (found r : List Char) :
    lastSegmentFrom found (c :: r) = lastSegmentFrom found r := by
  rw [lastSegmentFrom]
  exact fun _ h => absurd h hc

/-- There is no mark in a text without colons. -/
theorem lastSegmentFrom_append {w : List Char} (hw : ':' ∉ w) (found r : List Char) :
    lastSegmentFrom found (w ++ r) = lastSegmentFrom found r := by
  induction w with
  | nil => rfl
  | cons c w ih =>
      simp only [List.mem_cons, not_or] at hw
      rw [List.cons_append, lastSegmentFrom_cons (Ne.symm hw.1), ih hw.2]

theorem lastSegment_eq_self {w : List Char} (hw : ':' ∉ w) : lastSegment w = w := by
  have h := lastSegmentFrom_append hw w []
  rw [List.append_nil] at h
  rw [lastSegment, h, lastSegmentFrom]

/-- Behind a mark the search starts anew. -/
theorem lastSegment_append_mark {w r : List Char} (hw : ':' ∉ w) (hr : r.head? ≠ some ':') :
    lastSegment (w ++ ':' :: ':' :: r) = lastSegment r := by
  rw [lastSegment, lastSegmentFrom_append hw, lastSegmentFrom]
  cases r with
  | nil => rfl
  | cons c r =>
      have hc : c ≠ ':' := by simpa using hr
      rw [lastSegmentFrom, lastSegment]
      exact fun _ _ h => absurd (List.cons.inj h).1 hc

/-! ## where a path ends -/

/-- No path goes on with the text. -/
def AtPathEnd (r : List Char) : Prop := ∀ c ∈ r.head?, isPathChar c = false

theorem atPathEnd_dropWhile (t : List Char) : AtPathEnd (t.dropWhile isPathChar) := by
  intro c hc
  have hnot := List.head?_dropWhile_not isPathChar t
  rwa [Option.mem_def.1 hc] at hnot

/-- The characters of a path are held back. -/
theorem shortenFrom_path {s : List Char} (hs : ∀ c ∈ s, isPathChar c = true)
    (segment r : List Char) :
    shortenFrom segment (s ++ r) = shortenFrom (s.reverse ++ segment) r := by
  induction s generalizing segment with
  | nil => rfl
  | cons c s ih =>
      obtain ⟨hc, hs⟩ := List.forall_mem_cons.1 hs
      simp [shortenFrom, hc, ih hs]

/-- At its end a path is given out. -/
theorem shortenFrom_atPathEnd {r : List Char} (hr : AtPathEnd r) (segment : List Char) :
    shortenFrom segment r = lastSegment segment.reverse ++ shortenFrom [] r := by
  cases r with
  | nil => simp [shortenFrom, lastSegment, lastSegmentFrom]
  | cons c r =>
      have hc : isPathChar c = false := hr c rfl
      simp [shortenFrom, hc, lastSegment, lastSegmentFrom]

/-- What no path goes on with is shortened on its own. -/
theorem shortenFrom_append {r : List Char} (hr : AtPathEnd r) (segment s : List Char) :
    shortenFrom segment (s ++ r) = shortenFrom segment s ++ shortenFrom [] r := by
  induction s generalizing segment with
  | nil => exact shortenFrom_atPathEnd hr segment
  | cons c s ih =>
      by_cases hc : isPathChar c = true
      · simp [shortenFrom, hc, ih]
      · simp [shortenFrom, hc, ih]

/-- A character that no path goes on with parts two texts. -/
theorem shortenFrom_append_cons {c : Char} (hc : isPathChar c = false) (s t : List Char) :
    shortenFrom [] (s ++ c :: t) = shortenFrom [] s ++ c :: shortenFrom [] t := by
  have hend : AtPathEnd (c :: t) := by simpa [AtPathEnd] using hc
  rw [shortenFrom_append hend]
  simp [shortenFrom, hc, lastSegment, lastSegmentFrom]

/-- Without colons there is nothing to shorten. -/
theorem shortenFrom_eq_self {w : List Char} (hw : ':' ∉ w) : shortenFrom [] w = w := by
  have h (segment : List Char) (hsegment : ':' ∉ segment) :
      shortenFrom segment w = segment.reverse ++ w := by
    induction w generalizing segment with
    | nil => simp [shortenFrom, lastSegment_eq_self (w := segment.reverse) (by simpa)]
    | cons c w ih =>
        simp only [List.mem_cons, not_or] at hw
        by_cases hc : isPathChar c = true
        · simp [shortenFrom, hc, ih hw.2 (c :: segment) (by simp [hw.1, hsegment])]
        · simp [shortenFrom, hc, ih hw.2 [] (by simp),
            lastSegment_eq_self (w := segment.reverse) (by simpa)]
  simpa using h [] (by simp)

/-! ## what is left of a path -/

/-- What is left of a qualifier: it goes up to the last character that is not taken for one of a
path. -/
def Segment.remnant (s : Segment) : List Char := s.text.toList.rdropWhile isPathChar

/-- What is left of a path: its name behind the remnants of its qualifiers. -/
def Path.remainder (p : Path) : String :=
  String.ofList (p.qualifiers.flatMap Segment.remnant ++ p.name.text.toList)

/-- A path starts anew behind a mark. -/
theorem shortenFrom_mark {segment t : List Char} (hsegment : ':' ∉ segment)
    (ht : t.head? ≠ some ':') : shortenFrom segment (':' :: ':' :: t) = shortenFrom [] t := by
  -- `v` is the rest of the path that the mark stands in
  obtain ⟨v, r, rfl, hv, hr⟩ : ∃ v r, v ++ r = t ∧ (∀ c ∈ v, isPathChar c = true) ∧ AtPathEnd r :=
    ⟨_, _, List.takeWhile_append_dropWhile, fun _ => List.mem_takeWhile_imp, atPathEnd_dropWhile t⟩
  have hcolon : isPathChar ':' = true := by simp [isPathChar]
  have hvhead : v.head? ≠ some ':' := by
    cases v with
    | nil => simp
    | cons c v => simpa using ht
  have hpath : ∀ c ∈ ':' :: ':' :: v, isPathChar c = true := by
    simpa [hcolon] using hv
  calc shortenFrom segment (':' :: ':' :: (v ++ r))
      = shortenFrom ((':' :: ':' :: v).reverse ++ segment) r := shortenFrom_path hpath segment r
    _ = lastSegment (segment.reverse ++ ':' :: ':' :: v) ++ shortenFrom [] r := by
        rw [shortenFrom_atPathEnd hr, List.reverse_append, List.reverse_reverse]
    _ = lastSegment v ++ shortenFrom [] r := by
        rw [lastSegment_append_mark (by simpa using hsegment) hvhead]
    _ = shortenFrom v.reverse r := by
        rw [shortenFrom_atPathEnd hr v.reverse, List.reverse_reverse]
    _ = shortenFrom [] (v ++ r) := by rw [shortenFrom_path hv, List.append_nil]

theorem rdropWhile_append_cons {p : Char → Bool} {c : Char} (hc : p c = false) (s t : List Char) :
    (s ++ c :: t).rdropWhile p = s ++ c :: t.rdropWhile p := by
  induction t using List.reverseRecOn with
  | nil => simpa using List.rdropWhile_concat_neg p s c (by simp [hc])
  | append_singleton t a ih =>
      have hassoc : s ++ c :: (t ++ [a]) = (s ++ c :: t) ++ [a] := by simp
      by_cases ha : p a = true
      · rw [hassoc, List.rdropWhile_concat_pos p _ a ha, ih, List.rdropWhile_concat_pos p _ a ha]
      · rw [hassoc, List.rdropWhile_concat_neg p _ a ha, List.rdropWhile_concat_neg p _ a ha]
        simp

/-- A qualifier is left with its remnant. -/
theorem shortenFrom_qualifier {q t : List Char} (hq : ':' ∉ q) (ht : t.head? ≠ some ':') :
    shortenFrom [] (q ++ ':' :: ':' :: t) = q.rdropWhile isPathChar ++ shortenFrom [] t := by
  -- the induction goes through the qualifier with what is held back of it so far
  have h (segment : List Char) (hsegment : ':' ∉ segment)
      (hpath : ∀ c ∈ segment, isPathChar c = true) :
      shortenFrom segment (q ++ ':' :: ':' :: t)
        = (segment.reverse ++ q).rdropWhile isPathChar ++ shortenFrom [] t := by
    induction q generalizing segment with
    | nil =>
        have hnone : segment.reverse.rdropWhile isPathChar = [] := by
          simpa [List.rdropWhile_eq_nil_iff] using hpath
        simp [shortenFrom_mark hsegment ht, hnone]
    | cons c q ih =>
        simp only [List.mem_cons, not_or] at hq
        by_cases hc : isPathChar c = true
        · have hheld := ih hq.2 (c :: segment) (by simp [hq.1, hsegment]) (by simpa [hc])
          simpa [shortenFrom, hc] using hheld
        · have hrest := ih hq.2 [] (by simp) (by simp)
          simp [shortenFrom, hc, hrest, rdropWhile_append_cons,
            lastSegment_eq_self (w := segment.reverse) (by simpa)]
  simpa using h [] (by simp) (by simp)

theorem Segment.colon_not_mem (s : Segment) : ':' ∉ s.text.toList := by
  have hstart : Text.startsIdentifier ':' = false := by decide +kernel
  have hgo : Text.continuesIdentifier ':' = false := by decide +kernel
  have h := s.legal
  intro hmem
  cases htext : s.text.toList with
  | nil => simp [htext] at hmem
  | cons c r =>
      simp only [htext, isIdentifier, Bool.and_eq_true, List.all_eq_true] at h
      rcases List.mem_cons.1 (htext ▸ hmem) with rfl | hr
      · simp [hstart] at h
      · simpa [hgo] using h.2 _ hr

theorem Segment.toList_ne_nil (s : Segment) : s.text.toList ≠ [] := by
  have h := s.legal
  intro hnil
  simp [hnil, isIdentifier] at h

namespace Path

theorem text_of_name (name : Segment) : text ⟨[], name⟩ = name.text := String.intercalate_singleton

theorem toList_text_cons (q : Segment) (qs : List Segment) (name : Segment) :
    (text ⟨q :: qs, name⟩).toList = q.text.toList ++ ':' :: ':' :: (text ⟨qs, name⟩).toList := by
  have h : text ⟨q :: qs, name⟩ = q.text ++ "::" ++ text ⟨qs, name⟩ :=
    String.intercalate_cons_of_ne_nil (by simp)
  simp [h]

/-- A path starts with a segment. -/
theorem head?_text_ne_colon (p : Path) : p.text.toList.head? ≠ some ':' := by
  have hstarts (s : Segment) (r : List Char) : (s.text.toList ++ r).head? ≠ some ':' := by
    obtain ⟨c, w, hw⟩ := List.exists_cons_of_ne_nil s.toList_ne_nil
    have hc := s.colon_not_mem
    simp only [hw, List.mem_cons, not_or] at hc
    simpa [hw] using Ne.symm hc.1
  obtain ⟨qs, name⟩ := p
  cases qs with
  | nil => simpa [text_of_name] using hstarts name []
  | cons q qs =>
      rw [toList_text_cons]
      exact hstarts q _

/-- **A path** is left with its name behind the remnants of its qualifiers. -/
theorem shortenFrom_text (p : Path) : shortenFrom [] p.text.toList = p.remainder.toList := by
  obtain ⟨qs, name⟩ := p
  induction qs with
  | nil => simp [text_of_name, remainder, shortenFrom_eq_self name.colon_not_mem]
  | cons q qs ih =>
      rw [toList_text_cons,
        shortenFrom_qualifier q.colon_not_mem (head?_text_ne_colon ⟨qs, name⟩), ih]
      simp [remainder, Segment.remnant]

/-- What is left of a path has nothing left to shorten. -/
theorem shortenFrom_remainder (p : Path) :
    shortenFrom [] p.remainder.toList = p.remainder.toList := by
  refine shortenFrom_eq_self ?_
  have hremnant (q : Segment) : ':' ∉ q.remnant := fun h =>
    q.colon_not_mem ((List.rdropWhile_prefix _ _).subset h)
  simp [remainder, hremnant, p.name.colon_not_mem]

/-- Nothing is left of the qualifiers exactly if the path is plain. -/
theorem flatMap_remnant_eq_nil_iff (p : Path) :
    p.qualifiers.flatMap Segment.remnant = [] ↔ p.IsPlain := by
  simp only [List.flatMap_eq_nil_iff, Segment.remnant, List.rdropWhile_eq_nil_iff, IsPlain]

theorem length_remainder (p : Path) :
    p.remainder.length
      = p.short.text.length + (p.qualifiers.flatMap Segment.remnant).length := by
  simp [remainder, short, text_of_name, Nat.add_comm]

theorem remainder_of_isPlain {p : Path} (h : p.IsPlain) : p.remainder = p.short.text := by
  simp [remainder, (flatMap_remnant_eq_nil_iff p).2 h, short, text_of_name]

end Path

/-! ## the marks of each expression -/

/-- The marks of a name around and between its paths. -/
def nameMarks : List Char := ['<', '>', '(', ')', '[', ']', ',', ';', ' ']

/-- No path goes on with a mark. -/
theorem isPathChar_of_mem_nameMarks {c : Char} (h : c ∈ nameMarks) : isPathChar c = false := by
  have hmarks : nameMarks.all (!isPathChar ·) = true := by decide +kernel
  simpa using List.all_eq_true.1 hmarks c h

/-- A mark parts two texts. -/
theorem shortenFrom_append_nameMark {c : Char} (hc : c ∈ nameMarks) (s t : List Char) :
    shortenFrom [] (s ++ c :: t) = shortenFrom [] s ++ c :: shortenFrom [] t :=
  shortenFrom_append_cons (isPathChar_of_mem_nameMarks hc) s t

/-- A text may start with a mark. -/
theorem shortenFrom_nameMark {c : Char} (hc : c ∈ nameMarks) (t : List Char) :
    shortenFrom [] (c :: t) = c :: shortenFrom [] t :=
  shortenFrom_append_nameMark hc [] t

theorem shortenFrom_nil : shortenFrom [] [] = [] := rfl

/-- The digits of a length are left as they are. -/
theorem shortenFrom_toString (n : Nat) :
    shortenFrom [] (toString n).toList = (toString n).toList := by
  refine shortenFrom_eq_self fun h => ?_
  rw [Nat.toString_eq_repr, Nat.toList_repr] at h
  exact absurd (Nat.isDigit_of_mem_toDigits (by decide) (by decide) h) (by decide)

namespace TypeExpression

variable (f g : Path → String)

theorem toList_renderWith_slice (e : TypeExpression) :
    ((slice e).renderWith f).toList = '[' :: ((e.renderWith f).toList ++ [']']) := by
  change ("[" ++ e.renderWith f ++ "]").toList = _
  simp

theorem toList_renderWith_array (e : TypeExpression) (n : Nat) :
    ((array e n).renderWith f).toList
      = '[' :: ((e.renderWith f).toList ++ ';' :: ' ' :: ((toString n).toList ++ [']'])) := by
  change ("[" ++ e.renderWith f ++ "; " ++ toString n ++ "]").toList = _
  simp

theorem toList_renderWith_path (p : Path) (a : TypeExpression) (as : List TypeExpression) :
    ((path p (a :: as)).renderWith f).toList
      = (f p).toList ++ '<' :: ((commaSeparated (renderAllWith f (a :: as))).toList ++ ['>']) := by
  change (f p ++ "<" ++ commaSeparated (renderAllWith f (a :: as)) ++ ">").toList = _
  simp

theorem toList_renderWith_singleton (e : TypeExpression) :
    ((tuple [e]).renderWith f).toList = '(' :: ((e.renderWith f).toList ++ ',' :: [')']) := by
  change ("(" ++ e.renderWith f ++ ",)").toList = _
  simp

/-- A tuple, except one of a single component. -/
theorem toList_renderWith_tuple {es : List TypeExpression} (h : es.length ≠ 1) :
    ((tuple es).renderWith f).toList
      = '(' :: ((commaSeparated (renderAllWith f es)).toList ++ [')']) := by
  have hname : (tuple es).renderWith f = "(" ++ commaSeparated (renderAllWith f es) ++ ")" := by
    rcases es with _ | ⟨e, _ | ⟨e', es⟩⟩
    · rfl
    · exact absurd rfl h
    · rfl
  rw [hname]
  simp

theorem toList_commaSeparated_cons (e e' : TypeExpression) (es : List TypeExpression) :
    (commaSeparated (renderAllWith f (e :: e' :: es))).toList
      = (e.renderWith f).toList
        ++ ',' :: ' ' :: (commaSeparated (renderAllWith f (e' :: es))).toList := by
  have hrest : renderAllWith f (e' :: es) ≠ [] := List.cons_ne_nil _ _
  rw [renderAllWith, commaSeparated, String.intercalate_cons_of_ne_nil hrest, commaSeparated]
  simp

theorem commaSeparated_singleton (e : TypeExpression) :
    commaSeparated (renderAllWith f [e]) = e.renderWith f := String.intercalate_singleton

/-! ## short names -/

variable {f g}

mutual
/-- **Only paths are shortened.** -/
theorem shortenFrom_renderWith (h : ∀ p, shortenFrom [] (f p).toList = (g p).toList) :
    (e : TypeExpression) → shortenFrom [] (e.renderWith f).toList = (e.renderWith g).toList
  | path p [] => by
      rw [renderWith, renderWith]
      exact h p
  | path p (a :: as) => by
      have harguments := shortenFrom_renderAllWith h (a :: as)
      rw [toList_renderWith_path, toList_renderWith_path,
        shortenFrom_append_nameMark (by decide), shortenFrom_append_nameMark (by decide), h,
        harguments, shortenFrom_nil]
  | tuple es => by
      have hcomponents := shortenFrom_renderAllWith h es
      -- one component has a comma behind it
      by_cases hlength : es.length = 1
      · obtain ⟨e, rfl⟩ := List.length_eq_one_iff.1 hlength
        rw [commaSeparated_singleton, commaSeparated_singleton] at hcomponents
        rw [toList_renderWith_singleton, toList_renderWith_singleton,
          shortenFrom_nameMark (by decide), shortenFrom_append_nameMark (by decide),
          shortenFrom_nameMark (by decide), hcomponents, shortenFrom_nil]
      · rw [toList_renderWith_tuple f hlength, toList_renderWith_tuple g hlength,
          shortenFrom_nameMark (by decide), shortenFrom_append_nameMark (by decide), hcomponents,
          shortenFrom_nil]
  | slice e => by
      rw [toList_renderWith_slice, toList_renderWith_slice, shortenFrom_nameMark (by decide),
        shortenFrom_append_nameMark (by decide), shortenFrom_renderWith h e, shortenFrom_nil]
  | array e n => by
      rw [toList_renderWith_array, toList_renderWith_array, shortenFrom_nameMark (by decide),
        shortenFrom_append_nameMark (by decide), shortenFrom_nameMark (by decide),
        shortenFrom_append_nameMark (by decide), shortenFrom_renderWith h e, shortenFrom_toString,
        shortenFrom_nil]

/-- The same for the texts of expressions with commas between them. -/
theorem shortenFrom_renderAllWith (h : ∀ p, shortenFrom [] (f p).toList = (g p).toList) :
    (es : List TypeExpression) → shortenFrom [] (commaSeparated (renderAllWith f es)).toList
      = (commaSeparated (renderAllWith g es)).toList
  | [] => rfl
  | [e] => by
      rw [commaSeparated_singleton, commaSeparated_singleton, shortenFrom_renderWith h e]
  | e :: e' :: es => by
      rw [toList_commaSeparated_cons, toList_commaSeparated_cons,
        shortenFrom_append_nameMark (by decide), shortenFrom_nameMark (by decide),
        shortenFrom_renderWith h e, shortenFrom_renderAllWith h (e' :: es)]
end

theorem shorten_renderWith (h : ∀ p, shortenFrom [] (f p).toList = (g p).toList)
    (e : TypeExpression) : shorten (e.renderWith f) = e.renderWith g := by
  rw [shorten, shortenFrom_renderWith h, String.ofList_toList]

mutual
/-- A shortened expression is the expression with its paths cut down. -/
theorem renderWith_short : (e : TypeExpression) →
    e.short.render = e.renderWith fun p => p.short.text
  | path p [] => by rw [short, shortAll, render, renderWith, renderWith]
  | path p (a :: as) => by
      have h := renderAllWith_short (a :: as)
      simp only [shortAll, renderAllWith] at h
      rw [short, shortAll, render, renderWith, renderWith, h]
  | tuple es => by rw [short, render, renderWith, renderAllWith_short es, renderWith]
  | slice e => by rw [short, render, renderWith, ← render, renderWith_short e, renderWith]
  | array e n => by rw [short, render, renderWith, ← render, renderWith_short e, renderWith]

theorem renderAllWith_short : (es : List TypeExpression) →
    renderAllWith Path.text (shortAll es) = renderAllWith (fun p => p.short.text) es
  | [] => rfl
  | e :: es => by
      rw [shortAll, renderAllWith, ← render, renderWith_short e, renderAllWith_short es,
        renderAllWith]
end

mutual
/-- The length of a text is that of its marks and of its paths. -/
theorem length_renderWith (f : Path → String) : (e : TypeExpression) →
    (e.renderWith f).length
      = (e.renderWith fun _ => "").length + (e.paths.map fun p => (f p).length).sum
  | path p [] => by simp [renderWith, paths, allPaths]
  | path p (a :: as) => by
      have h := length_renderAllWith f (a :: as)
      simp [← String.length_toList, toList_renderWith_path, paths] at h ⊢
      omega
  | tuple es => by
      have h := length_renderAllWith f es
      by_cases hlength : es.length = 1
      · obtain ⟨e, rfl⟩ := List.length_eq_one_iff.1 hlength
        simp [← String.length_toList, commaSeparated_singleton, toList_renderWith_singleton,
          paths] at h ⊢
        omega
      · simp [← String.length_toList, toList_renderWith_tuple _ hlength, paths] at h ⊢
        omega
  | slice e => by
      have h := length_renderWith f e
      simp [← String.length_toList, toList_renderWith_slice, paths] at h ⊢
      omega
  | array e n => by
      have h := length_renderWith f e
      simp [← String.length_toList, toList_renderWith_array, paths] at h ⊢
      omega

theorem length_renderAllWith (f : Path → String) : (es : List TypeExpression) →
    (commaSeparated (renderAllWith f es)).length
      = (commaSeparated (renderAllWith (fun _ => "") es)).length
        + ((allPaths es).map fun p => (f p).length).sum
  | [] => rfl
  | [e] => by
      rw [commaSeparated_singleton, commaSeparated_singleton, length_renderWith f e, allPaths,
        allPaths, List.append_nil]
  | e :: e' :: es => by
      have he := length_renderWith f e
      have hes := length_renderAllWith f (e' :: es)
      simp [← String.length_toList, toList_commaSeparated_cons, allPaths] at he hes ⊢
      omega
end

mutual
theorem renderWith_congr : (e : TypeExpression) →
    (∀ p ∈ e.paths, f p = g p) → e.renderWith f = e.renderWith g
  | path p [], h => by
      rw [renderWith, renderWith]
      exact h p List.mem_cons_self
  | path p (a :: as), h => by
      obtain ⟨hp, has⟩ := List.forall_mem_cons.1 h
      have harguments := renderAllWith_congr (a :: as) has
      simp only [renderAllWith] at harguments
      rw [renderWith, renderWith, hp, harguments]
  | tuple es, h => by rw [renderWith, renderWith, renderAllWith_congr es h]
  | slice e, h => by rw [renderWith, renderWith, renderWith_congr e h]
  | array e n, h => by rw [renderWith, renderWith, renderWith_congr e h]

theorem renderAllWith_congr : (es : List TypeExpression) →
    (∀ p ∈ allPaths es, f p = g p) → renderAllWith f es = renderAllWith g es
  | [], _ => rfl
  | e :: es, h => by
      obtain ⟨he, hes⟩ := List.forall_mem_append.1 h
      rw [renderAllWith, renderAllWith, renderWith_congr e he, renderAllWith_congr es hes]
end

/-- Nothing but the names is left exactly if all paths are plain. -/
theorem renderWith_remainder_eq_iff (e : TypeExpression) :
    e.renderWith Path.remainder = e.short.render ↔ ∀ p ∈ e.paths, p.IsPlain := by
  rw [renderWith_short]
  constructor
  · intro h p hp
    -- every character of a remnant makes the text longer
    have hlength := congrArg String.length h
    rw [length_renderWith, length_renderWith fun p => p.short.text,
      Nat.add_left_cancel_iff] at hlength
    simp only [Path.length_remainder, List.sum_map_add, Nat.add_eq_left,
      List.sum_eq_zero_iff_forall_eq_nat] at hlength
    have hnone := hlength _ (List.mem_map_of_mem hp)
    exact (Path.flatMap_remnant_eq_nil_iff p).1 (List.length_eq_zero_iff.1 hnone)
  · exact fun h => renderWith_congr e fun p hp => Path.remainder_of_isPlain (h p hp)

theorem shorten_render_eq_remainder (e : TypeExpression) :
    shorten e.render = e.renderWith Path.remainder :=
  shorten_renderWith Path.shortenFrom_text e

/-- **Short names.**  The short name of an expression is its text with what is left of every path
in place of the path, and has no short name but itself.  It is the text of the expression that has
the last segment of every path in place of the path exactly if all qualifiers are plain. -/
theorem shorten_render (e : TypeExpression) :
    shorten e.render = e.renderWith Path.remainder
    ∧ shorten (shorten e.render) = shorten e.render
    ∧ (shorten e.render = e.short.render ↔ ∀ p ∈ e.paths, p.IsPlain) := by
  rw [shorten_render_eq_remainder]
  exact ⟨rfl, shorten_renderWith Path.shortenFrom_remainder e, e.renderWith_remainder_eq_iff⟩

/-- Not every short name is the text of the shortened expression: the middle dot of a module leaves
a part of it in front of the name. -/
theorem not_forall_shorten_render :
    ¬ ∀ e : TypeExpression,
      shorten e.render = e.short.render ∧ shorten (shorten e.render) = shorten e.render := by
  intro h
  -- the qualifiers of `app::col·lecció::Point`
  have happ : isIdentifier "app".toList = true := by decide +kernel
  have hdotted : isIdentifier "col·lecció".toList = true := by decide +kernel
  have hshort := (h (path ⟨[⟨"app", happ⟩, ⟨"col·lecció", hdotted⟩],
    ⟨"Point", by decide +kernel⟩⟩ [])).1
  rw [shorten_render_eq_remainder, renderWith_remainder_eq_iff] at hshort
  have hdot := hshort _ List.mem_cons_self ⟨"col·lecció", hdotted⟩ (by simp) '·' (by simp)
  have hnot : isPathChar '·' = false := by decide +kernel
  exact absurd hdot (by simp [hnot])

end TypeExpression

end TypedConsole
