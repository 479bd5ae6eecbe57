import TypedConsole.Catalogue.Records

/-!
# TypedConsole.Catalogue.Parsers

A catalogue of parsers to register in place of those that resolution makes: words in capitals,
hexadecimal bytes, yes and no, literals for the types that have none of their own, and a sequence
and a number under other names.
-/

namespace TypedConsole.Catalogue

/-! ## readers -/

/-- Everything up to a blank, which may be nothing, with small ASCII letters made capital. -/
def readShout : Reader Value := fun s =>
  (some (.string (String.ofList ((Text.leadingWord s).map Char.toUpper))), Text.afterLeadingWord s)

theorem claims_readShout : readShout.Claims := fun _ => List.dropWhile_suffix _

theorem progresses_readShout : readShout.Progresses := by
  intro c s v t hc h
  simp only [readShout, Text.afterLeadingWord, List.dropWhile_cons, hc, Bool.not_false, if_true,
    Prod.mk.injEq] at h
  have := (List.dropWhile_suffix (l := s) (!Text.isBlank ·)).length_le
  rw [← h.2, List.length_cons]
  omega

/-- The value of a hexadecimal digit. -/
def hexDigit (c : Char) : Option Nat :=
  if Decimal.isDigit c then some (c.toNat - '0'.toNat)
  else if 'a' ≤ c && c ≤ 'f' then some (c.toNat - 'a'.toNat + 10)
  else if 'A' ≤ c && c ≤ 'F' then some (c.toNat - 'A'.toNat + 10)
  else none

/-- Exactly two hexadecimal digits. A character that is none is claimed before the failure. -/
def readHex : Reader Value
  | [] => (none, [])
  | c :: s =>
    match hexDigit c, s with
    | none, s => (none, s)
    | some _, [] => (none, [])
    | some high, d :: s => ((hexDigit d).map fun low => .integer (16 * high + low), s)

theorem claims_readHex : readHex.Claims := by
  intro s
  unfold readHex
  split
  · exact List.suffix_refl _
  · split
    · exact List.suffix_cons _ _
    · exact List.nil_suffix
    · exact (List.suffix_cons _ _).trans (List.suffix_cons _ _)

theorem progresses_readHex : readHex.Progresses := by
  intro c s v t _ h
  unfold readHex at h
  grind

/-- The words yes and no. -/
def readYesNo : Reader Value := fun s =>
  match Reader.literal ['y', 'e', 's'] (.bool true) s with
  | (some v, t) => (some v, t)
  | (none, s) => Reader.literal ['n', 'o'] (.bool false) s

theorem claims_readYesNo : readYesNo.Claims := by
  intro s
  have h := Reader.claims_literal ['y', 'e', 's'] (Value.bool true) s
  unfold readYesNo
  split
  · next v t heq => rw [heq] at h; exact h
  · next t heq =>
    rw [heq] at h
    exact (Reader.claims_literal _ _ t).trans h

theorem progresses_readYesNo : readYesNo.Progresses := by
  intro c s v t hc h
  unfold readYesNo at h
  split at h
  · next w u heq =>
    simp only [Prod.mk.injEq] at h
    exact h.2 ▸ Reader.progresses_literal (by simp) _ c s w u hc heq
  · next u heq =>
    have hu : u = c :: s := by
      simp only [Reader.literal] at heq
      split at heq <;> simp_all
    subst hu
    exact Reader.progresses_literal (by simp) _ c s v t hc h

/-! ## parsers -/

/-- Words in capitals. -/
def shout : CustomParser := ⟨"shout", none, readShout, claims_readShout, progresses_readShout⟩

/-- Hexadecimal bytes. -/
def hex : CustomParser := ⟨"hex", some "hh", readHex, claims_readHex, progresses_readHex⟩

/-- Yes and no, with an empty template. -/
def yesNo : CustomParser :=
  ⟨"yes/no", some "", readYesNo, claims_readYesNo, progresses_readYesNo⟩

/-- The letter x, for the type without a literal. -/
def opaqueLetter : CustomParser :=
  ⟨"opaque", none, Reader.literal ['x'] .unit, Reader.claims_literal _ _,
    Reader.progresses_literal (by simp) _⟩

/-- A star, for the type that contains itself. -/
def leaf : CustomParser :=
  ⟨"leaf", none, Reader.literal ['*'] (.list []), Reader.claims_literal _ _,
    Reader.progresses_literal (by simp) _⟩

/-- A sequence of bytes under the name of a pile. The parser of the bytes is resolved at once. -/
def pile : Resolution Parser :=
  Resolution.sequenceOf Resolution.resolve .brackets (fun _ => "Pile")
    SequenceKind.vector.collect byte

/-- A parser of the catalogue, with the type that it is for. -/
def parserNamed : String → Option (Ty × Resolution Parser)
  | "Shout" => some (.string, pure (.custom shout))
  | "Hex" => some (byte, pure (.custom hex))
  | "YesNo" => some (.bool, pure (.custom yesNo))
  | "OpaqueX" => some (type "Opaque", pure (.custom opaqueLetter))
  | "Leaf" => some (type "Node", pure (.custom leaf))
  | "Pile" => some (.sequence .vector byte, pile)
  | "PlainInt" => some (.integer .i32, pure (.integer .i32))
  | _ => none

end TypedConsole.Catalogue
