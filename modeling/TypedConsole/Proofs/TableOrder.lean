import Mathlib.Data.String.Basic
import TypedConsole.Proofs.Registration

/-!
# TypedConsole.Proofs.TableOrder

Tables by name stay in increasing order, so that they are determined by what stands under each
name: what is stored and then removed leaves no trace (`erase_insert`), and storing again what is
there already changes nothing (`insert_eq_self`).
-/

namespace TypedConsole.NameTable

variable {α : Type} {t : NameTable α} {name name' : String} {a b : α}

/-! ## names -/

theorem mem_names_iff : name ∈ t.names ↔ ∃ a, t.find? name = some a := by
  simp only [names, find?, List.mem_map, Option.map_eq_some_iff]
  constructor
  · intro h
    obtain ⟨e, he, rfl⟩ := h
    obtain ⟨e', he'⟩ := Option.isSome_iff_exists.1
      (List.find?_isSome (p := (·.1 = e.1)) |>.2 ⟨e, he, by simp⟩)
    exact ⟨e'.2, e', he', rfl⟩
  · intro h
    obtain ⟨a, e, he, -⟩ := h
    exact ⟨e, List.mem_of_find?_eq_some he, by simpa using List.find?_some he⟩

theorem contains_iff : t.contains name = true ↔ ∃ a, t.find? name = some a :=
  Option.isSome_iff_exists

theorem notMem_names_iff : name ∉ t.names ↔ t.find? name = none := by
  rw [mem_names_iff, Option.eq_none_iff_forall_ne_some, not_exists]

theorem mem_names_insert : name' ∈ (t.insert name a).names ↔ name' = name ∨ name' ∈ t.names := by
  by_cases h : name' = name
  · subst h
    simp [mem_names_iff, find?_insert_self]
  · simp [mem_names_iff, find?_insert_of_ne h, h]

theorem find?_erase_self : (t.erase name).find? name = none := by
  simp [erase, find?, List.find?_filter]

theorem mem_names_erase : name' ∈ (t.erase name).names ↔ name' ≠ name ∧ name' ∈ t.names := by
  by_cases h : name' = name
  · subst h
    simp [mem_names_iff, find?_erase_self]
  · simp [mem_names_iff, find?_erase_of_ne h, h]

/-! ## order -/

/-- The names are in strictly increasing order. -/
def Increasing (t : NameTable α) : Prop := t.names.Pairwise (· < ·)

theorem increasing_empty : ({} : NameTable α).Increasing := List.Pairwise.nil

theorem Increasing.insert (h : t.Increasing) (name : String) (a : α) :
    (t.insert name a).Increasing := by
  obtain ⟨entries⟩ := t
  simp only [Increasing, names, NameTable.insert] at h ⊢
  induction entries with
  | nil => simp [insertEntry]
  | cons e es ih =>
      obtain ⟨he, hes⟩ := List.pairwise_cons.1 h
      simp only [insertEntry]
      split
      · next hlt =>
          refine List.pairwise_cons.2 ⟨fun x hx => ?_, h⟩
          rcases List.mem_cons.1 hx with rfl | hx
          · exact hlt
          · exact hlt.trans (he x hx)
      · split
        · next heq => exact heq ▸ List.pairwise_cons.2 ⟨he, hes⟩
        · next hlt hne =>
            refine List.pairwise_cons.2 ⟨fun x hx => ?_, ih hes⟩
            have hmem : x ∈ (NameTable.insert ⟨es⟩ name a).names := hx
            rcases mem_names_insert.1 hmem with rfl | hx
            · exact lt_of_le_of_ne (not_lt.1 hlt) (Ne.symm hne)
            · exact he x hx

theorem Increasing.erase (h : t.Increasing) (name : String) : (t.erase name).Increasing :=
  h.sublist (List.filter_sublist.map _)

/-! ## without a trace -/

/-- Removing a name removes what was stored under it just before. -/
theorem erase_insert_self : (t.insert name a).erase name = t.erase name := by
  obtain ⟨entries⟩ := t
  simp only [insert, erase, mk.injEq]
  induction entries with
  | nil => simp [insertEntry]
  | cons e es ih =>
      simp only [insertEntry]
      split
      · simp
      · split
        · next heq => simp [heq]
        · simp only [List.filter_cons, ih]

/-- Removing a name that is not there changes nothing. -/
theorem erase_eq_self (h : t.find? name = none) : t.erase name = t := by
  obtain ⟨entries⟩ := t
  simp only [erase, mk.injEq, List.filter_eq_self]
  intro e he
  have hne : e.1 ≠ name := fun heq => notMem_names_iff.2 h (List.mem_map.2 ⟨e, he, heq⟩)
  simpa using hne

/-- What is stored under a new name and removed leaves no trace. -/
theorem erase_insert (h : t.find? name = none) : (t.insert name a).erase name = t :=
  erase_insert_self.trans (erase_eq_self h)

/-- Of two entries stored under one name the second stays. -/
theorem insert_insert : (t.insert name a).insert name b = t.insert name b := by
  obtain ⟨entries⟩ := t
  simp only [insert, mk.injEq]
  induction entries with
  | nil => simp [insertEntry]
  | cons e es ih =>
      simp only [insertEntry]
      split
      · simp [insertEntry]
      · split
        · simp [insertEntry]
        · next hlt hne => simp only [insertEntry, if_neg hlt, if_neg hne, ih]

/-- Storing what is there already changes nothing. -/
theorem Increasing.insert_eq_self (h : t.Increasing) (ha : t.find? name = some a) :
    t.insert name a = t := by
  obtain ⟨entries⟩ := t
  simp only [NameTable.insert, mk.injEq]
  induction entries with
  | nil => cases ha
  | cons e es ih =>
      obtain ⟨he, hes⟩ := List.pairwise_cons.1 h
      by_cases heq : e.1 = name
      · obtain rfl : e.2 = a := by simpa [find?, heq] using ha
        rw [insertEntry, if_neg (heq ▸ lt_irrefl _), if_pos heq.symm, ← heq]
      · have ha' : (⟨es⟩ : NameTable α).find? name = some a := by
          simpa [find?, List.find?_cons, heq] using ha
        have hlt : e.1 < name := he name (mem_names_iff.2 ⟨a, ha'⟩)
        rw [insertEntry, if_neg hlt.not_gt, if_neg (Ne.symm heq), ih hes ha']

end TypedConsole.NameTable
