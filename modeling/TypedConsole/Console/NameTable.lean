/-!
# TypedConsole.Console.NameTable

Tables by name: at most one entry for each name, in increasing order of the names by code points.
-/

namespace TypedConsole

/-- Entries with their names, in order. -/
structure NameTable (α : Type) where
  entries : List (String × α) := []

namespace NameTable

/-- The names, in order. -/
def names (t : NameTable α) : List String := t.entries.map (·.1)

/-- The entry under a name. -/
def find? (t : NameTable α) (name : String) : Option α :=
  (t.entries.find? (·.1 = name)).map (·.2)

/-- There is an entry under the name. -/
def contains (t : NameTable α) (name : String) : Bool := (t.find? name).isSome

/-- Insert into an increasing list, in place of an entry under the same name. -/
def insertEntry (name : String) (a : α) : List (String × α) → List (String × α)
  | [] => [(name, a)]
  | e :: es =>
    if name < e.1 then (name, a) :: e :: es
    else if name = e.1 then (name, a) :: es
    else e :: insertEntry name a es

/-- The table with an entry under the name. -/
def insert (t : NameTable α) (name : String) (a : α) : NameTable α :=
  ⟨insertEntry name a t.entries⟩

/-- The table without the entry under the name. -/
def erase (t : NameTable α) (name : String) : NameTable α := ⟨t.entries.filter (·.1 ≠ name)⟩

/-- There are no entries. -/
def isEmpty (t : NameTable α) : Bool := t.entries.isEmpty

end NameTable

end TypedConsole
