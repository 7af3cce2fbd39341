/-!
# Indexes

An index says at which position of a list something stands that is found by a key. A key has one
position: where it is inserted again, the new position takes the place of the old one.
-/

namespace BuildingBus.Catalog

/-- Positions by key, the one inserted last first. Positions and not groups are stored, so that both
indexes of a catalog lead to one list. -/
structure Index (κ : Type) where
  /-- the keys with their positions -/
  entries : List (κ × Nat) := []
  deriving DecidableEq, Repr, Inhabited

namespace Index

variable {κ : Type} [DecidableEq κ]

/-- The position of a key, if it has one. -/
def get? (i : Index κ) (key : κ) : Option Nat := (i.entries.find? (·.1 = key)).map (·.2)

/-- The index with a position for a key, and no other one for it: as in a hash table, what was there
under the key is gone. -/
def insert (i : Index κ) (key : κ) (position : Nat) : Index κ where
  entries := (key, position) :: i.entries.filter (·.1 ≠ key)

@[simp] theorem get?_empty (key : κ) : ({} : Index κ).get? key = none := rfl

@[simp] theorem get?_insert_self (i : Index κ) (key : κ) (position : Nat) :
    (i.insert key position).get? key = some position := by
  simp [get?, insert]

/-- The other keys keep their positions. -/
theorem get?_insert_of_ne (i : Index κ) {key other : κ} (position : Nat) (h : other ≠ key) :
    (i.insert key position).get? other = i.get? other := by
  have hf : (i.entries.filter (·.1 ≠ key)).find? (·.1 = other) =
      i.entries.find? (·.1 = other) := by
    rw [List.find?_filter]
    congr 1
    funext e
    by_cases he : e.1 = other
    · simp [he, h]
    · simp [he]
  rw [get?, insert, List.find?_cons_of_neg (by simpa using Ne.symm h), hf, get?]

end Index

end BuildingBus.Catalog
