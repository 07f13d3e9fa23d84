import Courier.Record.Basic

/-! # Tables keyed by location

    At most one value per location: writing replaces the value in place or
    adds it at the end, and leaves every other location alone. -/

namespace Courier

/-- Values by location. -/
structure Table (α : Type) where
  rows : List (Location × α) := []

namespace Table

variable {α : Type}

/-- The value at the first row of that location. -/
def findIn (location : Location) : List (Location × α) → Option α
  | [] => none
  | (l, a) :: rest => if l = location then some a else findIn location rest

/-- The rows with the value at a location replaced, or added at the end. -/
def putIn (location : Location) (value : α) : List (Location × α) → List (Location × α)
  | [] => [(location, value)]
  | (l, a) :: rest =>
    if l = location then (location, value) :: rest else (l, a) :: putIn location value rest

/-- The value at a location, if there is one. -/
def find? (t : Table α) (location : Location) : Option α := findIn location t.rows

/-- The table with a value at a location. -/
def put (t : Table α) (location : Location) (value : α) : Table α :=
  ⟨putIn location value t.rows⟩

/-- The table without anything at a location. -/
def remove (t : Table α) (location : Location) : Table α :=
  ⟨t.rows.filter fun row => row.1 ≠ location⟩

@[simp] theorem find?_put_self (t : Table α) (location : Location) (value : α) :
    (t.put location value).find? location = some value := by
  simp only [put, find?]
  induction t.rows with
  | nil => simp [putIn, findIn]
  | cons row rest ih =>
    obtain ⟨l, a⟩ := row
    by_cases h : l = location <;> simp [putIn, findIn, h, ih]

/-- A value that is put somewhere changes nothing elsewhere. -/
theorem find?_put_of_ne (t : Table α) {location other : Location} (value : α)
    (h : other ≠ location) : (t.put location value).find? other = t.find? other := by
  simp only [put, find?]
  induction t.rows with
  | nil => simp [putIn, findIn, Ne.symm h]
  | cons row rest ih =>
    obtain ⟨l, a⟩ := row
    by_cases hl : l = location
    · subst hl
      simp [putIn, findIn, Ne.symm h]
    · by_cases ho : l = other <;> simp [putIn, findIn, hl, ho, ih, h]

end Table

end Courier
