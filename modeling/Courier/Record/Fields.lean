import Courier.Entries

/-! # Fields — a finite map of texts, in the order of its keys

    The entries are a list with strictly ascending keys, so two maps with
    the same entries are equal and listings need no sorting. -/

namespace Courier

/-- A map from texts to texts. -/
structure Fields where
  entries : List (String × String) := []
  ascending : AscendingKeys entries := by exact List.Pairwise.nil

namespace Fields

instance : DecidableEq Fields := fun a b =>
  if h : a.entries = b.entries then
    isTrue (by cases a; cases b; cases h; rfl)
  else isFalse (fun h' => h (congrArg entries h'))

/-- The map without entries. -/
def empty : Fields := {}

instance : Inhabited Fields := ⟨empty⟩

/-- The map with `key` set to `value`. -/
def insert (m : Fields) (key value : String) : Fields :=
  ⟨Entries.place key value m.entries, Entries.ascending_place key value m.ascending⟩

/-- The map without `key`. -/
def erase (m : Fields) (key : String) : Fields :=
  ⟨m.entries.filter fun e => e.1 != key, List.Pairwise.filter _ m.ascending⟩

/-- The value of `key`. -/
def get? (m : Fields) (key : String) : Option String := Entries.value? key m.entries

/-- The keys in ascending order. -/
def keys (m : Fields) : List String := m.entries.map Prod.fst

/-- The map of a list of entries; of several with one key the last counts. -/
def ofList (entries : List (String × String)) : Fields :=
  entries.foldl (fun m e => m.insert e.1 e.2) empty

@[simp] theorem get?_insert_self (m : Fields) (key value : String) :
    (m.insert key value).get? key = some value := by
  simp [get?, insert]

/-- A value that is inserted changes no other key. -/
theorem get?_insert_of_ne (m : Fields) {key other : String} (value : String) (h : other ≠ key) :
    (m.insert key value).get? other = m.get? other := by
  simp [get?, insert, Entries.value?_place_of_ne _ _ h]

end Fields

end Courier
