/-! # Entries — values by key, in the order of the keys

    A list of pairs whose keys ascend strictly has at most one value per
    key, and two such lists with the same values are equal. -/

namespace Courier

/-- Whether the keys of a list of entries ascend strictly. -/
def AscendingKeys {α : Type} (entries : List (String × α)) : Prop :=
  entries.Pairwise fun a b => a.1 < b.1

namespace Entries

variable {α : Type}

/-- Puts an entry into its place in an ascending list; an entry of the same key gives way. -/
def place (key : String) (value : α) : List (String × α) → List (String × α)
  | [] => [(key, value)]
  | (k, v) :: rest =>
    if key < k then (key, value) :: (k, v) :: rest
    else if key = k then (key, value) :: rest
    else (k, v) :: place key value rest

/-- The value of a key. -/
def value? (key : String) (entries : List (String × α)) : Option α :=
  (entries.find? fun e => e.1 == key).map Prod.snd

/-- Entries put into their places; of several with one key the last counts. -/
def sorted (entries : List (String × α)) : List (String × α) :=
  entries.foldl (fun placed e => place e.1 e.2 placed) []

/-- What is among entries after one was put into its place is that one, or was there before. -/
theorem mem_place {key : String} {value : α} {entries : List (String × α)} {e : String × α}
    (h : e ∈ place key value entries) : e = (key, value) ∨ e ∈ entries := by
  induction entries with
  | nil => exact Or.inl (by simpa [place] using h)
  | cons head rest ih =>
    obtain ⟨k, v⟩ := head
    simp only [place] at h
    split at h
    · rcases List.mem_cons.1 h with h | h
      · exact Or.inl h
      · exact Or.inr h
    · split at h
      · rcases List.mem_cons.1 h with h | h
        · exact Or.inl h
        · exact Or.inr (List.mem_cons_of_mem _ h)
      · rcases List.mem_cons.1 h with h | h
        · exact Or.inr (h ▸ List.mem_cons_self ..)
        · exact (ih h).imp_right (List.mem_cons_of_mem _)

private theorem lt_of_not_lt_of_ne {a b : String} (h : ¬a < b) (hne : a ≠ b) : b < a :=
  Decidable.byContradiction fun h' =>
    hne (String.le_antisymm (String.not_lt.1 h') (String.not_lt.1 h))

/-- Putting an entry into its place keeps the keys ascending. -/
theorem ascending_place (key : String) (value : α) {entries : List (String × α)}
    (h : AscendingKeys entries) : AscendingKeys (place key value entries) := by
  induction entries with
  | nil => exact List.pairwise_singleton ..
  | cons head rest ih =>
    obtain ⟨k, v⟩ := head
    obtain ⟨hhead, hrest⟩ := List.pairwise_cons.1 h
    simp only [place]
    split
    · next hlt =>
      refine List.pairwise_cons.2 ⟨fun e he => ?_, h⟩
      rcases List.mem_cons.1 he with rfl | he
      · exact hlt
      · exact String.lt_trans hlt (hhead e he)
    · next hlt =>
      split
      · next heq =>
        exact List.pairwise_cons.2 ⟨fun e he => heq ▸ hhead e he, hrest⟩
      · next hne =>
        refine List.pairwise_cons.2 ⟨fun e he => ?_, ih hrest⟩
        rcases mem_place he with rfl | he
        · exact lt_of_not_lt_of_ne hlt hne
        · exact hhead e he

/-- A placed key has the value that was placed. -/
@[simp] theorem value?_place_self (key : String) (value : α) (entries : List (String × α)) :
    value? key (place key value entries) = some value := by
  induction entries with
  | nil => simp [place, value?]
  | cons head rest ih =>
    obtain ⟨k, v⟩ := head
    simp only [place]
    split
    · simp [value?]
    · split
      · simp [value?]
      · next hne =>
        have hk : (k == key) = false := by simpa using Ne.symm hne
        simpa [value?, hk] using ih

/-- Placing a key leaves the values of the others alone. -/
theorem value?_place_of_ne {key other : String} (value : α) (entries : List (String × α))
    (h : other ≠ key) : value? other (place key value entries) = value? other entries := by
  have ho : (key == other) = false := by simpa using Ne.symm h
  induction entries with
  | nil => simp [place, value?, ho]
  | cons head rest ih =>
    obtain ⟨k, v⟩ := head
    simp only [place]
    split
    · simp [value?, ho]
    · split
      · next heq => simp [value?, ho, ← heq]
      · by_cases hk : k = other
        · simp [value?, hk]
        · have hk' : (k == other) = false := by simpa using hk
          simpa [value?, hk'] using ih

end Entries

end Courier
