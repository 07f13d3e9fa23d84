import Courier.Proofs.Json.Text

/-! # Compact texts — what is written spells the value

    The compact text of a value is one of the texts that stand for it: no
    white space, members in their own order, and nothing left out.  The one
    condition is that no object names a member twice. -/

namespace Courier.Json

/-- A value none of whose objects has two members of one name. -/
inductive Value.Distinct : Value → Prop where
  | null : Distinct .null
  | bool (b : Bool) : Distinct (.bool b)
  | int (n : Int) : Distinct (.int n)
  | text (s : String) : Distinct (.text s)
  | list {items : List Value} (each : ∀ v ∈ items, Distinct v) : Distinct (.list items)
  | object {members : List (String × Value)} (names : (members.map Prod.fst).Nodup)
      (each : ∀ m ∈ members, Distinct m.2) : Distinct (.object members)

/-- What stands alone, without white space around it. -/
def bare (cs : List Char) : Spaced where
  core := cs

theorem bare_isSpaced (cs : List Char) : (bare cs).IsSpaced := by
  constructor
  · intro c none
    exact nomatch none
  · intro c none
    exact nomatch none

theorem bare_chars (cs : List Char) : (bare cs).chars = cs := List.append_nil cs

/-- A member of an object and a text for its value, with no more than a colon between them. -/
def bareEntry (name : String) (v : Value) (cs : List Char) : Entry :=
  ⟨name, some v, bare (encodeText name), bare cs⟩

/-- A member written without white space is an entry that fits. -/
theorem bareEntry_fits {omits : Bool} {members : List (String × Value)} {name : String}
    {v : Value} {cs : List Char} (mem : (name, v) ∈ members) (spelled : Spells omits v cs) :
    (bareEntry name v cs).Fits omits members where
  own w same := by
    rw [← Option.some.inj same]
    exact ⟨mem, spelled⟩
  added none := nomatch none
  name := textForm_encodeText name
  spaced := ⟨bare_isSpaced _, bare_isSpaced _⟩

/-- A member that an object does not have, beside those that it has. -/
def besideEntry (name : String) (cs : List Char) : Entry :=
  ⟨name, none, bare (encodeText name), bare cs⟩

/-- A member of an unknown name is an entry that fits, whatever value it holds. -/
theorem besideEntry_fits {omits : Bool} {members : List (String × Value)} {name : String}
    {cs : List Char} (unknown : name ∉ members.map Prod.fst) (isValue : IsValue cs) :
    (besideEntry name cs).Fits omits members where
  own _ none := nomatch none
  added _ := ⟨unknown, isValue⟩
  name := textForm_encodeText name
  spaced := ⟨bare_isSpaced _, bare_isSpaced _⟩

/-- A list of one item. -/
theorem spells_item {omits : Bool} {v : Value} {cs : List Char} (spelled : Spells omits v cs) :
    Spells omits (.list [v]) (bracketed '[' ']' [] [(bare cs).chars]) := by
  refine @Spells.list omits _ [] [(v, bare cs)] rfl (fun _ none => nomatch none) ?_ ?_
  · intro item mem
    rw [List.mem_singleton.mp mem]
    exact bare_isSpaced cs
  · intro item mem
    rw [List.mem_singleton.mp mem]
    exact spelled

/-- An object of which one member is written. -/
theorem spells_member {omits : Bool} {members : List (String × Value)} {name : String} {v : Value}
    {cs : List Char} (mem : (name, v) ∈ members) (spelled : Spells omits v cs)
    (others : ∀ m ∈ members, name = m.1 ∨ (omits = true ∧ m.2.emptied = m.2)) :
    Spells omits (.object members)
      (bracketed '\x7b' '\x7d' [] [(bareEntry name v cs).pair.chars]) := by
  refine @spells_of_fits omits members [] [bareEntry name v cs] ?_ (List.pairwise_singleton _ _)
    ?_ fun _ none => nomatch none
  · intro e single
    rw [List.mem_singleton.mp single]
    exact bareEntry_fits mem spelled
  · intro m listed
    exact (others m listed).imp (fun same => ⟨_, List.mem_cons_self, same⟩) id

theorem itemChars_eq_map (items : List Value) : itemChars items = items.map Value.chars := by
  induction items with
  | nil => rfl
  | cons v items ih => rw [itemChars, ih, List.map_cons]

/-- The members of an object are written each as its bare entry. -/
theorem memberChars_eq_map (members : List (String × Value)) :
    memberChars members = members.map fun m => (bareEntry m.1 m.2 m.2.chars).pair.chars := by
  induction members with
  | nil => rfl
  | cons m members ih =>
      obtain ⟨name, v⟩ := m
      rw [memberChars, ih, List.map_cons, bareEntry, Pair.chars, bare_chars, bare_chars]

/-- **COMPACT TEXTS**: the compact text of a value spells that value. -/
theorem Value.Distinct.spells {omits : Bool} {v : Value} (h : v.Distinct) :
    Spells omits v v.chars := by
  -- the parts of a bracket are written bare, one for each item or member
  induction h with
  | null => exact .null
  | bool b => exact .bool b
  | int n => exact .int n
  | text s => exact .text (textForm_encodeText s)
  | @list items _ ih =>
      have spelled : Spells omits (.list items)
          (bracketed '[' ']' [] ((items.map fun v => (v, bare v.chars)).map
            fun item => item.2.chars)) := by
        refine .list ?_ (fun _ none => nomatch none) ?_ ?_
        · rw [List.map_map]
          exact List.map_id items
        · intro item mem
          obtain ⟨v, -, rfl⟩ := List.mem_map.mp mem
          exact bare_isSpaced v.chars
        · intro item mem
          obtain ⟨v, listed, rfl⟩ := List.mem_map.mp mem
          exact ih v listed
      rw [List.map_map] at spelled
      rw [Value.chars, itemChars_eq_map]
      have same : (items.map ((fun item => item.2.chars) ∘ fun v => (v, bare v.chars)))
          = items.map Value.chars := List.map_congr_left fun v _ => bare_chars v.chars
      rwa [same] at spelled
  | @object members names _ ih =>
      have spelled : Spells omits (.object members)
          (bracketed '\x7b' '\x7d' [] ((members.map fun m => bareEntry m.1 m.2 m.2.chars).map
            fun e => e.pair.chars)) := by
        refine spells_of_fits ?_ ?_ ?_ fun _ none => nomatch none
        · intro e mem
          obtain ⟨m, listed, rfl⟩ := List.mem_map.mp mem
          exact bareEntry_fits listed (ih m listed)
        · rw [List.pairwise_map]
          exact (List.pairwise_map.mp names).imp fun differ => fun _ => differ
        · intro m listed
          exact Or.inl ⟨_, List.mem_map_of_mem listed, rfl⟩
      rw [List.map_map] at spelled
      rw [Value.chars, memberChars_eq_map]
      exact spelled

end Courier.Json
