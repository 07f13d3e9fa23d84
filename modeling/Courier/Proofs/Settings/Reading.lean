import Courier.Proofs.Settings.Merge
import Courier.Settings.Basic
import Mathlib.Data.List.Pairwise

/-! # Reading tables — fields that do not get into each other's way

    A field is a key with a reader and with a place in the whole, where a
    value can be stored and found again.  If no two fields of a shape share a
    place, the order of the entries does not matter: a table is refused only for
    one of its entries (`blames_of_error`), each value is found in its field
    (`readEntries_get`), and with another value for one key just this field
    changes (`readEntries_replace`). -/

namespace Courier

namespace Shape

/-- A key of a table, the reader of its value, and where the value is in the whole. -/
structure Field (σ : Type) where
  key : String
  {α : Type}
  read : SettingReader α
  get : σ → α
  store : α → σ → σ
  get_store : ∀ v x, get (store v x) = v := by intros; rfl
  store_store : ∀ v w x, store v (store w x) = store v x := by intros; rfl

namespace Field

variable {σ : Type}

/-- A field as a slot of a shape. -/
def slot (f : Field σ) : Slot σ := .of f.key f.read f.store

theorem slot_read (f : Field σ) (c : SettingTree) : f.slot.read c = (f.read c).map f.store := rfl

/-- Whether two fields have different keys and different places. -/
def Apart (f g : Field σ) : Prop :=
  f.key ≠ g.key ∧ ∀ v w x, f.store v (g.store w x) = g.store w (f.store v x)

instance : Std.Symm (@Apart σ) := ⟨fun _ _ h => ⟨h.1.symm, fun v w x => (h.2 w v x).symm⟩⟩

end Field

/-- Whether the slots of a shape are those of fields of which any two are apart. -/
structure IsMadeOf {σ : Type} (s : Shape σ) (fields : List (Field σ)) : Prop where
  slots : s.slots = fields.map Field.slot
  apart : fields.Pairwise Field.Apart

variable {σ : Type} {s : Shape σ} {fields : List (Field σ)} {f : Field σ} {start r : σ}
  {es front back : List (String × SettingTree)}

namespace IsMadeOf

theorem keys_eq (made : s.IsMadeOf fields) : s.keys = fields.map Field.key := by
  rw [keys, made.slots, List.map_map]
  rfl

/-- The slot of a field is found by its key. -/
theorem find?_slot (made : s.IsMadeOf fields) (hf : f ∈ fields) :
    (s.slots.find? fun slot => slot.key == f.key) = some f.slot := by
  obtain ⟨before, after, whole⟩ := List.append_of_mem hf
  have apart := made.apart
  rw [whole] at apart
  refine List.find?_eq_some_iff_append.mpr ⟨beq_self_eq_true f.key, before.map Field.slot,
    after.map Field.slot, ?_, ?_⟩
  · rw [made.slots, whole, List.map_append, List.map_cons]
  · rw [List.forall_mem_map]
    intro g hg
    have other : g.key ≠ f.key :=
      ((List.pairwise_append.mp apart).2.2 g hg f List.mem_cons_self).1
    exact bne_iff_ne.mpr other

/-- A key that the shape has not is found in no slot. -/
theorem find?_eq_none {key : String} (h : key ∉ s.keys) :
    (s.slots.find? fun slot => slot.key == key) = none := by
  refine List.find?_eq_none.mpr fun slot mem same => h ?_
  exact List.mem_map.mpr ⟨slot, mem, eq_of_beq same⟩

/-- A key of the shape is that of a field. -/
theorem exists_field (made : s.IsMadeOf fields) {key : String} (h : key ∈ s.keys) :
    ∃ f ∈ fields, f.key = key := by
  rw [made.keys_eq] at h
  exact List.mem_map.mp h

/-- Two fields of one key are one field. -/
theorem apart_of_ne (made : s.IsMadeOf fields) {g : Field σ} (hf : f ∈ fields) (hg : g ∈ fields)
    (h : f.key ≠ g.key) : f.Apart g :=
  made.apart.forall hf hg fun same => h (same ▸ rfl)

end IsMadeOf

/-! ## Entry by entry -/

/-- An entry of a field is read by it, and the rest goes on from what it stored. -/
theorem readEntries_cons (made : s.IsMadeOf fields) (hf : f ∈ fields) (start : σ)
    (c : SettingTree) (rest : List (String × SettingTree)) :
    s.readEntries start ((f.key, c) :: rest) =
      match f.read c with
      | .ok v => s.readEntries (f.store v start) rest
      | .error fault => .error (fault.under f.key) := by
  rw [readEntries, made.find?_slot hf]
  simp only [Field.slot_read]
  cases f.read c <;> rfl

/-- An entry of an unknown key is refused by a strict shape, and passed over by another. -/
theorem readEntries_cons_unknown {key : String} (h : key ∉ s.keys)
    (start : σ) (c : SettingTree) (rest : List (String × SettingTree)) :
    s.readEntries start ((key, c) :: rest) =
      if s.isStrict then .error ⟨[key], .unknownKey key s.keys⟩ else s.readEntries start rest := by
  rw [readEntries, IsMadeOf.find?_eq_none h]

/-- Entries in two parts are read in two parts. -/
theorem readEntries_append (made : s.IsMadeOf fields) (start : σ)
    (front back : List (String × SettingTree)) :
    s.readEntries start (front ++ back) =
      (s.readEntries start front).bind fun r => s.readEntries r back := by
  induction front generalizing start with
  | nil => rfl
  | cons e rest ih =>
      obtain ⟨key, c⟩ := e
      by_cases known : key ∈ s.keys
      · obtain ⟨f, hf, rfl⟩ := made.exists_field known
        rw [List.cons_append, readEntries_cons made hf, readEntries_cons made hf]
        cases f.read c with
        | ok v => exact ih (f.store v start)
        | error fault => rfl
      · rw [List.cons_append, readEntries_cons_unknown known,
          readEntries_cons_unknown known]
        split
        · rfl
        · exact ih start

/-- A value that is stored before entries of other keys are read is stored as well behind them. -/
theorem readEntries_store (made : s.IsMadeOf fields) (hf : f ∈ fields) (v : f.α)
    (other : ∀ e ∈ es, e.1 ≠ f.key) (start : σ) :
    s.readEntries (f.store v start) es = (s.readEntries start es).map (f.store v) := by
  induction es generalizing start with
  | nil => rfl
  | cons e rest ih =>
      obtain ⟨key, c⟩ := e
      have others : ∀ e ∈ rest, e.1 ≠ f.key := fun e mem => other e (List.mem_cons_of_mem _ mem)
      by_cases known : key ∈ s.keys
      · obtain ⟨g, hg, rfl⟩ := made.exists_field known
        have apart := made.apart_of_ne hg hf (other (g.key, c) List.mem_cons_self)
        rw [readEntries_cons made hg, readEntries_cons made hg]
        cases g.read c with
        | ok w =>
            show s.readEntries (g.store w (f.store v start)) rest = _
            rw [apart.2]
            exact ih others (g.store w start)
        | error fault => rfl
      · rw [readEntries_cons_unknown known, readEntries_cons_unknown known]
        split
        · rfl
        · exact ih others start

/-! ## Whole tables -/

/-- What a table can be refused for: what one of its entries has, or a key that it may not have. -/
inductive Blames (s : Shape σ) (fields : List (Field σ)) (es : List (String × SettingTree)) :
    SettingFault → Prop where
  | value {f : Field σ} {c : SettingTree} {below : SettingFault} (field : f ∈ fields)
      (entry : (f.key, c) ∈ es) (refused : f.read c = .error below) :
      Blames s fields es (below.under f.key)
  | key {key : String} {c : SettingTree} (strict : s.isStrict = true) (entry : (key, c) ∈ es)
      (unknown : key ∉ s.keys) : Blames s fields es ⟨[key], .unknownKey key s.keys⟩

/-- A fault that an entry is blamed for is blamed on more entries too. -/
theorem Blames.cons {fault : SettingFault} (h : s.Blames fields es fault)
    (e : String × SettingTree) : s.Blames fields (e :: es) fault := by
  cases h with
  | value field entry refused => exact .value field (List.mem_cons_of_mem _ entry) refused
  | key strict entry unknown => exact .key strict (List.mem_cons_of_mem _ entry) unknown

/-- **REFUSED TABLES**: a table that cannot be read is refused for one of its entries. -/
theorem blames_of_error (made : s.IsMadeOf fields) {fault : SettingFault}
    (h : s.readEntries start es = .error fault) : s.Blames fields es fault := by
  induction es generalizing start with
  | nil => exact nomatch h
  | cons e rest ih =>
      obtain ⟨key, c⟩ := e
      by_cases known : key ∈ s.keys
      · obtain ⟨f, hf, rfl⟩ := made.exists_field known
        rw [readEntries_cons made hf] at h
        cases read : f.read c with
        | ok v =>
            rw [read] at h
            exact (ih h).cons _
        | error below =>
            rw [read] at h
            obtain rfl := Except.error.inj h
            exact .value hf List.mem_cons_self read
      · rw [readEntries_cons_unknown known] at h
        split at h
        · next strict =>
            obtain rfl := Except.error.inj h
            exact .key strict List.mem_cons_self known
        · exact (ih h).cons _

/-- A strict table that can be read has no other keys than its fields. -/
theorem mem_keys_of_readEntries (made : s.IsMadeOf fields) (strict : s.isStrict = true)
    (h : s.readEntries start es = .ok r) {key : String} {c : SettingTree} (mem : (key, c) ∈ es) :
    key ∈ s.keys := by
  refine Decidable.byContradiction fun unknown => ?_
  obtain ⟨front, back, rfl⟩ := List.append_of_mem mem
  rw [readEntries_append made] at h
  cases before : s.readEntries start front with
  | error fault =>
      rw [before] at h
      exact nomatch h
  | ok mid =>
      rw [before] at h
      replace h : s.readEntries mid ((key, c) :: back) = .ok r := h
      rw [readEntries_cons_unknown unknown, if_pos strict] at h
      exact nomatch h

/-- **ONE VALUE FOR ANOTHER**: let a table be read with some value for the key of a field.  With
    another value it is read as that, or refused for it. -/
theorem readEntries_replace (made : s.IsMadeOf fields) (hf : f ∈ fields) {c : SettingTree}
    (other : ∀ e ∈ back, e.1 ≠ f.key)
    (h : s.readEntries start (front ++ (f.key, c) :: back) = .ok r) (c' : SettingTree) :
    s.readEntries start (front ++ (f.key, c') :: back) =
      match f.read c' with
      | .ok v => .ok (f.store v r)
      | .error fault => .error (fault.under f.key) := by
  rw [readEntries_append made] at h ⊢
  cases before : s.readEntries start front with
  | error fault =>
      rw [before] at h
      exact nomatch h
  | ok mid =>
      rw [before] at h
      replace h : s.readEntries mid ((f.key, c) :: back) = .ok r := h
      show s.readEntries mid ((f.key, c') :: back) = _
      rw [readEntries_cons made hf] at h ⊢
      cases read : f.read c with
      | error fault =>
          rw [read] at h
          exact nomatch h
      | ok v =>
          rw [read] at h
          replace h : s.readEntries (f.store v mid) back = .ok r := h
          -- no later entry has the key, so the value is as good as stored last
          rw [readEntries_store made hf v other] at h
          cases behind : s.readEntries mid back with
          | error fault =>
              rw [behind] at h
              exact nomatch h
          | ok last =>
              rw [behind] at h
              obtain rfl : f.store v last = r := Except.ok.inj h
              cases f.read c' with
              | error fault => rfl
              | ok w =>
                  show s.readEntries (f.store w mid) back = .ok (f.store w (f.store v last))
                  rw [readEntries_store made hf w other, behind, f.store_store]
                  rfl

/-- An entry of ascending entries, those in front of it and those behind it, of which none has its
    key. -/
theorem exists_around (asc : AscendingKeys es) {key : String} {c : SettingTree}
    (mem : (key, c) ∈ es) :
    ∃ front back, es = front ++ (key, c) :: back ∧ ∀ e ∈ back, e.1 ≠ key := by
  obtain ⟨front, back, rfl⟩ := List.append_of_mem mem
  obtain ⟨least, -⟩ := List.pairwise_cons.mp (List.pairwise_append.mp asc).2.1
  exact ⟨front, back, rfl, fun e he same => String.lt_irrefl key (same ▸ least e he)⟩

/-- **EVERY VALUE IS IN ITS FIELD**: what the reader makes of an entry of a table that was read is
    what the field has afterwards. -/
theorem readEntries_get (made : s.IsMadeOf fields) (asc : AscendingKeys es)
    (h : s.readEntries start es = .ok r) (hf : f ∈ fields) {c : SettingTree}
    (mem : (f.key, c) ∈ es) : f.read c = .ok (f.get r) := by
  obtain ⟨front, back, rfl, other⟩ := exists_around asc mem
  have again := readEntries_replace made hf other h c
  rw [h] at again
  cases read : f.read c with
  | error fault =>
      rw [read] at again
      exact nomatch again
  | ok v =>
      rw [read] at again
      -- storing the value once more changes nothing, so it is the one that is there
      have same : r = f.store v r := Except.ok.inj again
      have found : f.get r = v := (congrArg f.get same).trans (f.get_store v r)
      rw [found]

/-! ## Tables as trees -/

/-- A table is read by its entries. -/
theorem read_table (s : Shape σ) (start : σ) {t : SettingTree} (h : t.IsTable) :
    s.read start t = s.readEntries start t.entries := by
  obtain ⟨es, rfl⟩ := h
  rfl

/-- In an ordered table the entries are exactly the children. -/
theorem mem_entries_iff {t c : SettingTree} {key : String} (asc : AscendingKeys t.entries) :
    (key, c) ∈ t.entries ↔ t.child? key = some c := (Entries.value?_eq_some_iff asc).symm

variable {t : SettingTree}

/-- **REFUSED TREES**: a table is refused for a value that a field does not take, or for a key that
    no field has. -/
theorem blames_of_read_error (made : s.IsMadeOf fields) (isTable : t.IsTable)
    {fault : SettingFault} (h : s.read start t = .error fault) :
    s.Blames fields t.entries fault := by
  rw [read_table s start isTable] at h
  exact blames_of_error made h

/-- What was read has in each field what the field reads from its child. -/
theorem read_get (made : s.IsMadeOf fields) (isTable : t.IsTable) (asc : AscendingKeys t.entries)
    (h : s.read start t = .ok r) (hf : f ∈ fields) {c : SettingTree}
    (hc : t.child? f.key = some c) : f.read c = .ok (f.get r) := by
  rw [read_table s start isTable] at h
  exact readEntries_get made asc h hf ((mem_entries_iff asc).mpr hc)

/-- What a strict shape reads has no unknown key. -/
theorem mem_keys_of_read (made : s.IsMadeOf fields) (strict : s.isStrict = true)
    (isTable : t.IsTable) (asc : AscendingKeys t.entries) (h : s.read start t = .ok r)
    {key : String} (set : (t.child? key).isSome) : key ∈ s.keys := by
  obtain ⟨c, hc⟩ := Option.isSome_iff_exists.mp set
  rw [read_table s start isTable] at h
  exact mem_keys_of_readEntries made strict h ((mem_entries_iff asc).mpr hc)

/-- **SETTING A FIELD**: let a tree be read with some value set at a field or below it.  With
    another value set there it is read as that, or refused for it. -/
theorem read_set (made : s.IsMadeOf fields) (asc : AscendingKeys t.entries) (hf : f ∈ fields)
    {rest : List String} {v : SettingTree} (h : s.read start (t.set (f.key :: rest) v) = .ok r)
    (w : SettingTree) : s.read start (t.set (f.key :: rest) w) =
      match f.read (((t.child? f.key).getD .absent).set rest w) with
      | .ok a => .ok (f.store a r)
      | .error fault => .error (fault.under f.key) := by
  obtain ⟨front, back, other, placed⟩ := Entries.exists_place asc f.key
  rw [SettingTree.set_cons, placed] at h ⊢
  exact readEntries_replace made hf other h _

/-! ## What does not matter -/

/-- Entries as their table sees them: what the slot of each key makes of the value there. -/
def seen (s : Shape σ) (es : List (String × SettingTree)) :
    List (String × Except SettingFault (σ → σ)) :=
  es.filterMap fun e =>
    (s.slots.find? fun slot => slot.key == e.1).map fun slot => (e.1, slot.read e.2)

/-- Stores what was read, up to the first fault. -/
def storeAll (start : σ) : List (String × Except SettingFault (σ → σ)) → Except SettingFault σ
  | [] => .ok start
  | (_, .ok store) :: rest => storeAll (store start) rest
  | (key, .error fault) :: _ => .error (fault.under key)

/-- A table that may have other keys is read as what it sees. -/
theorem readEntries_eq_storeAll (lenient : s.isStrict = false) (start : σ)
    (es : List (String × SettingTree)) : s.readEntries start es = storeAll start (s.seen es) := by
  induction es generalizing start with
  | nil => rfl
  | cons e rest ih =>
      rw [readEntries, seen, List.filterMap_cons]
      cases s.slots.find? fun slot => slot.key == e.1 with
      | none =>
          rw [lenient]
          exact ih start
      | some slot =>
          simp only [Option.map_some]
          cases slot.read e.2 with
          | ok store => exact ih (store start)
          | error fault => rfl

/-- The reading of a key among those of a table is what its slot reads from its value. -/
theorem value?_seen (s : Shape σ) (key : String) (es : List (String × SettingTree)) :
    Entries.value? key (s.seen es) =
      (s.slots.find? fun slot => slot.key == key).bind fun slot =>
        (Entries.value? key es).map slot.read := by
  induction es with
  | nil =>
      cases s.slots.find? fun slot => slot.key == key <;> rfl
  | cons e rest ih =>
      obtain ⟨k, c⟩ := e
      rw [seen, List.filterMap_cons]
      by_cases same : key = k
      · subst same
        rw [Entries.value?_cons_self]
        cases found : s.slots.find? fun slot => slot.key == key with
        | none =>
            rw [found] at ih
            exact ih
        | some slot => exact Entries.value?_cons_self ..
      · rw [Entries.value?_cons_of_ne c rest same, ← ih]
        cases s.slots.find? fun slot => slot.key == k with
        | none => rfl
        | some slot => exact Entries.value?_cons_of_ne _ _ same

theorem ascending_seen (s : Shape σ) (asc : AscendingKeys es) : AscendingKeys (s.seen es) := by
  refine List.Pairwise.filterMap _ (fun a b lt a' ha b' hb => ?_) asc
  obtain ⟨slot, -, rfl⟩ := Option.map_eq_some_iff.mp ha
  obtain ⟨slot', -, rfl⟩ := Option.map_eq_some_iff.mp hb
  exact lt

/-- **OTHER KEYS**: tables that may have other keys than their fields are read alike if each field
    reads the same. -/
theorem read_congr (made : s.IsMadeOf fields) (lenient : s.isStrict = false) (start : σ)
    {u : SettingTree} (isTable : t.IsTable) (isTable' : u.IsTable)
    (asc : AscendingKeys t.entries) (asc' : AscendingKeys u.entries)
    (same : ∀ f ∈ fields, (t.child? f.key).map f.read = (u.child? f.key).map f.read) :
    s.read start t = s.read start u := by
  rw [read_table s start isTable, read_table s start isTable', readEntries_eq_storeAll lenient,
    readEntries_eq_storeAll lenient]
  refine congrArg _ (Entries.eq_of_value? (ascending_seen s asc) (ascending_seen s asc') ?_)
  intro key
  rw [value?_seen, value?_seen]
  by_cases known : key ∈ s.keys
  · obtain ⟨f, hf, rfl⟩ := made.exists_field known
    have stored (c : Option SettingTree) :
        c.map f.slot.read = (c.map f.read).map (Except.map f.store) := by cases c <;> rfl
    rw [made.find?_slot hf, Option.bind_some, Option.bind_some, stored, stored]
    exact congrArg _ (same f hf)
  · rw [IsMadeOf.find?_eq_none known]
    rfl

end Shape

end Courier
