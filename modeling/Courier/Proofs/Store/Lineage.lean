import Courier.Proofs.Store.Access

/-! # Lineage — what becomes of a stored record under the accesses of anybody

    An update writes just if it carries the version that is stored (`Accepts`).
    So a stored record stays as it is or gives way to one under a higher
    version, and whoever finds the version that it once read finds the very
    record (`look_of_follows`).

    In a database this holds for ever, since versions there never come back.
    In memory they are counted round: 2^64 updates lead back to the same
    version, so the number of accesses in between has to be bounded there. -/

namespace Courier

/-- The place of a version among those that a row can have; the real number is behind them all. -/
def VersionCell.rank : VersionCell → Int
  | integer n => n.toInt
  | real => 9223372036854775808

/-- An update raises the version of a row, as long as that is an integer. -/
theorem VersionCell.rank_next (n : Int64) :
    (VersionCell.integer n).next.rank = (VersionCell.integer n).rank + 1 := by
  have lowest := n.le_toInt
  by_cases greatest : n = Int64.maxValue
  · subst greatest
    rfl
  · have highest := n.toInt_le
    have ne : n.toInt ≠ Int64.maxValue.toInt := fun same => greatest (Int64.toInt_inj.mp same)
    rw [Int64.toInt_maxValue] at ne highest
    rw [next, if_neg greatest]
    show (n + 1).toInt = n.toInt + 1
    rw [Int64.toInt_add]
    exact Int.bmod_eq_of_le (by simp; omega) (by simp; omega)

namespace Database

theorem rank_versionForRow_nonneg (n : UInt64) :
    0 ≤ (VersionCell.integer (versionForRow n)).rank := by
  show 0 ≤ (versionForRow n).toInt
  rw [versionForRow]
  split
  · next small => rw [Int64.toInt_ofNat_of_lt small]; exact Int.natCast_nonneg _
  · rw [Int64.toInt_maxValue]; decide

/-- The version of a row comes back from the record that it was read as, if it was not negative. -/
theorem versionForRow_versionOfRow {n : Int64} (h : 0 ≤ n.toInt) :
    versionForRow (versionOfRow n) = n := by
  have highest := n.toInt_le
  rw [Int64.toInt_maxValue] at highest
  have small : n.toInt.toNat < 9223372036854775808 := by omega
  have same : (versionOfRow n).toNat = n.toInt.toNat :=
    UInt64.toNat_ofNat_of_lt' (Nat.lt_trans small (by decide))
  rw [versionForRow, same, if_pos small]
  refine Int64.toInt_inj.mp ?_
  rw [Int64.toInt_ofNat_of_lt small]
  omega

/-- A record read from a row has its version, whatever that was. -/
theorem versionOfRow_versionForRow (n : Int64) :
    versionOfRow (versionForRow (versionOfRow n)) = versionOfRow n := by
  by_cases h : 0 ≤ n.toInt
  · rw [versionForRow_versionOfRow h]
  · have zero : versionOfRow n = 0 := by
      rw [versionOfRow, Int.toNat_of_nonpos (by omega)]
      rfl
    rw [zero]
    decide

end Database

namespace Store

/-! ## What a store has at a location -/

/-- The data at a location, whatever their version. -/
def dataAt? (s : Store) (l : Location) : Option Fields :=
  match s with
  | memory m => (m.records.find? l).map Record.data
  | sqlite db => (db.rows.find? l).bind fun row => (Database.readData row.data).toOption

/-- The version at a location, as a record that is read there has it. -/
def versionAt? (s : Store) (l : Location) : Option UInt64 :=
  match s with
  | memory m => (m.records.find? l).map Record.version
  | sqlite db => (db.rows.find? l).bind fun row =>
    match row.version with
    | .integer n => some (Database.versionOfRow n)
    | .real => none

/-- Whether a location has no record but one of its own, as in every store that was empty once. -/
def IsKeyed (s : Store) (l : Location) : Prop :=
  match s with
  | memory m => ∀ r, m.records.find? l = some r → r.location = l
  | sqlite _ => True

/-- Whether a store lives in memory. -/
def IsMemory : Store → Prop
  | memory _ => True
  | sqlite _ => False

/-- Whether the first access of an update writes the record. -/
def Accepts (s : Store) (record : Record) : Prop :=
  ∃ stored, (s.start (.update record)).1 = some (.ok stored)

theorem isKeyed_of_isEmpty {s : Store} (h : s.IsEmpty) (l : Location) : s.IsKeyed l := by
  cases s with
  | memory m =>
      intro r there
      rw [Table.find?, show m.records.rows = [] from h] at there
      cases there
  | sqlite db => exact trivial

/-- A record that is selected from a database comes from a row with an integer version. -/
theorem row_of_look {db : Database} {l : Location} {record : Record}
    (found : (sqlite db).look l = .ok record) : ∃ text n,
      db.rows.find? l = some ⟨text, .integer n⟩ ∧
      ∃ data, Database.readData text = .ok data ∧ record = ⟨l, data, Database.versionOfRow n⟩ := by
  cases there : db.rows.find? l with
  | none =>
      simp only [look, Database.select, there, Database.recordOf] at found
      cases found
  | some row =>
      obtain ⟨text, version⟩ := row
      cases version with
      | real =>
          simp only [look, Database.select, there] at found
          cases found
      | integer n =>
          simp only [look, Database.select, there, Database.recordOf] at found
          cases read : Database.readData text with
          | error e =>
              rw [read] at found
              cases found
          | ok data =>
              rw [read] at found
              exact ⟨text, n, rfl, data, read, (Except.ok.inj found).symm⟩

/-! ## One access -/

/-- An update of a record in memory is decided by the version that is there. -/
theorem update_memory_of_find {m : MemoryStore} {record r : Record}
    (there : m.records.find? record.location = some r) :
    (memory m).start (.update record) =
      if r.version = record.version then
        (some (.ok { r with data := record.data, version := r.version + 1 }),
          memory ⟨m.records.put record.location
            { r with data := record.data, version := r.version + 1 }⟩)
      else (some (.error (.conflict record.location record.version)), memory m) := by
  simp only [start, MemoryStore.update, there]
  split <;> rfl

/-- In memory, an update writes just if it carries the stored version. -/
theorem accepts_memory {m : MemoryStore} {record : Record} (h : (memory m).Accepts record) :
    ∃ r, m.records.find? record.location = some r ∧ r.version = record.version ∧
      ((memory m).start (.update record)).2 = memory ⟨m.records.put record.location
        { r with data := record.data, version := r.version + 1 }⟩ := by
  obtain ⟨stored, answer⟩ := h
  cases there : m.records.find? record.location with
  | none =>
      simp only [start, MemoryStore.update, there] at answer
      cases answer
  | some r =>
      rw [update_memory_of_find there] at answer ⊢
      by_cases same : r.version = record.version
      · rw [if_pos same]
        exact ⟨r, rfl, same, rfl⟩
      · rw [if_neg same] at answer
        cases answer

/-- In a database, an update writes just if the row has the version that the record stands for. -/
theorem accepts_sqlite {db : Database} {record : Record} (h : (sqlite db).Accepts record) :
    ∃ row, db.rows.find? record.location = some row ∧
      row.version = .integer (Database.versionForRow record.version) ∧
      ((sqlite db).start (.update record)).2 = sqlite ⟨db.rows.put record.location
        ⟨Database.dataText record.data, row.version.next⟩⟩ := by
  obtain ⟨stored, answer⟩ := h
  cases there : db.rows.find? record.location with
  | none =>
      simp only [start, Database.writeWhere, there] at answer
      cases answer
  | some row =>
      by_cases same : row.version = .integer (Database.versionForRow record.version)
      · refine ⟨row, rfl, same, ?_⟩
        simp only [start, Database.writeWhere, there, if_pos same]
      · simp only [start, Database.writeWhere, there, if_neg same] at answer
        cases answer

/-- An update that is not accepted changes nothing. -/
theorem start_update_of_not_accepts {s : Store} {record : Record} (h : ¬s.Accepts record) :
    (s.start (.update record)).2 = s := by
  cases s with
  | memory m =>
      cases there : m.records.find? record.location with
      | none => simp only [start, MemoryStore.update, there]
      | some r =>
          by_cases same : r.version = record.version
          · refine absurd ⟨{ r with data := record.data, version := r.version + 1 }, ?_⟩ h
            rw [update_memory_of_find there, if_pos same]
          · rw [update_memory_of_find there, if_neg same]
  | sqlite db =>
      cases there : db.rows.find? record.location with
      | none => simp only [start, Database.writeWhere, there]
      | some row =>
          by_cases same : row.version = .integer (Database.versionForRow record.version)
          · refine absurd ⟨{ record with version := record.version + 1 }, ?_⟩ h
            simp only [start, Database.writeWhere, there, if_pos same]
            rfl
          · simp only [start, Database.writeWhere, there, if_neg same]

/-- An accepted update leaves its data at its location. -/
theorem Accepts.dataAt? {s : Store} {record : Record} (h : s.Accepts record) :
    (s.start (.update record)).2.dataAt? record.location = some record.data := by
  cases s with
  | memory m =>
      obtain ⟨r, -, -, written⟩ := accepts_memory h
      rw [written, Store.dataAt?, Table.find?_put_self]
      rfl
  | sqlite db =>
      obtain ⟨row, -, -, written⟩ := accepts_sqlite h
      rw [written, Store.dataAt?, Table.find?_put_self, Option.bind_some,
        Database.readData_dataText]
      rfl

/-- A read creates what is missing, and changes nothing else. -/
theorem start_get_cases (s : Store) (l : Location) :
    (s.start (.get l)).2 = s ∨ (s.Lacks l ∧ (s.start (.get l)).2.Holds l .empty 0) := by
  by_cases missing : s.Lacks l
  · have shows : s.Shows l .empty 0 := Or.inr ⟨missing, rfl, rfl⟩
    obtain ⟨s', held, started⟩ := shows.start_get
    rw [started.store]
    exact Or.inr ⟨missing, held⟩
  · exact Or.inl (start_get_of_not_lacks missing)

/-- Accesses leave a record in memory under its location. -/
theorem IsKeyed.start {s : Store} {l : Location} (h : s.IsKeyed l) (op : Operation) :
    (s.start op).2.IsKeyed l := by
  cases s with
  | sqlite db => cases op <;> exact trivial
  | memory m =>
      -- what is put at the location of an operation is a record of that location
      by_cases here : l = op.location
      · subst here
        cases op with
        | get l =>
            rcases start_get_cases (memory m) l with same | ⟨-, held⟩
            · rw [same]
              exact h
            · intro r there
              have created : (m.getOrCreate l).2.records.find? l = some ⟨l, .empty, 0⟩ := held
              have same := Option.some.inj (created.symm.trans there)
              rw [← same]
              rfl
        | update record =>
            by_cases accepts : (memory m).Accepts record
            · obtain ⟨r, there, -, written⟩ := accepts_memory accepts
              rw [written]
              intro r' there'
              rw [Operation.location, Table.find?_put_self] at there'
              rw [← Option.some.inj there']
              exact h r there
            · rw [start_update_of_not_accepts accepts]
              exact h
      · have same := sameAt_start (memory m) op here
        cases op with
        | get l' => exact fun r there => h r (same.trans there)
        | update record => exact fun r there => h r (same.trans there)

/-- A record that is read from a location names it. -/
theorem IsKeyed.location_eq {s : Store} {l : Location} (h : s.IsKeyed l) {record : Record}
    (found : s.look l = .ok record) : record.location = l := by
  cases s with
  | memory m => exact h record (find?_of_look found)
  | sqlite db =>
      obtain ⟨text, n, -, data, -, rfl⟩ := row_of_look found
      rfl

/-! ## Any number of accesses -/

/-- Whether up to `n` accesses can have led from one store to another, by what is at a location: it
    is the same, or the version has been raised. -/
def Follows (l : Location) (n : Nat) : Store → Store → Prop
  | memory m, memory m' => ∀ r, m.records.find? l = some r →
    ∃ r', m'.records.find? l = some r' ∧
      (r' = r ∨ ∃ k, 0 < k ∧ k ≤ n ∧ r'.version = r.version + .ofNat k)
  | sqlite db, sqlite db' => ∀ row, db.rows.find? l = some row →
    ∃ row', db'.rows.find? l = some row' ∧
      (row' = row ∨ (0 ≤ row.version.rank ∧ row.version.rank < row'.version.rank))
  | _, _ => False

variable {s s' s'' : Store} {l : Location} {n : Nat}

theorem Follows.refl (l : Location) (s : Store) : s.Follows l 0 s := by
  cases s with
  | memory m => exact fun r there => ⟨r, there, Or.inl rfl⟩
  | sqlite db => exact fun row there => ⟨row, there, Or.inl rfl⟩

/-- A store follows one of its own kind. -/
theorem Follows.kinds (h : s.Follows l n s') :
    (∃ m m', s = memory m ∧ s' = memory m') ∨ ∃ db db', s = sqlite db ∧ s' = sqlite db' := by
  cases s with
  | memory m =>
      cases s' with
      | memory m' => exact Or.inl ⟨m, m', rfl, rfl⟩
      | sqlite db' => exact absurd h id
  | sqlite db =>
      cases s' with
      | memory m' => exact absurd h id
      | sqlite db' => exact Or.inr ⟨db, db', rfl, rfl⟩

/-- What leaves a location as it is may be done in addition. -/
theorem Follows.sameAt (h : s.Follows l n s') (same : SameAt l s' s'') :
    s.Follows l (n + 1) s'' := by
  obtain ⟨m', m'', rfl, rfl, same⟩ | ⟨db', db'', rfl, rfl, same⟩ := same.kinds
  · obtain ⟨m, _, rfl, -⟩ | ⟨_, _, -, ⟨⟩⟩ := h.kinds
    intro r there
    obtain ⟨r', there', path⟩ := h r there
    refine ⟨r', same.symm.trans there', ?_⟩
    rcases path with rfl | ⟨k, pos, few, raised⟩
    · exact Or.inl rfl
    · exact Or.inr ⟨k, pos, Nat.le_succ_of_le few, raised⟩
  · obtain ⟨_, _, -, ⟨⟩⟩ | ⟨db, _, rfl, -⟩ := h.kinds
    intro row there
    obtain ⟨row', there', path⟩ := h row there
    exact ⟨row', same.symm.trans there', path⟩

/-- An accepted update raises the version. -/
theorem Follows.update (h : s.Follows l n s') {record : Record} (here : record.location = l)
    (accepts : s'.Accepts record) : s.Follows l (n + 1) (s'.start (.update record)).2 := by
  subst here
  obtain ⟨m, m', rfl, rfl⟩ | ⟨db, db', rfl, rfl⟩ := h.kinds
  · obtain ⟨stored, found, -, written⟩ := accepts_memory accepts
    rw [written]
    intro r there
    refine ⟨_, Table.find?_put_self .., Or.inr ?_⟩
    obtain ⟨r', there', path⟩ := h r there
    obtain rfl : r' = stored := Option.some.inj (there'.symm.trans found)
    rcases path with rfl | ⟨k, -, few, raised⟩
    · exact ⟨1, Nat.one_pos, Nat.le_add_left 1 n, rfl⟩
    · refine ⟨k + 1, Nat.succ_pos k, Nat.succ_le_succ few, ?_⟩
      show r'.version + 1 = r.version + .ofNat (k + 1)
      rw [raised, UInt64.ofNat_add, UInt64.add_assoc]
      rfl
  · obtain ⟨stored, found, version, written⟩ := accepts_sqlite accepts
    rw [written]
    intro row there
    refine ⟨_, Table.find?_put_self .., Or.inr ?_⟩
    obtain ⟨row', there', path⟩ := h row there
    obtain rfl : row' = stored := Option.some.inj (there'.symm.trans found)
    -- the update was accepted, so the version in the row is one that a record can carry
    have above := Database.rank_versionForRow_nonneg record.version
    have raised := VersionCell.rank_next (Database.versionForRow record.version)
    rw [← version] at above raised
    show 0 ≤ row.version.rank ∧ row.version.rank < row'.version.next.rank
    rcases path with rfl | ⟨nonneg, below⟩
    · exact ⟨above, by omega⟩
    · exact ⟨nonneg, by omega⟩

/-- A read leaves what is there. -/
theorem Follows.get (h : s.Follows l n s') : s.Follows l (n + 1) (s'.start (.get l)).2 := by
  rcases start_get_cases s' l with same | ⟨missing, -⟩
  · rw [same]
    exact h.sameAt (.refl l s')
  · -- nothing was there before either
    obtain ⟨m, m', rfl, rfl⟩ | ⟨db, db', rfl, rfl⟩ := h.kinds
    · intro r there
      obtain ⟨r', there', -⟩ := h r there
      exact nomatch there'.symm.trans missing
    · intro row there
      obtain ⟨row', there', -⟩ := h row there
      exact nomatch there'.symm.trans missing

/-- **ONE MORE ACCESS**: what follows a store still does behind one more access. -/
theorem Follows.start (h : s.Follows l n s') (op : Operation) :
    s.Follows l (n + 1) (s'.start op).2 := by
  by_cases here : l = op.location
  · cases op with
    | get l' =>
        obtain rfl : l = l' := here
        exact h.get
    | update record =>
        by_cases accepts : s'.Accepts record
        · exact h.update here.symm accepts
        · rw [start_update_of_not_accepts accepts]
          exact h.sameAt (.refl l s')
  · exact h.sameAt (sameAt_start s' op here)

/-- Where an update is accepted under a version that was read, that version is stored. -/
theorem versionAt?_of_follows {record edited : Record} (h : s.Follows l n s')
    (found : s.look l = .ok record) (here : edited.location = l)
    (same : edited.version = record.version) (accepts : s'.Accepts edited) :
    s'.versionAt? l = some record.version := by
  subst here
  obtain ⟨m, m', rfl, rfl⟩ | ⟨db, db', rfl, rfl⟩ := h.kinds
  · obtain ⟨stored, there, version, -⟩ := accepts_memory accepts
    simp only [versionAt?, there, Option.map_some]
    rw [version, same]
  · obtain ⟨text, version, -, data, -, rfl⟩ := row_of_look found
    obtain ⟨stored, there, stands, -⟩ := accepts_sqlite accepts
    simp only [versionAt?, there, Option.bind_some, stands]
    rw [same, Database.versionOfRow_versionForRow]

/-- **NO VERSION COMES BACK**: where an update is accepted under a version that was read, the very
    record that was read is stored. -/
theorem look_of_follows {record edited : Record} (h : s.Follows l n s')
    (found : s.look l = .ok record) (here : edited.location = l)
    (same : edited.version = record.version) (accepts : s'.Accepts edited)
    (few : s'.IsMemory → n < UInt64.size) : s'.look l = .ok record := by
  subst here
  obtain ⟨m, m', rfl, rfl⟩ | ⟨db, db', rfl, rfl⟩ := h.kinds
  · obtain ⟨stored, there', version, -⟩ := accepts_memory accepts
    obtain ⟨r', found', path⟩ := h record (find?_of_look found)
    obtain rfl : r' = stored := Option.some.inj (found'.symm.trans there')
    rcases path with rfl | ⟨k, pos, most, raised⟩
    · simp only [look, MemoryStore.snapshot, there']
    · -- so few updates do not lead round to the same version
      rw [version, same] at raised
      have bound : k < UInt64.size := Nat.lt_of_le_of_lt most (few trivial)
      have round := congrArg UInt64.toNat (UInt64.left_eq_add.mp raised)
      rw [UInt64.toNat_ofNat_of_lt' bound] at round
      exact absurd round (Nat.ne_of_gt pos)
  · obtain ⟨text, version, there, data, read, rfl⟩ := row_of_look found
    obtain ⟨stored, there', version', -⟩ := accepts_sqlite accepts
    obtain ⟨row', found', path⟩ := h _ there
    obtain rfl : row' = stored := Option.some.inj (found'.symm.trans there')
    rcases path with rfl | ⟨nonneg, below⟩
    · simp only [look, Database.select, there', Database.recordOf, read]
    · -- the version that was read is the stored one, which has been raised since
      rw [same, Database.versionForRow_versionOfRow nonneg] at version'
      rw [version'] at below
      exact absurd below (Int.lt_irrefl _)

end Store

end Courier
