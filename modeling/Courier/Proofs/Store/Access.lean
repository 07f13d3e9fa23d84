import Courier.Proofs.Store.Rows
import Courier.Store.Basic

/-! # Store accesses — operations one statement at a time

    Other clients may act between the two statements of a database
    operation.  `start` is the first access of an operation: it does all the
    writing that there is, and knows the answer unless a selection has to
    follow.  `finish` is that selection, made on whatever the store has
    become by then.  An operation without anybody in between is one after
    the other (`perform_eq`).

    What an access does depends on what its location SHOWS: a record, or
    nothing, which reads like an empty record at version zero. -/

namespace Courier

/-- An operation of a record store. -/
inductive Operation where
  | get (location : Location)
  | update (record : Record)
  deriving DecidableEq

/-- The only location that an operation is about. -/
def Operation.location : Operation → Location
  | get location => location
  | update record => record.location

namespace Store

/-- An operation that nobody gets in between of. -/
def perform (s : Store) : Operation → Except StoreError Record × Store
  | .get location => s.getOrCreate location
  | .update record => s.update record

/-- The first access of an operation: the answer where it is known already, and the store. -/
def start : Store → Operation → Option (Except StoreError Record) × Store
  | memory m, .get location =>
    (some (.ok (m.getOrCreate location).1), memory (m.getOrCreate location).2)
  | memory m, .update record => (some (m.update record).1, memory (m.update record).2)
  | sqlite db, .get location => (none, sqlite (db.insertMissing location))
  | sqlite db, .update record =>
    let written := db.writeWhere record.location (Database.dataText record.data)
      (Database.versionForRow record.version)
    (if written.1 then some (.ok { record with version := record.version + 1 }) else none,
      sqlite written.2)

/-- The record at a location as a selection finds it. -/
def look (s : Store) (location : Location) : Except StoreError Record :=
  match s with
  | memory m =>
    match m.snapshot location with
    | some record => .ok record
    | none => .error (.notFound location)
  | sqlite db =>
    match db.select location with
    | .ok row => Database.recordOf location row
    | .error e => .error e

/-- What an update that wrote nothing answers from a selection. -/
def refusal (s : Store) (record : Record) : StoreError :=
  match s with
  | memory m =>
    match m.snapshot record.location with
    | some _ => .conflict record.location record.version
    | none => .notFound record.location
  | sqlite db => Database.refusal record (db.select record.location)

/-- The second access of an operation whose first one left the answer open. -/
def finish (s : Store) : Operation → Except StoreError Record
  | .get location => s.look location
  | .update record => .error (s.refusal record)

/-- Whether nothing was ever stored. -/
def IsEmpty : Store → Prop
  | memory m => m.records.rows = []
  | sqlite db => db.rows.rows = []

/-- Whether two stores have the same at a location. -/
def SameAt (l : Location) : Store → Store → Prop
  | memory m, memory m' => m.records.find? l = m'.records.find? l
  | sqlite db, sqlite db' => db.rows.find? l = db'.rows.find? l
  | _, _ => False

/-- Whether a store has the given data and version at a location. -/
def Holds (s : Store) (l : Location) (data : Fields) (version : UInt64) : Prop :=
  match s with
  | memory m => m.records.find? l = some ⟨l, data, version⟩
  | sqlite db => ∃ text, db.rows.find? l = some ⟨text, .integer (.ofNat version.toNat)⟩ ∧
      Database.readData text = .ok data ∧ version.toNat ≤ Database.greatestVersion

/-- Whether a store has nothing at a location. -/
def Lacks (l : Location) : Store → Prop
  | memory m => m.records.find? l = none
  | sqlite db => db.rows.find? l = none

/-- Whether a location reads as the given data and version, by what it has or by having nothing. -/
def Shows (s : Store) (l : Location) (data : Fields) (version : UInt64) : Prop :=
  s.Holds l data version ∨ (s.Lacks l ∧ data = .empty ∧ version = 0)

/-- Whether a version can be raised: rows end at the greatest signed number, memory goes round. -/
def HasRoom (s : Store) (version : UInt64) : Prop :=
  match s with
  | memory _ => True
  | sqlite _ => version.toNat < Database.greatestVersion

/-- The first access of an operation leads to `s'`, and an answer that is known by then is the
    given one. -/
def Starts (s : Store) (op : Operation) (answer : Except StoreError Record) (s' : Store) : Prop :=
  s.start op = (some answer, s') ∨ s.start op = (none, s')

variable {s s' : Store} {l : Location} {data : Fields} {version : UInt64}

/-- The store behind a first access is the one that the access starts. -/
theorem Starts.store {op : Operation} {answer : Except StoreError Record}
    (h : s.Starts op answer s') : (s.start op).2 = s' := by
  rcases h with h | h <;> rw [h]

/-- The answer that a first access knows is the one that is given. -/
theorem Starts.answer {op : Operation} {answer known : Except StoreError Record}
    (h : s.Starts op answer s') (hk : (s.start op).1 = some known) : known = answer := by
  rcases h with h | h
  · rw [h] at hk
    exact (Option.some.inj hk).symm
  · rw [h] at hk
    exact nomatch hk

/-- Nobody in between: an operation is its first access, and the second if that left it open. -/
theorem perform_eq (s : Store) (op : Operation) : s.perform op =
    ((s.start op).1.getD ((s.start op).2.finish op), (s.start op).2) := by
  cases s with
  | memory m => cases op <;> rfl
  | sqlite db =>
      cases op with
      | get location =>
          simp only [perform, getOrCreate, Database.getOrCreate, start, finish, look]
          cases (db.insertMissing location).select location <;> rfl
      | update record =>
          simp only [perform, update, Database.update, start, finish, refusal]
          split <;> next heq => rw [heq]; rfl

/-! ## The same at a location -/

theorem SameAt.refl (l : Location) (s : Store) : SameAt l s s := by
  cases s <;> exact rfl

/-- Only stores of one kind are the same at a location. -/
theorem SameAt.kinds (same : SameAt l s s') :
    (∃ m m', s = memory m ∧ s' = memory m' ∧ m.records.find? l = m'.records.find? l) ∨
    ∃ db db', s = sqlite db ∧ s' = sqlite db' ∧ db.rows.find? l = db'.rows.find? l := by
  cases s with
  | memory m =>
      cases s' with
      | memory m' => exact Or.inl ⟨m, m', rfl, rfl, same⟩
      | sqlite db' => exact absurd same id
  | sqlite db =>
      cases s' with
      | memory m' => exact absurd same id
      | sqlite db' => exact Or.inr ⟨db, db', rfl, rfl, same⟩

theorem SameAt.holds (same : SameAt l s s') (h : s.Holds l data version) :
    s'.Holds l data version := by
  obtain ⟨m, m', rfl, rfl, same⟩ | ⟨db, db', rfl, rfl, same⟩ := same.kinds
  · exact same.symm.trans h
  · obtain ⟨text, row, read, small⟩ := h
    exact ⟨text, same.symm.trans row, read, small⟩

theorem SameAt.lacks (same : SameAt l s s') (h : s.Lacks l) : s'.Lacks l := by
  obtain ⟨m, m', rfl, rfl, same⟩ | ⟨db, db', rfl, rfl, same⟩ := same.kinds
  · exact same.symm.trans h
  · exact same.symm.trans h

theorem SameAt.shows (same : SameAt l s s') (h : s.Shows l data version) :
    s'.Shows l data version := by
  rcases h with h | ⟨h, empty⟩
  · exact Or.inl (same.holds h)
  · exact Or.inr ⟨same.lacks h, empty⟩

/-- No first access takes away the room for a version. -/
theorem hasRoom_start (s : Store) (op : Operation) (version : UInt64) :
    (s.start op).2.HasRoom version ↔ s.HasRoom version := by
  cases s <;> cases op <;> exact Iff.rfl

/-- An access leaves every location alone but that of its operation. -/
theorem sameAt_start (s : Store) (op : Operation) (h : l ≠ op.location) :
    SameAt l s (s.start op).2 := by
  -- either kind of store puts at the location of the operation, or puts nothing
  cases s with
  | memory m =>
      cases op with
      | get location =>
          show _ = (m.getOrCreate location).2.records.find? l
          rw [MemoryStore.getOrCreate]
          split
          · rfl
          · exact (Table.find?_put_of_ne _ _ h).symm
      | update record =>
          show _ = (m.update record).2.records.find? l
          rw [MemoryStore.update]
          split
          · rfl
          · split
            · exact (Table.find?_put_of_ne _ _ h).symm
            · rfl
  | sqlite db =>
      cases op with
      | get location =>
          show _ = (db.insertMissing location).rows.find? l
          rw [Database.insertMissing]
          split
          · rfl
          · exact (Table.find?_put_of_ne _ _ h).symm
      | update record =>
          show _ = (db.writeWhere record.location _ _).2.rows.find? l
          rw [Database.writeWhere]
          split
          · split
            · exact (Table.find?_put_of_ne _ _ h).symm
            · rfl
          · rfl

/-! ## Reading -/

theorem Holds.look (h : s.Holds l data version) : s.look l = .ok ⟨l, data, version⟩ := by
  cases s with
  | memory m =>
      show (match m.records.find? l with | some record => _ | none => _) = _
      rw [show m.records.find? l = _ from h]
  | sqlite db =>
      obtain ⟨text, row, read, small⟩ := h
      simp only [Store.look, Database.select, row, Database.recordOf, read,
        Database.versionOfRow_ofNat small]

/-- Reading what is there changes nothing. -/
theorem start_get_of_not_lacks (h : ¬s.Lacks l) : (s.start (.get l)).2 = s := by
  cases s with
  | memory m =>
      show memory (m.getOrCreate l).2 = _
      rw [MemoryStore.getOrCreate]
      split
      · rfl
      · next missing => exact absurd missing h
  | sqlite db =>
      show sqlite (db.insertMissing l) = _
      rw [Database.insertMissing]
      split
      · rfl
      · next missing => exact absurd missing h

/-- A selection in memory finds what is stored. -/
theorem find?_of_look {m : MemoryStore} {record : Record}
    (found : (memory m).look l = .ok record) : m.records.find? l = some record := by
  cases there : m.records.find? l with
  | none =>
      simp only [look, MemoryStore.snapshot, there] at found
      cases found
  | some r =>
      simp only [look, MemoryStore.snapshot, there] at found
      rw [Except.ok.inj found]

theorem not_lacks_of_look {record : Record} (found : s.look l = .ok record) : ¬s.Lacks l := by
  intro missing
  cases s with
  | memory m => exact nomatch (find?_of_look found).symm.trans missing
  | sqlite db =>
      simp only [look, Database.select, show db.rows.find? l = none from missing] at found
      cases found

/-- A read of what a selection finds changes nothing, and answers just that. -/
theorem start_get_of_look {record : Record} (found : s.look l = .ok record) :
    s.Starts (.get l) (.ok record) s := by
  have same := start_get_of_not_lacks (not_lacks_of_look found)
  cases s with
  | memory m =>
      refine Or.inl (Prod.ext ?_ same)
      simp only [start, MemoryStore.getOrCreate, find?_of_look found]
  | sqlite db => exact Or.inr (Prod.ext rfl same)

/-- What a selection finds is what a read answers. -/
theorem getOrCreate_of_look {record : Record} (found : s.look l = .ok record) :
    (s.getOrCreate l).1 = .ok record := by
  show (s.perform (.get l)).1 = _
  rw [perform_eq]
  rcases start_get_of_look found with started | started
  · rw [started]
    rfl
  · rw [started]
    exact found

/-- Behind the first access of a read there is a record, the one that the location showed. -/
theorem Shows.start_get (h : s.Shows l data version) :
    ∃ s', s'.Holds l data version ∧ s.Starts (.get l) (.ok ⟨l, data, version⟩) s' := by
  rcases h with h | ⟨missing, rfl, rfl⟩
  · exact ⟨s, h, start_get_of_look h.look⟩
  · cases s with
    | memory m =>
        refine ⟨memory ⟨m.records.put l (.empty l)⟩, Table.find?_put_self .., Or.inl ?_⟩
        have created : m.getOrCreate l = (.empty l, ⟨m.records.put l (.empty l)⟩) := by
          rw [MemoryStore.getOrCreate, show m.records.find? l = none from missing]
        rw [start, created]
        rfl
    | sqlite db =>
        refine ⟨sqlite (db.insertMissing l), ⟨"\x7b\x7d", ?_, ?_, by decide⟩, Or.inr rfl⟩
        · rw [Database.insertMissing, show db.rows.find? l = none from missing]
          exact Table.find?_put_self ..
        · exact Database.readData_dataText .empty

/-- A location that shows something reads as that. -/
theorem Shows.getOrCreate (h : s.Shows l data version) :
    (s.getOrCreate l).1 = .ok ⟨l, data, version⟩ := by
  obtain ⟨s', held, started⟩ := h.start_get
  show (s.perform (.get l)).1 = _
  rw [perform_eq]
  rcases started with started | started
  · rw [started]
    rfl
  · rw [started]
    exact held.look

/-- An answer known behind the first access of an operation is the answer of the operation. -/
theorem perform_of_start {s s' : Store} {op : Operation} {answer : Except StoreError Record}
    (started : s.start op = (some answer, s')) : (s.perform op).1 = answer := by
  rw [perform_eq, started]
  rfl

/-! ## Updating -/

/-- An update against the stored version succeeds and raises it. -/
theorem Holds.start_update {record : Record} (h : s.Holds record.location data record.version)
    (room : s.HasRoom record.version) :
    ∃ s', s.start (.update record)
        = (some (.ok { record with version := record.version + 1 }), s') ∧
      s'.Holds record.location record.data (record.version + 1) := by
  cases s with
  | memory m =>
      have written : m.update record = (.ok { record with version := record.version + 1 },
          ⟨m.records.put record.location { record with version := record.version + 1 }⟩) := by
        rw [MemoryStore.update, show m.records.find? record.location = _ from h]
        exact if_pos rfl
      refine ⟨memory ⟨m.records.put record.location _⟩, ?_, Table.find?_put_self ..⟩
      rw [start, written]
  | sqlite db =>
      obtain ⟨text, row, read, small⟩ := h
      have written : db.writeWhere record.location (Database.dataText record.data)
          (Database.versionForRow record.version) = (true, ⟨db.rows.put record.location
            ⟨Database.dataText record.data, .integer (.ofNat (record.version + 1).toNat)⟩⟩) := by
        rw [Database.writeWhere, row]
        dsimp only
        rw [if_pos (by rw [Database.versionForRow_of_le small]), Database.next_integer room]
      have raised : (record.version + 1).toNat ≤ Database.greatestVersion := by
        rw [UInt64.toNat_add]
        exact Nat.le_trans (Nat.mod_le _ _) room
      refine ⟨sqlite ⟨db.rows.put record.location _⟩, ?_, Database.dataText record.data,
        Table.find?_put_self .., Database.readData_dataText _, raised⟩
      rw [start, written]
      rfl

/-- Where no row was written, a selection has to follow. -/
theorem start_update_of_unwritten {db : Database} {record : Record}
    (h : db.writeWhere record.location (Database.dataText record.data)
      (Database.versionForRow record.version) = (false, db)) :
    (sqlite db).start (.update record) = (none, sqlite db) := by
  rw [start, h]
  rfl

/-- What an update answers without having written. -/
theorem Holds.refusal {record : Record} (h : s.Holds record.location data version) :
    s.refusal record = .conflict record.location record.version := by
  cases s with
  | memory m =>
      show (match m.records.find? record.location with | some _ => _ | none => _) = _
      rw [show m.records.find? record.location = _ from h]
  | sqlite db =>
      obtain ⟨text, row, -⟩ := h
      simp only [Store.refusal, Database.select, row, Database.refusal]

/-- An update against another version than the stored one changes nothing, and is a conflict. -/
theorem Holds.start_update_of_ne {record : Record} (h : s.Holds record.location data version)
    (room : s.HasRoom record.version ∨ s.HasRoom version) (stale : record.version ≠ version) :
    s.Starts (.update record) (.error (.conflict record.location record.version)) s := by
  cases s with
  | memory m =>
      have refused : m.update record
          = (.error (.conflict record.location record.version), m) := by
        rw [MemoryStore.update, show m.records.find? record.location = _ from h]
        exact if_neg (Ne.symm stale)
      exact Or.inl (by rw [start, refused])
  | sqlite db =>
      obtain ⟨text, row, -, small⟩ := h
      refine Or.inr (start_update_of_unwritten ?_)
      rw [Database.writeWhere, row]
      -- with room, different versions are stored as different numbers
      exact if_neg fun same =>
        stale (Database.eq_of_versionForRow small room (VersionCell.integer.inj same))

/-- An update where nothing is stored changes nothing, and finds no record. -/
theorem start_update_of_lacks {record : Record} (h : s.Lacks record.location) :
    s.Starts (.update record) (.error (.notFound record.location)) s := by
  cases s with
  | memory m =>
      have refused : m.update record = (.error (.notFound record.location), m) := by
        rw [MemoryStore.update, show m.records.find? record.location = none from h]
      exact Or.inl (by rw [start, refused])
  | sqlite db =>
      refine Or.inr (start_update_of_unwritten ?_)
      rw [Database.writeWhere, show db.rows.find? record.location = none from h]

/-- An update either succeeds against the version that its location shows, or changes nothing. -/
theorem Shows.start_update {record : Record} (h : s.Shows record.location data version)
    (room : s.HasRoom version) :
    (record.version = version ∧ ∃ s', s.start (.update record)
        = (some (.ok { record with version := record.version + 1 }), s') ∧
      s'.Holds record.location record.data (record.version + 1)) ∨
    ∃ e, s.Starts (.update record) (.error e) s := by
  rcases h with held | ⟨missing, -⟩
  · by_cases same : record.version = version
    · subst same
      exact Or.inl ⟨rfl, held.start_update room⟩
    · exact Or.inr ⟨_, held.start_update_of_ne (Or.inr room) same⟩
  · exact Or.inr ⟨_, start_update_of_lacks missing⟩

end Store

end Courier
