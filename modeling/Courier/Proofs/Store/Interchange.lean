import Courier.Proofs.Store.Traffic
import Courier.Store.Connection

/-! # Interchange — a caller cannot tell which store it has

    A store in memory and one in a database answer every sequence of
    operations alike, with the database closed and opened again in between as
    often as one likes.  The relation (`Alike`) says that both have the same
    data under the same version at every location, and bounds the versions by
    the number of operations.  One operation answers alike and keeps the
    relation (`Alike.perform`); closing and opening keeps every row. -/

namespace Courier

/-- What may be answered to an operation that nothing goes wrong with. -/
def Operation.Allows : Operation → Except StoreError Record → Prop
  | get l, answer => ∃ data version, answer = .ok ⟨l, data, version⟩
  | update record, answer => answer = .ok { record with version := record.version + 1 } ∨
      answer = .error (.conflict record.location record.version) ∨
      answer = .error (.notFound record.location)

/-- What happens to a store: an operation, or it is closed and opened again. -/
inductive Visit where
  | operation (op : Operation)
  | reopening

/-- The operations among some visits. -/
def Visit.operations : List Visit → List Operation
  | [] => []
  | operation op :: rest => op :: operations rest
  | reopening :: rest => operations rest

namespace Store

/-- The answers to the operations of some visits. -/
def answers : Store → List Visit → List (Except StoreError Record)
  | _, [] => []
  | s, .operation op :: rest => (s.perform op).1 :: (s.perform op).2.answers rest
  | s, .reopening :: rest => s.reopened.answers rest

variable {s s' : Store} {l : Location} {data : Fields} {version : UInt64}

/-! ## Whole operations -/

/-- An operation whose first access leads to `s'` answers the same on the second one. -/
theorem Starts.perform {op : Operation} {answer : Except StoreError Record}
    (started : s.Starts op answer s') (second : s'.finish op = answer) :
    s.perform op = (answer, s') := by
  rw [perform_eq]
  rcases started with known | unknown
  · rw [known]
    rfl
  · rw [unknown]
    show (s'.finish op, s') = _
    rw [second]

/-- An operation leaves every location alone but its own. -/
theorem sameAt_perform (s : Store) (op : Operation) (h : l ≠ op.location) :
    SameAt l s (s.perform op).2 := by
  rw [perform_eq]
  exact s.sameAt_start op h

/-- A record that is there is got, and nothing changes. -/
theorem Holds.perform_get (h : s.Holds l data version) :
    s.perform (.get l) = (.ok ⟨l, data, version⟩, s) :=
  (start_get_of_look h.look).perform h.look

/-- Reading what is not there makes an empty record. -/
theorem Lacks.perform_get (h : s.Lacks l) :
    ∃ s', s.perform (.get l) = (.ok (.empty l), s') ∧ s'.Holds l .empty 0 := by
  have shows : s.Shows l .empty 0 := Or.inr ⟨h, rfl, rfl⟩
  obtain ⟨s', held, started⟩ := shows.start_get
  exact ⟨s', started.perform held.look, held⟩

/-- An update with the version that is there succeeds, and raises the version. -/
theorem Holds.perform_update {record : Record} (h : s.Holds record.location data record.version)
    (room : s.HasRoom record.version) :
    ∃ s', s.perform (.update record) = (.ok { record with version := record.version + 1 }, s') ∧
      s'.Holds record.location record.data (record.version + 1) := by
  obtain ⟨s', started, held⟩ := h.start_update room
  refine ⟨s', ?_, held⟩
  rw [perform_eq, started]
  rfl

/-- An update with another version is a conflict, and nothing changes. -/
theorem Holds.perform_update_of_ne {record : Record} (h : s.Holds record.location data version)
    (room : s.HasRoom version) (stale : record.version ≠ version) :
    s.perform (.update record) = (.error (.conflict record.location record.version), s) :=
  (h.start_update_of_ne (Or.inr room) stale).perform (congrArg Except.error h.refusal)

/-- An update of what is not there is refused as such. -/
theorem Lacks.refusal {record : Record} (h : s.Lacks record.location) :
    s.refusal record = .notFound record.location := by
  cases s with
  | memory m =>
      simp only [Store.refusal, MemoryStore.snapshot,
        show m.records.find? record.location = none from h]
  | sqlite db =>
      simp only [Store.refusal, Database.select, show db.rows.find? record.location = none from h,
        Database.refusal]

/-- An update of what is not there finds nothing, and nothing changes. -/
theorem Lacks.perform_update {record : Record} (h : s.Lacks record.location) :
    s.perform (.update record) = (.error (.notFound record.location), s) :=
  (start_update_of_lacks h).perform (congrArg Except.error h.refusal)

/-! ## Two stores with the same records -/

/-- Whether two stores have the same at a location, under a version up to a bound. -/
def AlikeAt (bound : Nat) (s s' : Store) (l : Location) : Prop :=
  (s.Lacks l ∧ s'.Lacks l) ∨
    ∃ data version, s.Holds l data version ∧ s'.Holds l data version ∧ version.toNat ≤ bound

/-- Whether two stores have the same everywhere. -/
def Alike (bound : Nat) (s s' : Store) : Prop := ∀ l, s.AlikeAt bound s' l

variable {bound : Nat} {t t' : Store}

theorem AlikeAt.mono (h : s.AlikeAt bound s' l) : s.AlikeAt (bound + 1) s' l := by
  rcases h with lack | ⟨data, version, held, held', few⟩
  · exact Or.inl lack
  · exact Or.inr ⟨data, version, held, held', Nat.le_succ_of_le few⟩

/-- What leaves a location alone in both stores leaves it alike. -/
theorem AlikeAt.congr (h : s.AlikeAt bound s' l) (same : SameAt l s t) (same' : SameAt l s' t') :
    t.AlikeAt bound t' l := by
  rcases h with ⟨lack, lack'⟩ | ⟨data, version, held, held', few⟩
  · exact Or.inl ⟨same.lacks lack, same'.lacks lack'⟩
  · exact Or.inr ⟨data, version, same.holds held, same'.holds held', few⟩

/-- A version within the bound can be raised, and is within the next bound then. -/
theorem hasRoom_of_le (s : Store) (few : bound < Database.greatestVersion)
    (le : version.toNat ≤ bound) : s.HasRoom version ∧ (version + 1).toNat ≤ bound + 1 := by
  have small : version.toNat < Database.greatestVersion := Nat.lt_of_le_of_lt le few
  constructor
  · have room := Traffic.hasRoom_of_lt (s := s) small
    rwa [UInt64.ofNat_toNat] at room
  · rw [UInt64.toNat_add]
    refine Nat.le_trans (Nat.mod_le _ _) ?_
    show version.toNat + 1 ≤ bound + 1
    omega

/-- An operation on stores that are alike at its location is answered alike, by what may be
    answered, and leaves them alike there. -/
theorem AlikeAt.perform {op : Operation} (alike : s.AlikeAt bound s' op.location)
    (few : bound < Database.greatestVersion) :
    ∃ answer t t', s.perform op = (answer, t) ∧ s'.perform op = (answer, t') ∧
      op.Allows answer ∧ t.AlikeAt (bound + 1) t' op.location := by
  cases op with
  | get l =>
      rcases alike with ⟨lack, lack'⟩ | ⟨data, version, held, held', le⟩
      · -- both make the empty record
        obtain ⟨t, read, held⟩ := Lacks.perform_get lack
        obtain ⟨t', read', held'⟩ := Lacks.perform_get lack'
        exact ⟨_, t, t', read, read', ⟨.empty, 0, rfl⟩,
          Or.inr ⟨.empty, 0, held, held', Nat.zero_le _⟩⟩
      · exact ⟨_, s, s', held.perform_get, held'.perform_get, ⟨data, version, rfl⟩,
          Or.inr ⟨data, version, held, held', Nat.le_succ_of_le le⟩⟩
  | update record =>
      rcases alike with ⟨lack, lack'⟩ | ⟨data, version, held, held', le⟩
      · exact ⟨_, s, s', lack.perform_update, lack'.perform_update, Or.inr (Or.inr rfl),
          Or.inl ⟨lack, lack'⟩⟩
      · have room := (s.hasRoom_of_le few le).1
        have room' := (s'.hasRoom_of_le few le).1
        by_cases same : record.version = version
        · subst same
          obtain ⟨t, written, now⟩ := held.perform_update room
          obtain ⟨t', written', now'⟩ := held'.perform_update room'
          exact ⟨_, t, t', written, written', Or.inl rfl,
            Or.inr ⟨record.data, record.version + 1, now, now', (s.hasRoom_of_le few le).2⟩⟩
        · -- any other version, also one that no row can have, is a conflict for both
          exact ⟨_, s, s', held.perform_update_of_ne room same,
            held'.perform_update_of_ne room' same, Or.inr (Or.inl rfl),
            Or.inr ⟨data, version, held, held', Nat.le_succ_of_le le⟩⟩

/-- **ONE OPERATION**: stores that are alike answer alike, and stay alike. -/
theorem Alike.perform (alike : s.Alike bound s') (few : bound < Database.greatestVersion)
    (op : Operation) : (s.perform op).1 = (s'.perform op).1 ∧ op.Allows (s.perform op).1 ∧
      (s.perform op).2.Alike (bound + 1) (s'.perform op).2 := by
  obtain ⟨answer, t, t', performed, performed', allowed, here⟩ :=
    (alike op.location).perform few
  refine ⟨?_, ?_, ?_⟩
  · rw [performed, performed']
  · rw [performed]
    exact allowed
  · intro l
    by_cases own : l = op.location
    · rw [own, performed, performed']
      exact here
    · exact (alike l).mono.congr (s.sameAt_perform op own) (s'.sameAt_perform op own)

theorem reopened_eq (s : Store) : s.reopened = s := by
  cases s with
  | memory m => rfl
  | sqlite db => exact congrArg sqlite db.connect_close

/-- Stores that are alike answer all operations of some visits alike, if those are few enough for
    every version to fit into a row. -/
theorem Alike.answers {visits : List Visit} (alike : s.Alike bound s')
    (few : bound + (Visit.operations visits).length ≤ Database.greatestVersion) :
    s.answers visits = s'.answers visits ∧
      List.Forall₂ Operation.Allows (Visit.operations visits) (s.answers visits) := by
  induction visits generalizing s s' bound with
  | nil => exact ⟨rfl, .nil⟩
  | cons visit rest ih =>
      cases visit with
      | operation op =>
          have few : bound + ((Visit.operations rest).length + 1) ≤ Database.greatestVersion := few
          obtain ⟨same, allowed, alike'⟩ := alike.perform (by omega) op
          obtain ⟨sameRest, allowedRest⟩ := ih alike' (by omega)
          constructor
          · show _ :: _ = _ :: _
            rw [same, sameRest]
          · exact .cons allowed allowedRest
      | reopening =>
          show s.reopened.answers rest = s'.reopened.answers rest ∧
            List.Forall₂ _ _ (s.reopened.answers rest)
          rw [reopened_eq, reopened_eq]
          exact ih alike few

/-- **INTERCHANGEABLE STORES**: let any operations be performed one after the other on a new store,
    with records that their callers made up as they liked, fewer of them than there are versions in
    a row.  In memory and in a database each is answered alike, however often the database is
    closed and opened in between: a read with the record, an update with the record raised, or with
    a conflict or a missing record that names the very location and version it was asked for. -/
theorem stores_are_interchangeable (visits : List Visit)
    (few : (Visit.operations visits).length < Database.greatestVersion) :
    (memory {}).answers visits = (sqlite (DatabaseFile.connect {})).answers visits ∧
      List.Forall₂ Operation.Allows (Visit.operations visits) ((memory {}).answers visits) := by
  rw [DatabaseFile.connect_new]
  have alike : (memory {}).Alike 0 (sqlite {}) := fun l => Or.inl ⟨rfl, rfl⟩
  exact alike.answers (by omega)

/-- A record is made, written, and written again by somebody who has missed that, and by somebody
    with a version that no row can have; the database is reopened twice. -/
def busyVisits (l : Location) : List Visit :=
  [.operation (.update ⟨l, .empty, 0⟩), .operation (.get l), .reopening,
    .operation (.update ⟨l, .ofList [("owner", "first")], 0⟩),
    .operation (.update ⟨l, .ofList [("owner", "second")], 0⟩),
    .operation (.update ⟨l, .empty, 18446744073709551615⟩), .reopening, .operation (.get l)]

/-- Conflicts at the least and at the greatest version, in stores of which one is opened again. -/
theorem stores_are_interchangeable_reopened :
    let l : Location := ⟨"cnsi-system", "governor-access-token"⟩
    (Visit.operations (busyVisits l)).length < Database.greatestVersion ∧
      (sqlite (DatabaseFile.connect {})).answers (busyVisits l) =
        [.error (.notFound l), .ok (.empty l), .ok ⟨l, .ofList [("owner", "first")], 1⟩,
          .error (.conflict l 0), .error (.conflict l 18446744073709551615),
          .ok ⟨l, .ofList [("owner", "first")], 1⟩] := by
  intro l
  have few : (Visit.operations (busyVisits l)).length < Database.greatestVersion := by decide
  refine ⟨few, ?_⟩
  rw [← (stores_are_interchangeable (busyVisits l) few).1]
  rfl

end Store

end Courier
