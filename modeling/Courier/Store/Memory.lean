import Courier.Store.Error
import Courier.Store.Table

/-! # The record store of one process

    Both operations are atomic.  An update replaces the data of a record
    that still has the version it expects, and raises the version by one. -/

namespace Courier

/-- Records by location. -/
structure MemoryStore where
  records : Table Record := {}

namespace MemoryStore

/-- The record at a location, without creating it. -/
def snapshot (s : MemoryStore) (location : Location) : Option Record := s.records.find? location

/-- The record at a location; an empty one is created where none is. -/
def getOrCreate (s : MemoryStore) (location : Location) : Record × MemoryStore :=
  match s.records.find? location with
  | some record => (record, s)
  | none => (.empty location, ⟨s.records.put location (.empty location)⟩)

/-- Replaces the data at the record's location if the stored version is still the record's. -/
def update (s : MemoryStore) (record : Record) : Except StoreError Record × MemoryStore :=
  match s.records.find? record.location with
  | none => (.error (.notFound record.location), s)
  | some stored =>
    if stored.version = record.version then
      let next := { stored with data := record.data, version := stored.version + 1 }
      (.ok next, ⟨s.records.put record.location next⟩)
    else (.error (.conflict record.location record.version), s)

end MemoryStore

end Courier
