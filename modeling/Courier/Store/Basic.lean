import Courier.Store.Memory
import Courier.Store.Sqlite

/-! # Record stores — in one process or in a database

    Both kinds answer the same two operations; a caller does not see which
    of them it has. -/

namespace Courier

/-- Either record store. -/
inductive Store where
  | memory (store : MemoryStore)
  | sqlite (db : Database)

namespace Store

/-- The record at a location, created where there is none. -/
def getOrCreate (s : Store) (location : Location) : Except StoreError Record × Store :=
  match s with
  | memory m => (.ok (m.getOrCreate location).1, memory (m.getOrCreate location).2)
  | sqlite db => ((db.getOrCreate location).1, sqlite (db.getOrCreate location).2)

/-- Replaces the record's data if its version is still the stored one. -/
def update (s : Store) (record : Record) : Except StoreError Record × Store :=
  match s with
  | memory m => ((m.update record).1, memory (m.update record).2)
  | sqlite db => ((db.update record).1, sqlite (db.update record).2)

end Store

/-- The data with some keys set and others removed. -/
def edited (data : Fields) (edits : List (String × Option String)) : Fields :=
  edits.foldl (fun data e =>
    match e.2 with
    | some value => data.insert e.1 value
    | none => data.erase e.1) data

/-- A whole edit as another writer makes it: read, change, update. -/
def Store.edit (s : Store) (location : Location) (edits : List (String × Option String)) :
    Except StoreError Record × Store :=
  match s.getOrCreate location with
  | (.ok record, s) => s.update { record with data := edited record.data edits }
  | (.error e, s) => (.error e, s)

end Courier
