import Courier.Json.Decode
import Courier.Json.Encode
import Courier.Store.Error
import Courier.Store.Table

/-! # The record store in a database

    A row keeps the data as JSON text and the version as a signed 64-bit
    integer.  Each operation is one or two statements, and other clients may
    act between them: reading inserts a missing row and selects; updating
    writes where the version matches and, if no row did, selects to tell a
    conflict from a missing record. -/

namespace Courier

/-- The version column: a signed 64-bit integer, or the real number that one more than the
    greatest of them turns into. -/
inductive VersionCell where
  | integer (n : Int64)
  | real
  deriving DecidableEq

/-- The version column after an update. -/
def VersionCell.next : VersionCell → VersionCell
  | integer n => if n = Int64.maxValue then real else integer (n + 1)
  | real => real

/-- A row: the data as stored, and the version. -/
structure Row where
  data : String
  version : VersionCell
  deriving DecidableEq

/-- The rows of a database by location. -/
structure Database where
  rows : Table Row := {}

namespace Database

/-- The statement that defines the table. -/
def schema : String := "
CREATE TABLE IF NOT EXISTS shared_records (
    namespace TEXT NOT NULL,
    name TEXT NOT NULL,
    data TEXT NOT NULL DEFAULT '\x7b\x7d', -- JSON object
    version INTEGER NOT NULL DEFAULT 0,
    created_at TEXT NOT NULL, -- RFC3339
    updated_at TEXT NOT NULL, -- RFC3339
    PRIMARY KEY (namespace, name)
);
"

/-- The reason given where a version column holds no integer. -/
def notAnInteger : String := "version is not an integer"

/-- Inserts an empty row unless there is one. -/
def insertMissing (db : Database) (location : Location) : Database :=
  match db.rows.find? location with
  | some _ => db
  | none => ⟨db.rows.put location ⟨"\x7b\x7d", .integer 0⟩⟩

/-- The data and the version at a location. -/
def select (db : Database) (location : Location) :
    Except StoreError (Option (String × Int64)) :=
  match db.rows.find? location with
  | none => .ok none
  | some ⟨data, .integer n⟩ => .ok (some (data, n))
  | some ⟨_, .real⟩ => .error (.database notAnInteger)

/-- Writes the data and raises the version where the stored version is `expected`; says whether
    a row was written. -/
def writeWhere (db : Database) (location : Location) (data : String) (expected : Int64) :
    Bool × Database :=
  match db.rows.find? location with
  | some row =>
    if row.version = .integer expected then
      (true, ⟨db.rows.put location ⟨data, row.version.next⟩⟩)
    else (false, db)
  | none => (false, db)

/-- The version of a record read from a row; below zero it is zero. -/
def versionOfRow (n : Int64) : UInt64 := .ofNat n.toInt.toNat

/-- The version of a row written from a record; past the range of rows it is the greatest. -/
def versionForRow (n : UInt64) : Int64 :=
  if n.toNat < 9223372036854775808 then .ofNat n.toNat else Int64.maxValue

/-- The data of a record as the database stores them. -/
def dataText (data : Fields) : String :=
  (Json.Value.object (data.entries.map fun e => (e.1, .text e.2))).compress

/-- The data that a stored text spells. -/
def readData (text : String) : Except StoreError Fields :=
  match Json.decode Json.textMap (Utf8.ofString text) with
  | .ok entries => .ok (.ofList entries)
  | .error fault => .error (.badData fault)

/-- The record that a selected row stands for. -/
def recordOf (location : Location) : Option (String × Int64) → Except StoreError Record
  | none => .error (.notFound location)
  | some (text, n) =>
    match readData text with
    | .ok data => .ok ⟨location, data, versionOfRow n⟩
    | .error e => .error e

/-- The record at a location, selected behind an insertion. -/
def getOrCreate (db : Database) (location : Location) : Except StoreError Record × Database :=
  let db := db.insertMissing location
  match db.select location with
  | .ok row => (recordOf location row, db)
  | .error e => (.error e, db)

/-- What an update that wrote no row answers, from the row selected behind it. -/
def refusal (record : Record) : Except StoreError (Option (String × Int64)) → StoreError
  | .ok (some _) => .conflict record.location record.version
  | .ok none => .notFound record.location
  | .error e => e

/-- Replaces the data at the record's location if the stored version is still the record's. -/
def update (db : Database) (record : Record) : Except StoreError Record × Database :=
  match db.writeWhere record.location (dataText record.data) (versionForRow record.version) with
  | (true, db) => (.ok { record with version := record.version + 1 }, db)
  | (false, db) => (.error (refusal record (db.select record.location)), db)

end Database

end Courier
