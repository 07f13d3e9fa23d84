import Courier.Store.Basic

/-! # Connections — a database from one opening to the next

    Opening a database applies the schema: it makes the table in a file
    without one, and leaves a table alone that is there, so that the rows of
    a closed database are those of the one opened next. -/

namespace Courier

/-- A database file: the rows of its table, once there is one. -/
structure DatabaseFile where
  table : Option (Table Row) := none

namespace DatabaseFile

/-- Makes the table unless there is one. -/
def applySchema (file : DatabaseFile) : DatabaseFile :=
  match file.table with
  | some _ => file
  | none => ⟨some {}⟩

/-- The database in a file, which has a table once the schema is applied. -/
def connect (file : DatabaseFile) : Database := ⟨file.applySchema.table.getD {}⟩

/-- A new file has a table without rows once it is opened. -/
theorem connect_new : connect {} = {} := rfl

end DatabaseFile

/-- The file that a closed database leaves behind. -/
def Database.close (db : Database) : DatabaseFile := ⟨some db.rows⟩

/-- A database that is closed and opened again has all its rows. -/
theorem Database.connect_close (db : Database) : db.close.connect = db := rfl

/-- The store behind closing and opening it again; one in memory goes on as it is. -/
def Store.reopened : Store → Store
  | memory m => memory m
  | sqlite db => sqlite db.close.connect

end Courier
