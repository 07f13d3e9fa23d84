import Courier.Entries
import Courier.Number.Shortest
import Courier.Text.Quoted

/-! # Setting trees — values as the layers of a configuration give them

    A layer is a table whose values may be tables again.  Merging keeps
    what only one of two layers sets; where both set a value the upper one
    counts, unless both values are tables, which are merged in turn. -/

namespace Courier

/-- A value of a setting, or a table of them. -/
inductive SettingTree where
  /-- A setting that may be left out is left out. -/
  | absent
  | bool (b : Bool)
  | unsigned (n : Nat)
  | signed (n : Int)
  | real (x : Double)
  | char (c : Char)
  | text (s : String)
  | list (items : List SettingTree)
  /-- Values by key, in ascending order. -/
  | table (entries : List (String × SettingTree))

namespace SettingTree

/-- The table of some entries; of several with one key the last counts. -/
def ofList (entries : List (String × SettingTree)) : SettingTree := table (Entries.sorted entries)

/-- The entries of a table; other values have none. -/
def entries : SettingTree → List (String × SettingTree)
  | table entries => entries
  | _ => []

/-- The value of a key. -/
def child? (t : SettingTree) (key : String) : Option SettingTree := Entries.value? key t.entries

/-- What stands behind a list of keys. -/
def at? (t : SettingTree) : List String → Option SettingTree
  | [] => some t
  | key :: rest => (t.child? key).bind fun c => c.at? rest

/-- A value below a list of keys, in tables of one entry each. -/
def nested (value : SettingTree) : List String → SettingTree
  | [] => value
  | key :: rest => table [(key, nested value rest)]

mutual

/-- The values of two layers, of which the second is the upper one. -/
def merge : SettingTree → SettingTree → SettingTree
  | table lower, table upper => table (mergeEntries lower upper)
  | _, upper => upper

/-- The entries of two tables, of which the second is the upper one. -/
def mergeEntries (lower : List (String × SettingTree)) :
    List (String × SettingTree) → List (String × SettingTree)
  | [] => lower
  | (key, value) :: rest =>
    let merged := match Entries.value? key lower with
      | some old => merge old value
      | none => value
    mergeEntries (Entries.place key merged lower) rest

end

/-- A value as messages name it. -/
def shown : SettingTree → String
  | absent => "option"
  | bool b => "bool " ++ toString b
  | unsigned n => "unsigned int \x60" ++ toString n ++ "\x60"
  | signed n => "signed int \x60" ++ toString n ++ "\x60"
  | real x => "float \x60" ++ x.text Decimal.plain ++ "\x60"
  | char c => "char " ++ Text.quotedChar c
  | text s => "string " ++ Text.quoted s
  | list _ => "sequence"
  | table _ => "map"

end SettingTree

end Courier
