import Courier.Settings.Tree

/-! # TOML tables — which keys may be set where

    A table is opened by a header of its own, or implied by a longer
    header, or by a key with points.  A value is set once; a header opens a
    table once; keys with points go on only in tables that no header has
    opened. -/

namespace Courier.Toml

/-- What brought a table about. -/
inductive TableKind where
  | opened
  /-- A header of a table inside it. -/
  | implied
  | pointed
  deriving DecidableEq

/-- What stands at a key. -/
inductive Item where
  | value (v : SettingTree)
  | table (kind : TableKind) (entries : List (String × Item))
  /-- The tables of a list with headers of their own, the last one first. -/
  | tables (list : List (List (String × Item)))

/-- Entries of a table under construction, by key. -/
abbrev Items : Type := List (String × Item)

mutual

/-- An item as a setting, once the document is read. -/
def Item.toTree : Item → SettingTree
  | .value v => v
  | .table _ entries => .table (entryTrees entries)
  | .tables list => .list (tableTrees list).reverse

/-- The values of items by key. -/
def entryTrees : Items → List (String × SettingTree)
  | [] => []
  | (key, item) :: rest => (key, item.toTree) :: entryTrees rest

/-- The values of a list of tables. -/
def tableTrees : List Items → List SettingTree
  | [] => []
  | entries :: rest => .table (entryTrees entries) :: tableTrees rest

end

/-- Sets a key to a value behind a list of keys with points between them. -/
def assign (key : String) (v : SettingTree) : List String → Items → Option Items
  | [], entries =>
    match Entries.value? key entries with
    | none => some (Entries.place key (.value v) entries)
    | some _ => none
  | first :: rest, entries =>
    let below (kind : TableKind) (found : Items) : Option Items :=
      if rest = [] ∧ kind ≠ .pointed then none
      else (assign key v rest found).map fun found => Entries.place first (.table kind found) entries
    match Entries.value? first entries with
    | none => below .pointed []
    | some (.table .opened _) => none
    | some (.table kind found) => below kind found
    | some (.tables (last :: others)) =>
      if rest = [] then none
      else
        (assign key v rest last).map fun last =>
          Entries.place first (.tables (last :: others)) entries
    | some _ => none

/-- Changes the table behind a list of keys, which implies the tables on the way. -/
def within (change : Items → Option Items) : List String → Items → Option Items
  | [], entries => change entries
  | first :: rest, entries =>
    match Entries.value? first entries with
    | none =>
      (within change rest []).map fun found => Entries.place first (.table .implied found) entries
    | some (.table kind found) =>
      (within change rest found).map fun found => Entries.place first (.table kind found) entries
    | some (.tables (last :: others)) =>
      (within change rest last).map fun last =>
        Entries.place first (.tables (last :: others)) entries
    | some _ => none

/-- The entries with a table opened by its header, which may be opened once. -/
def openTable (key : String) (entries : Items) : Option Items :=
  match Entries.value? key entries with
  | none => some (Entries.place key (.table .opened []) entries)
  | some (.table .implied found) => some (Entries.place key (.table .opened found) entries)
  | some _ => none

/-- Opens one more table in the list at a key. -/
def openNext (key : String) (entries : Items) : Option Items :=
  match Entries.value? key entries with
  | none => some (Entries.place key (.tables [[]]) entries)
  | some (.tables list) => some (Entries.place key (.tables ([] :: list)) entries)
  | some _ => none

/-- A line of a document. -/
inductive Line where
  | setting (path : List String) (key : String) (v : SettingTree)
  | header (path : List String) (key : String)
  | nextHeader (path : List String) (key : String)

/-- The entries after one more line, and the table that later settings go into. -/
def addLine (entries : Items) (here : List String) : Line → Option (Items × List String)
  | .setting path key v => (within (assign key v path) here entries).map fun es => (es, here)
  | .header path key => (within (openTable key) path entries).map fun es => (es, path ++ [key])
  | .nextHeader path key => (within (openNext key) path entries).map fun es => (es, path ++ [key])

/-- The entries after all lines; none where one of them contradicts those before. -/
def addLines (entries : Items) (here : List String) : List Line → Option Items
  | [] => some entries
  | line :: rest =>
    match addLine entries here line with
    | some (entries, here) => addLines entries here rest
    | none => none

/-- The table of settings between braces. -/
def inlineTable (settings : List (List String × String × SettingTree)) : Option SettingTree :=
  (settings.foldlM (fun entries s => assign s.2.1 s.2.2 s.1 entries) []).map fun entries =>
    .table (entryTrees entries)

end Courier.Toml
