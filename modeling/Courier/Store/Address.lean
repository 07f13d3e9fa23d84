import Courier.Files.Tree
import Courier.Store.Error
import Courier.Text.Form
import Courier.Text.Quoted

/-! # Database addresses

    An address is a scheme, a path, and options behind a question mark.
    The database is a file in an existing directory, or lives in memory;
    the file may be missing or empty, for it is created, but must then be
    one that can be written. -/

namespace Courier

/-- Where a database is, and how it is opened. -/
structure DatabaseAddress where
  path : String
  inMemory : Bool := false
  readOnly : Bool := false
  system : Option String := none
  deriving DecidableEq

namespace DatabaseAddress

/-- The text without any number of a mark in front. -/
def withoutAll (mark : List Char) : (fuel : Nat) → List Char → List Char
  | 0, cs => cs
  | fuel + 1, cs => if mark.isPrefixOf cs then withoutAll mark fuel (cs.drop mark.length) else cs

/-- The text of an address without its scheme, however often that is written. -/
def behindScheme (cs : List Char) : List Char :=
  let cs := withoutAll "sqlite://".toList cs.length cs
  withoutAll "sqlite:".toList cs.length cs

/-- The failure of an address that contradicts the rules for addresses. -/
def refused {α : Type} (reason : String) : Except StoreError α :=
  .error (.database ("error with configuration: " ++ reason))

/-- The value of an option that is none of its values. -/
def badValue {α : Type} (name value : String) : Except StoreError α :=
  refused ("unknown value " ++ Text.quoted value ++ " for \x60" ++ name ++ "\x60")

/-- The address with one more option; unknown options and values are refused. -/
def withOption (a : DatabaseAddress) (name value : String) : Except StoreError DatabaseAddress :=
  match name with
  | "mode" =>
    match value with
    | "ro" => .ok { a with readOnly := true }
    | "rw" => .ok a
    | "rwc" => .ok a
    | "memory" => .ok { a with inMemory := true }
    | _ => badValue name value
  | "cache" => if value = "private" ∨ value = "shared" then .ok a else badValue name value
  | "immutable" =>
    if value = "true" ∨ value = "1" then .ok { a with readOnly := true }
    else if value = "false" ∨ value = "0" then .ok a
    else badValue name value
  | "vfs" => .ok { a with system := some value }
  | _ =>
    refused ("unknown query parameter \x60" ++ name ++ "\x60 while parsing connection URL")

/-- The name of a database that lives in memory. -/
def memoryName : String := ":memory:"

/-- The address without options. -/
def ofPath (cs : List Char) : Except StoreError DatabaseAddress :=
  if String.ofList cs = memoryName then .ok { path := "", inMemory := true }
  else
    match Utf8.decode? (Url.decodeBytes (Utf8.encode cs)) with
    | some path => .ok { path := String.ofList path }
    | none => refused "invalid utf-8 sequence"

/-- The address that a text spells: a path, and options behind a question mark. -/
def parse (text : String) : Except StoreError DatabaseAddress := do
  let cs := behindScheme text.toList
  let start ← ofPath (cs.takeWhile (· != '?'))
  (Form.fields ((cs.dropWhile (· != '?')).drop 1)).foldlM (fun a o => a.withOption o.1 o.2) start

/-- The file systems that databases can be opened with. -/
def systems : List String := ["unix", "unix-none", "unix-dotfile", "unix-excl", "memdb"]

/-- Where an opened database lives. -/
inductive Place where
  | memory
  | file (place : List String)
  deriving DecidableEq

/-- The directory and the name of a path. -/
def cutPath (path : String) : String × String :=
  let pieces := Path.slashed path
  let name := String.ofList (pieces.getLast?.getD [])
  match pieces.dropLast with
  | [] => (".", name)
  | [[]] => ("/", name)
  | front => (String.intercalate "/" (front.map String.ofList), name)

/-- The failure of a database that cannot be opened. -/
def cannotOpen {α : Type} (reason : String) : Except StoreError α :=
  .error (.database ("error returned from database: " ++ reason))

/-- The place that an address leads to from a directory of a file tree. -/
def placeIn (a : DatabaseAddress) (files : FileTree) (start : List String) :
    Except StoreError Place :=
  if a.path.toList.contains '\x00' then refused "nul byte found in path"
  else if a.system.any fun s => !systems.contains s then cannotOpen "(code: 1) no such vfs"
  else if a.inMemory ∨ a.path = "" then .ok .memory
  else if a.readOnly then cannotOpen "(code: 14) unable to open database file"
  else
    let (directory, name) := cutPath a.path
    match files.resolve start directory with
    | .error _ => cannotOpen "(code: 14) unable to open database file"
    | .ok place =>
      match Path.partOf? name.toList, files.at? place, files.enter place name with
      | some (.name _), some .directory, .ok file =>
        match files.at? file with
        | some (.file []) => .ok (.file file)
        | some (.file _) => cannotOpen "(code: 26) file is not a database"
        | _ => cannotOpen "(code: 14) unable to open database file"
      | some (.name _), some .directory, .error fault =>
        if fault.kind = .notFound then .ok (.file (place ++ [name]))
        else cannotOpen "(code: 14) unable to open database file"
      | _, _, _ => cannotOpen "(code: 14) unable to open database file"

end DatabaseAddress

end Courier
