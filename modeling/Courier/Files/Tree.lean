import Courier.Files.Fault
import Courier.Files.Path

/-! # File trees — what stands where, and reading it

    A place is the list of names that lead to it from the root.  A path is
    walked piece by piece: it goes on behind directories only, and only to
    places where something stands. -/

namespace Courier

/-- What stands at a place. -/
inductive FileNode where
  | file (content : List UInt8)
  | directory
  deriving DecidableEq

/-- What stands at the listed places; every place on the way to one of them is a directory. -/
structure FileTree where
  entries : List (List String × FileNode) := []

namespace FileTree

/-- What stands at a place, if anything does. -/
def at? (t : FileTree) (place : List String) : Option FileNode :=
  match t.entries.find? fun e => e.1 == place with
  | some e => some e.2
  | none =>
    if place.isEmpty || t.entries.any (fun e => place.isPrefixOf e.1) then some .directory else none

/-- The greatest number of bytes in a name. -/
def longestName : Nat := 255

/-- The greatest number of bytes in a path. -/
def longestPath : Nat := 4095

/-- The place that a name leads to from a directory. -/
def enter (t : FileTree) (place : List String) (name : String) : Except FileFault (List String) :=
  if longestName < (Utf8.ofString name).length then .error .nameTooLong
  else if (t.at? (place ++ [name])).isSome then .ok (place ++ [name])
  else .error .missing

/-- The place that one piece of a path leads to. -/
def step (t : FileTree) (place : List String) (piece : List Char) :
    Except FileFault (List String) :=
  match t.at? place with
  | none => .error .missing
  | some (.file _) => .error .notADirectory
  | some .directory =>
    match Path.partOf? piece with
    | some (.name name) => t.enter place name
    | some .parent => .ok place.dropLast
    | _ => .ok place

/-- The place that pieces of a path lead to, one after the other. -/
def steps (t : FileTree) (place : List String) : List (List Char) → Except FileFault (List String)
  | [] => .ok place
  | piece :: rest =>
    match t.step place piece with
    | .ok place => t.steps place rest
    | .error fault => .error fault

/-- The place that a path leads to from another place. -/
def resolve (t : FileTree) (start : List String) (path : String) :
    Except FileFault (List String) :=
  if path.toList.contains '\x00' then .error .nulInPath
  else if path = "" then .error .missing
  else if longestPath < (Utf8.ofString path).length then .error .nameTooLong
  else t.steps (if Path.isAbsolute path then [] else start) (Path.slashed path)

/-- The bytes of the file that a path leads to from a place. -/
def read (t : FileTree) (start : List String) (path : String) : FileBytes :=
  match t.resolve start path with
  | .error fault => .error fault
  | .ok place =>
    match t.at? place with
    | some (.file content) => .ok content
    | some .directory => .error .isADirectory
    | none => .error .missing

end FileTree

end Courier
