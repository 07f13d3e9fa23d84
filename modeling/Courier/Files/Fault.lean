import Courier.Text.Utf8

/-! # Files that cannot be read -/

namespace Courier

/-- The kind of a failure to read a file. -/
inductive FileFault.Kind where
  | notFound
  | permissionDenied
  | notADirectory
  | isADirectory
  | invalidInput
  | invalidData
  | invalidName
  | other
  deriving DecidableEq

/-- A failure to read a file: its kind and its words. -/
structure FileFault where
  kind : FileFault.Kind
  message : String
  deriving DecidableEq

namespace FileFault

/-- Nothing has that name. -/
def missing : FileFault := ⟨.notFound, "No such file or directory (os error 2)"⟩

/-- A file must not be read. -/
def forbidden : FileFault := ⟨.permissionDenied, "Permission denied (os error 13)"⟩

/-- A path goes on behind something that is no directory. -/
def notADirectory : FileFault := ⟨.notADirectory, "Not a directory (os error 20)"⟩

/-- A directory was read as a file. -/
def isADirectory : FileFault := ⟨.isADirectory, "Is a directory (os error 21)"⟩

/-- A part of a path is longer than names may be. -/
def nameTooLong : FileFault := ⟨.invalidName, "File name too long (os error 36)"⟩

/-- The bytes of a file are no UTF-8 text. -/
def notText : FileFault := ⟨.invalidData, "stream did not contain valid UTF-8"⟩

/-- A path has a NUL in it. -/
def nulInPath : FileFault := ⟨.invalidInput, "file name contained an unexpected NUL byte"⟩

end FileFault

/-- What reading a file gives: its bytes, or why there are none. -/
abbrev FileBytes : Type := Except FileFault (List UInt8)

/-- The text of a file that was read. -/
def FileBytes.text (read : FileBytes) : Except FileFault String :=
  match read with
  | .error fault => .error fault
  | .ok bytes =>
    match Utf8.decode? bytes with
    | some cs => .ok (String.ofList cs)
    | none => .error .notText

/-- Whether a file stands where something was read, or why that is not known: a file that must not
    be read, or cannot be, is a file. -/
def FileBytes.isFile (read : FileBytes) : Except FileFault Bool :=
  match read with
  | .ok _ => .ok true
  | .error fault =>
    match fault.kind with
    | .isADirectory => .ok false
    | .permissionDenied | .invalidData | .other => .ok true
    | .notFound | .notADirectory | .invalidInput | .invalidName => .error fault

end Courier
