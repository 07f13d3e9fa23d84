import Courier.Files.Path
import Courier.Secret.Error

/-! # Mounted secrets — files below a root directory

    The value of a secret stands in the file `root/namespace/name/key`.
    Each of the three must be a single name, so that no address leads
    anywhere else. -/

namespace Courier

namespace FileFault

/-- Part of an address is no single name. -/
def notPlain : FileFault :=
  ⟨.invalidInput, "secret namespace, name and key must be plain path segments"⟩

end FileFault

namespace SecretRef

/-- The three texts of an address, in the order of the path. -/
def segments (r : SecretRef) : List String := [r.ns, r.name, r.key]

/-- The path of the file that holds the value. -/
def path (root : String) (r : SecretRef) : Except FileFault String :=
  if r.segments.all Path.isPlain then .ok (r.segments.foldl Path.join root)
  else .error .notPlain

end SecretRef

/-- What is read for a secret below a root, where `file` reads the files. -/
def SecretRef.textIn (file : String → FileBytes) (root : String) (r : SecretRef) :
    Except FileFault String :=
  match r.path root with
  | .ok path => (file path).text
  | .error fault => .error fault

/-- The text of a mounted secret, with a failure that names the secret. -/
def SecretRef.valueIn (file : String → FileBytes) (root : String) (r : SecretRef) :
    Except SecretError String :=
  (r.textIn file root).mapError (.read r)

end Courier
