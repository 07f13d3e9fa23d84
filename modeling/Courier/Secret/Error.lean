import Courier.Files.Fault
import Courier.Text.Quoted

/-! # Secrets that cannot be read -/

namespace Courier

/-- The address of one value inside a named secret. -/
structure SecretRef where
  ns : String
  name : String
  key : String
  deriving DecidableEq

/-- The address as messages show it. -/
def SecretRef.text (r : SecretRef) : String :=
  r.ns ++ "/" ++ r.name ++ " key " ++ Text.quoted r.key

/-- Why a secret could not be used. -/
inductive SecretError where
  | read (ref : SecretRef) (fault : FileFault)
  /-- The value is blank. -/
  | blank (ref : SecretRef)
  deriving DecidableEq

namespace SecretError

/-- The failure in words. -/
def message : SecretError → String
  | read ref fault => "failed to read secret " ++ ref.text ++ ": " ++ fault.message
  | blank ref => "secret " ++ ref.text ++ " is empty"

/-- The reasons behind the failure, outermost first. -/
def sources : SecretError → List String
  | read _ fault => [fault.message]
  | blank _ => []

end SecretError

end Courier
