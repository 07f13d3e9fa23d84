import Courier.Json.Fault
import Courier.Record.Basic

/-! # Failures of a record store -/

namespace Courier

/-- Why a record store did not do what it was asked. -/
inductive StoreError where
  /-- The stored version is not the one that the update expected. -/
  | conflict (location : Location) (expected : UInt64)
  | notFound (location : Location)
  /-- The database itself failed, for the given reason. -/
  | database (reason : String)
  /-- The stored data are no map of texts. -/
  | badData (fault : Json.Fault)

namespace StoreError

/-- The failure in words. -/
def message : StoreError → String
  | conflict location expected =>
    s!"shared record {location.text} was modified concurrently (expected version {expected.toNat})"
  | notFound location => s!"shared record {location.text} not found"
  | database reason => "Database error: " ++ reason
  | badData fault => "JSON error: " ++ fault.message

/-- Whether a fresh read and another update may succeed. -/
def isRetryable : StoreError → Bool
  | conflict .. => true
  | _ => false

/-- The reasons behind the failure, outermost first. -/
def sources : StoreError → List String
  | database reason => [reason]
  | badData fault => [fault.message]
  | _ => []

end StoreError

end Courier
