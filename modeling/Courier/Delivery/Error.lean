import Courier.Settings.Fault
import Courier.Telemetry.Export

/-! # Why a report was not delivered -/

namespace Courier

/-- The first thing that went wrong in a run of the program. -/
inductive DeliveryError where
  /-- A variable of the file with variables cannot be set. -/
  | unsettable (name : String)
  /-- There are no settings to work with. -/
  | settings (cause : SettingsError)
  /-- The file of the report was not read. -/
  | reportUnread (fault : FileFault)
  /-- The file of the report holds no report. -/
  | reportMalformed (fault : Json.Fault)
  /-- The client for the issuer was not built. -/
  | issuer (cause : IssuerError)
  /-- The database of the shared record was not opened. -/
  | database (cause : StoreError)
  /-- The provider of tokens was not built. -/
  | provider (cause : TokenError)
  /-- The report was not exported. -/
  | exporting (cause : ExportError)

namespace DeliveryError

/-- The failure in words. -/
def message : DeliveryError → String
  | unsettable name => "failed to set environment variable " ++ Text.quoted name
  | settings cause => cause.message
  | reportUnread fault => fault.message
  | reportMalformed fault => fault.message
  | issuer cause => cause.message
  | database cause => cause.message
  | provider cause => cause.message
  | exporting cause => cause.message

/-- The name of a kind of failure of the issuer. -/
def issuerName : IssuerError → String
  | .unreachable _ => "Request"
  | .rejected .. => "UpstreamStatus"
  | .malformed .. => "Parse"
  | .noToken => "MissingAccessToken"

/-- The name of a kind of failure of a store. -/
def storeName : StoreError → String
  | .conflict .. => "Conflict"
  | .notFound _ => "NotFound"
  | .database _ => "Database"
  | .badData _ => "Json"

/-- The name of a kind of failure of a provider. -/
def tokenName : TokenError → String
  | .secret _ => "Secret"
  | .refresh _ => "Refresh"
  | .store _ => "Store"
  | .conflictsExhausted _ => "ConflictRetriesExhausted"
  | .validation _ => "Validation"

/-- The name of a kind of failure of an export. -/
def exportName : ExportError → String
  | .noProvider => "NoProvider"
  | .noToken => "NoToken"
  | .token _ => "Auth"
  | .transport _ => "Transport"
  | .unexpectedStatus .. => "UnexpectedStatus"
  | .badJson _ => "Json"
  | .badUrl _ => "Url"

/-- The name under which the program reports the failure. -/
def name : DeliveryError → String
  | unsettable _ => "Variable"
  | settings (.unreadable _) => "Extract"
  | settings (.invalid _) => "Invalid"
  | reportUnread fault => if fault.kind = .invalidInput then "Error" else "Os"
  | reportMalformed _ => "Custom"
  | issuer cause => issuerName cause
  | database cause => storeName cause
  | provider cause => tokenName cause
  | exporting cause => exportName cause

/-- The line that the program ends with. -/
def line (e : DeliveryError) : String :=
  "Error: " ++ e.name ++ "(" ++ Text.quoted e.message ++ ")"

end DeliveryError

end Courier
