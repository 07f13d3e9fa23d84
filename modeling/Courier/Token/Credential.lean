import Courier.Record.Basic
import Courier.Time.Rfc3339

/-! # Credentials — a bearer token and the end of its use

    A credential keeps the instant from which its token is no longer used,
    which a ceiling may put before the issuer's own expiry.  In a shared
    record it takes two keys; the other keys are left alone. -/

namespace Courier

/-- A bearer token and the instant at which it stops being usable. -/
structure Credential where
  token : String
  expiresAt : Instant
  deriving DecidableEq

namespace Credential

/-- The key of a record that holds the token. -/
def tokenKey : String := "governorAccessToken"

/-- The key of a record that holds the moment of expiry. -/
def expiryKey : String := "governorAccessTokenExpiry"

/-- The credential of a token granted at `now`, whose lifetime is cut to `maxAge`. -/
def issued (token : String) (lifetime maxAge : Span) (now : Instant) : Credential :=
  ⟨token, now.later (min lifetime maxAge)⟩

/-- Whether the token exists and has not expired. -/
def isUsableAt (c : Credential) (now : Instant) : Bool :=
  !c.token.isEmpty && now.isBefore c.expiresAt

/-- The credential in a record: a token that is not empty and an expiry that can be read. -/
def ofRecord? (r : Record) : Option Credential := do
  let token ← (r.data.get? tokenKey).filter fun t => !t.isEmpty
  let expiry ← r.data.get? expiryKey
  let expiresAt ← Rfc3339.parse? expiry
  some ⟨token, expiresAt⟩

/-- The credential in a record, if it is usable. -/
def usableIn? (r : Record) (now : Instant) : Option Credential :=
  (ofRecord? r).filter fun c => c.isUsableAt now

/-- The record with the credential in its two keys. -/
def writeTo (c : Credential) (r : Record) : Record :=
  (r.set tokenKey c.token).set expiryKey (Rfc3339.format c.expiresAt)

/-- The credential as logs show it: whether it has a token, not which. -/
def describe (c : Credential) : String :=
  "Credential \x7b token: " ++ (if c.token.isEmpty then "None" else "Some(\"<redacted>\")")
    ++ ", expires_at: " ++ Rfc3339.formatZ c.expiresAt ++ " \x7d"

end Credential

end Courier
