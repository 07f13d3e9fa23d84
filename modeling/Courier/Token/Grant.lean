import Courier.Json.Decode
import Courier.Span
import Courier.Token.Error

/-! # Grants — what the issuer answers

    A grant names a token and the seconds until it expires, an hour where
    it does not say. -/

namespace Courier

/-- A token and the seconds until it expires. -/
structure Grant where
  token : String
  expiresIn : UInt64
  deriving DecidableEq

namespace Grant

/-- The lifetime of a grant that does not name one. -/
def standardLifetime : UInt64 := 3600

/-- The time until the token expires. -/
def lifetime (g : Grant) : Span := .ofSeconds g.expiresIn

/-- A grant as a record of a JSON text. -/
def layout : Json.Layout Grant where
  name := "IssuedToken"
  fields := [
    ⟨"access_token", false, do let s ← Json.text; pure fun g => { g with token := s }⟩,
    ⟨"expires_in", true, do let n ← Json.word64; pure fun g => { g with expiresIn := n }⟩]
  blank := ⟨"", standardLifetime⟩

/-- Reads a grant from the body of an answer; an unreadable body is kept as a preview. -/
def ofBody (body : List UInt8) : Except IssuerError Grant :=
  match Json.decode layout.read body with
  | .ok grant => if grant.token.isEmpty then .error .noToken else .ok grant
  | .error fault =>
    .error (.malformed fault.message (IssuerError.preview (Utf8.decodeLossy body)))

end Grant

end Courier
