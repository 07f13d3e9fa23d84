import Courier.Http.Verdict
import Courier.Retry.Run
import Courier.Secret.Error
import Courier.Store.Error

/-! # Failures on the way to a bearer token

    The issuer fails in four ways; a provider of tokens fails because the
    secret, the refresh or the record store failed, because other writers
    kept getting in between, or because validating a new provider failed
    for one of these reasons. -/

namespace Courier

/-- Why the issuer granted no token. -/
inductive IssuerError where
  /-- The exchange did not complete. -/
  | unreachable (reason : String)
  /-- The answer has a status other than success. -/
  | rejected (status : Status) (retryAfter : Option Span)
  /-- The answer is no grant; its body is kept as a preview. -/
  | malformed (reason : String) (body : String)
  | noToken

namespace IssuerError

/-- The number of characters of a body that a preview keeps. -/
def previewLength : Nat := 100

/-- The first characters of a body, marked where the rest is cut off. -/
def preview (body : List Char) : String :=
  if body.length ≤ previewLength then String.ofList body
  else String.ofList (body.take previewLength) ++ "...<truncated>"

/-- The failure in words. -/
def message : IssuerError → String
  | unreachable reason => "OAuth2 request error: " ++ reason
  | rejected status _ => "OAuth2 upstream error with status: " ++ status.text
  | malformed reason body => "OAuth2 token endpoint parse error: " ++ reason ++ ". Body: " ++ body
  | noToken => "OAuth2 token response carried an empty access token"

/-- Whether another attempt is worthwhile. -/
def isRetryable : IssuerError → Bool
  | unreachable _ => true
  | rejected status _ => status.isServerError || (Verdict.ofStatus status).isRetryable
  | malformed .. => true
  | noToken => false

/-- The wait that the issuer asked for. -/
def hint : IssuerError → Option Span
  | rejected _ wait => wait
  | _ => none

end IssuerError

/-- Why there is no bearer token. -/
inductive TokenError where
  | secret (cause : SecretError)
  | refresh (cause : RetryError IssuerError)
  | store (cause : StoreError)
  /-- Every attempt to write the shared record met another writer. -/
  | conflictsExhausted (attempts : UInt32)
  /-- A new provider could not be validated. -/
  | validation (cause : TokenError)

instance : Inhabited TokenError := ⟨.conflictsExhausted 0⟩

namespace TokenError

/-- The failure in words. -/
def message : TokenError → String
  | secret cause => "failed to fetch API token: " ++ cause.message
  | refresh cause => "auth token refresh failed: " ++ cause.message IssuerError.message
  | store cause => "shared credential store error: " ++ cause.message
  | conflictsExhausted attempts =>
    s!"gave up storing shared credential after {attempts.toNat} conflicting writes"
  | validation cause => "validating API token validity: " ++ cause.message

/-- The reasons behind the failure, outermost first. -/
def sources : TokenError → List String
  | secret cause => cause.message :: cause.sources
  | refresh cause =>
    cause.message IssuerError.message :: (cause.fatal?.map IssuerError.message).toList
  | store cause => cause.message :: cause.sources
  | conflictsExhausted _ => []
  | validation cause => cause.message :: cause.sources

/-- Whether the failure is a cancelled refresh. -/
def isCancelled : TokenError → Bool
  | refresh cause => cause.isCancelled
  | validation cause => cause.isCancelled
  | _ => false

end TokenError

end Courier
