import Courier.Retry.Run
import Courier.Token.Credential
import Courier.Token.Grant

/-! # Refreshing — asking the issuer under a retry policy

    Each attempt reads the clock, asks the issuer, and dates a grant from
    that reading.  Retryable failures are tried again after the wait that
    they carry or the policy's own. -/

namespace Courier

/-- How tokens are refreshed, and how long they are trusted at most. -/
structure RefreshSettings where
  maxAge : Span
  policy : RetryPolicy
  deriving DecidableEq

namespace RefreshSettings

/-- The name under which refreshes are retried. -/
def policyName : String := "auth token refresh"

/-- Settings with a linear delay, all given in seconds. -/
def make (maxAge : UInt64) (attempts : UInt32) (base step : UInt64) : RefreshSettings where
  maxAge := .ofSeconds maxAge
  policy := .make policyName attempts (.increment (.ofSeconds base) (.ofSeconds step))

/-- Ten minutes at most, three attempts, waits of five seconds and five more each time. -/
def standard : RefreshSettings := make 600 3 5 5

end RefreshSettings

/-- What an attempt to refresh comes to, from the reading of the clock before the request and
    the issuer's answer. -/
def refreshAttempt (maxAge : Span) (requestedAt : Instant) :
    Except IssuerError Grant → Attempt Credential IssuerError
  | .ok grant => .success (.issued grant.token grant.lifetime maxAge requestedAt)
  | .error e => if e.isRetryable then .retry e.hint else .fatal e

end Courier
