import Courier.Token.Refresh

/-! # A refresh under way

    A refresh is a machine that is told what happens: a request was sent at
    a reading of the clock, the issuer answered, a wait ended, the caller
    gave up.  What it does next depends on nothing else. -/

namespace Courier

/-- Where a refresh stands. -/
inductive Refreshing where
  /-- About to read the clock and send a request. -/
  | due (engine : RetryEngine) (backoff : Backoff)
  /-- A request is out; the clock read as given just before it. -/
  | awaiting (engine : RetryEngine) (backoff : Backoff) (requestedAt : Instant)
  /-- Waiting before the next request. -/
  | pausing (engine : RetryEngine) (backoff : Backoff) (wait : Span)
  | ended (result : Except (RetryError IssuerError) Credential)

/-- What happens to a refresh. -/
inductive RefreshEvent where
  | sent (now : Instant)
  | answered (answer : Except IssuerError Grant)
  | woken
  | cancelled

namespace Refreshing

/-- A refresh before its first request. -/
def start (settings : RefreshSettings) : Refreshing :=
  due ⟨settings.policy, none⟩ settings.policy.backoff

/-- Where a refresh stands after a completed request. -/
def settled (engine : RetryEngine) (backoff : Backoff) (attempt : Attempt Credential IssuerError) :
    Refreshing :=
  match engine.settle (backoff.next?.map Prod.fst) attempt with
  | (.done result, _) => ended result
  | (.pause wait, engine) => pausing engine ((backoff.next?.map Prod.snd).getD backoff) wait

/-- Where a refresh stands after an event; events that do not apply change nothing. -/
def step (maxAge : Span) : Refreshing → RefreshEvent → Refreshing
  | due engine backoff, .sent now => awaiting engine backoff now
  | awaiting engine backoff requestedAt, .answered answer =>
    settled engine backoff (refreshAttempt maxAge requestedAt answer)
  | pausing engine backoff _, .woken => due engine backoff
  | pausing engine _ _, .cancelled => ended (.error (.cancelled engine.policy.name))
  | state, _ => state

end Refreshing

end Courier
