import Courier.Retry.Policy
import Courier.Text.Quoted

/-! # Retry runs — calls and waits on a timeline

    One rule, `settle`, decides what follows a call: the run is over, or it
    pauses for a while.  `RetryEngine.run` plays that rule against a script
    of calls and a moment of cancellation, on a clock of milliseconds.

    A server's hint replaces the wait it follows; a pending override
    replaces the first later wait that has no hint.  Both use up the slot
    of the wait that they replace. -/

namespace Courier

/-- What one call of an operation came to. -/
inductive Attempt (α ε : Type) where
  | success (value : α)
  /-- A passing failure, and the wait that the other side asked for. -/
  | retry (hint : Option Span)
  /-- A failure that ends the run. -/
  | fatal (cause : ε)

/-- Done means success, not done means another attempt, an error is fatal. -/
def Attempt.ofResult {ε : Type} : Except ε Bool → Attempt Unit ε
  | .ok true => .success ()
  | .ok false => .retry none
  | .error cause => .fatal cause

/-- Why a run ended without a value. -/
inductive RetryError (ε : Type) where
  | fatal (name : String) (cause : ε)
  | exhausted (name : String) (budget : UInt32)
  | cancelled (name : String)

namespace RetryError

variable {ε : Type}

/-- Whether the budget of attempts was used up. -/
def isExhausted : RetryError ε → Bool
  | exhausted .. => true
  | _ => false

/-- Whether the run was cancelled during a wait. -/
def isCancelled : RetryError ε → Bool
  | cancelled .. => true
  | _ => false

/-- The failure that ended the run, where there is one. -/
def fatal? : RetryError ε → Option ε
  | fatal _ cause => some cause
  | _ => none

/-- The error in words, given the words for the failure. -/
def message (describe : ε → String) : RetryError ε → String
  | fatal name cause => "non retryable error running " ++ Text.quoted name ++ ": " ++ describe cause
  | exhausted name budget =>
    "giving up retrying " ++ Text.quoted name ++ s!", max attempts {budget.toNat} reached"
  | cancelled name => "retrying " ++ Text.quoted name ++ " cancelled"

end RetryError

/-- A retry policy, and the wait that the next wait without a hint takes instead of its own. -/
structure RetryEngine where
  policy : RetryPolicy
  override : Option Span := none

/-- What follows a call: the end of the run, or a wait. -/
inductive Settled (α ε : Type) where
  | done (result : Except (RetryError ε) α)
  | pause (wait : Span)

namespace RetryEngine

variable {α ε : Type}

/-- Replaces the next wait that has no hint. -/
def setNextRetry (e : RetryEngine) (wait : Span) : RetryEngine := { e with override := some wait }

/-- The wait after a passing failure, where `computed` is the policy's own, and the engine after
    it: a hint comes first, then the pending override, which is used up. -/
def chooseWait (e : RetryEngine) (hint : Option Span) (computed : Span) : Span × RetryEngine :=
  match hint, e.override with
  | some wait, _ => (wait, e)
  | none, some wait => (wait, { e with override := none })
  | none, none => (computed, e)

/-- What follows a call, given the policy's next wait if the budget has one left. -/
def settle (e : RetryEngine) (next : Option Span) : Attempt α ε → Settled α ε × RetryEngine
  | .success value => (.done (.ok value), e)
  | .fatal cause => (.done (.error (.fatal e.policy.name cause)), e)
  | .retry hint =>
    match next with
    | none => (.done (.error (.exhausted e.policy.name e.policy.budget)), e)
    | some computed => (.pause (e.chooseWait hint computed).1, (e.chooseWait hint computed).2)

end RetryEngine

/-- Seconds after which a timer counts as thirty years. -/
def Span.timerLimit : Nat := 9223372036854775807

/-- The length of a timer in milliseconds, rounded up; past the range of the timer's clock it is
    thirty years. -/
def Span.timerMillis (s : Span) : Nat :=
  if s.secs < Span.timerLimit then s.secs * 1000 + (s.nanos + 999999) / 1000000
  else 86400 * 365 * 30 * 1000

/-- One scripted call: what it comes to, how many milliseconds it lasts, and whether the run is
    cancelled at its end. -/
structure Call (α ε : Type) where
  attempt : Attempt α ε
  takes : Nat := 0
  cancels : Bool := false

/-- The account of a run: when each call started, which waits were taken, how and when it ended,
    and the engine after it.  Moments are milliseconds. -/
structure RunLog (α ε : Type) where
  starts : List Nat
  waits : List Span
  result : Except (RetryError ε) α
  ended : Nat
  engine : RetryEngine

namespace RetryEngine

variable {α ε : Type}

/-- The earlier of a moment that may never come and a given moment. -/
def earliest : Option Nat → Nat → Nat
  | none, t => t
  | some s, t => min s t

/-- Plays the rest of a run from call `index`, with `remaining` waits left in the budget, from
    moment `now`, with a token cancelled at moment `cancelAt` if at all. A cancellation is seen
    only during a wait, and wins where the wait ends at the same moment. -/
def runFrom (script : Nat → Call α ε) :
    (remaining index now : Nat) → (cancelAt : Option Nat) → RetryEngine → RunLog α ε
  | remaining, index, now, cancelAt, e =>
    let call := script index
    let finish := now + call.takes
    let cancelAt := if call.cancels then some (earliest cancelAt finish) else cancelAt
    let backoff : Backoff := ⟨e.policy.delays, index, remaining⟩
    match e.settle (backoff.next?.map Prod.fst) call.attempt with
    | (.done result, e) => ⟨[now], [], result, finish, e⟩
    | (.pause wait, e) =>
      let wake := finish + wait.timerMillis
      if cancelAt.any (· ≤ wake) then
        ⟨[now], [wait], .error (.cancelled e.policy.name), max finish (cancelAt.getD finish), e⟩
      else
        match remaining with
        | 0 => ⟨[now], [wait], .error (.exhausted e.policy.name e.policy.budget), finish, e⟩
        | remaining + 1 =>
          let log := runFrom script remaining (index + 1) wake cancelAt e
          { log with starts := now :: log.starts, waits := wait :: log.waits }

/-- Plays a whole run from moment zero. -/
def run (e : RetryEngine) (script : Nat → Call α ε) (cancelAt : Option Nat) : RunLog α ε :=
  runFrom script (e.policy.budget.toNat - 1) 0 0 cancelAt e

end RetryEngine

end Courier
