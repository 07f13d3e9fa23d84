import Courier.Token.Local
import Courier.Token.Shared

/-! # Weights — why every call ends

    A refresh goes through three states per attempt, and each attempt but
    the last uses up a wait of the policy.  The weight counts the states
    that may still come; every event that applies lowers it. -/

namespace Courier

/-- How many states of a refresh may still come. -/
def Refreshing.weight : Refreshing → Nat
  | due _ backoff => 3 * backoff.remaining + 3
  | awaiting _ backoff _ => 3 * backoff.remaining + 2
  | pausing _ backoff _ => 3 * backoff.remaining + 4
  | ended _ => 1

/-- Whether an event is the one that a refresh waits for. -/
def Refreshing.expects : Refreshing → RefreshEvent → Prop
  | due .., .sent _ => True
  | awaiting .., .answered _ => True
  | pausing .., .woken => True
  | pausing .., .cancelled => True
  | ended _, _ => True
  | _, _ => False

namespace Refreshing

/-- A pause uses up one wait of the policy. -/
theorem weight_settled_lt (engine : RetryEngine) (backoff : Backoff)
    (attempt : Attempt Credential IssuerError) :
    (settled engine backoff attempt).weight < 3 * backoff.remaining + 2 := by
  obtain ⟨delays, index, remaining⟩ := backoff
  cases attempt with
  | success value => simp [settled, RetryEngine.settle, weight]
  | fatal cause => simp [settled, RetryEngine.settle, weight]
  | retry hint =>
    cases remaining with
    | zero => simp [settled, RetryEngine.settle, Backoff.next?, weight]
    | succ n =>
      simp only [settled, RetryEngine.settle, Backoff.next?, weight, Option.map_some,
        Option.getD_some]
      omega

/-- Where a refresh goes on, an event that it waits for lowers its weight. -/
theorem weight_step_lt (maxAge : Span) {state : Refreshing} {event : RefreshEvent}
    (expected : state.expects event) (running : ∀ result, state ≠ ended result) :
    (state.step maxAge event).weight < state.weight := by
  cases state with
  | due engine backoff =>
    cases event <;> simp_all [expects, step, weight]
  | awaiting engine backoff requestedAt =>
    cases event <;> simp_all [expects, step]
    exact weight_settled_lt ..
  | pausing engine backoff wait =>
    cases event <;> simp_all [expects, step, weight]
  | ended result => exact absurd rfl (running result)

end Refreshing

/-- How many states of a call may still come. -/
def LocalCall.weight : LocalCall → Nat
  | refreshing state => state.weight + 1
  | done _ => 0

/-- An event that a call waits for lowers its weight. -/
theorem LocalProvider.weight_step_lt (p : LocalProvider) {state : Refreshing}
    {event : RefreshEvent} (expected : state.expects event) :
    (p.step (.refreshing state) event).2.weight < (LocalCall.refreshing state).weight := by
  by_cases running : ∃ result, state = .ended result
  · obtain ⟨result, rfl⟩ := running
    cases result <;> simp [step, Refreshing.step, settle, LocalCall.weight]
  · have lower := Refreshing.weight_step_lt p.settings.maxAge expected
      fun result h => running ⟨result, h⟩
    simp only [step, settle]
    split <;> simp_all [LocalCall.weight]

namespace SharedCall

/-- How many states of a call under the given settings may still come. -/
def weight (settings : RefreshSettings) : SharedCall → Nat
  | looking => (Refreshing.start settings).weight + 9
  | refreshing state => state.weight + 8
  | rereading round _ => 2 * (maxRounds + 1 - round) + 2
  | writing round _ _ => 2 * (maxRounds + 1 - round) + 1
  | done _ => 0

/-- What becomes of a call with its refresh weighs no more than the refresh before it. -/
theorem weight_ofRefreshing_le (settings : RefreshSettings) (state : Refreshing) :
    (ofRefreshing state).weight settings ≤ state.weight + 8 := by
  unfold ofRefreshing
  split <;> simp [weight, Refreshing.weight, maxRounds]

/-- An event of its refresh that a call waits for lowers its weight. -/
theorem weight_refresh_lt (settings : RefreshSettings) {state : Refreshing}
    {event : RefreshEvent} (expected : state.expects event) :
    ((refreshing state).step settings (.refresh event)).weight settings
      < (refreshing state).weight settings := by
  by_cases running : ∃ result, state = .ended result
  · obtain ⟨result, rfl⟩ := running
    cases result <;>
      simp [step, Refreshing.step, ofRefreshing, weight, Refreshing.weight, maxRounds]
  · have lower := Refreshing.weight_step_lt settings.maxAge expected
      fun result h => running ⟨result, h⟩
    have le := weight_ofRefreshing_le settings (state.step settings.maxAge event)
    simp only [step, weight] at *
    omega

/-- A first read lowers the weight. -/
theorem weight_looking_lt (settings : RefreshSettings) (answer : Except StoreError Record)
    (now : Instant) :
    (looking.step settings (.read answer now)).weight settings < looking.weight settings := by
  cases answer with
  | error cause => simp [step, weight]
  | ok record =>
    simp only [step]
    split <;> simp [weight]

/-- A read before a write lowers the weight. -/
theorem weight_rereading_lt (settings : RefreshSettings) (round : Nat) (fresh : Credential)
    (answer : Except StoreError Record) (now : Instant) :
    ((rereading round fresh).step settings (.read answer now)).weight settings
      < (rereading round fresh).weight settings := by
  cases answer with
  | error cause => simp [step, weight]
  | ok record =>
    simp only [step]
    split <;> simp [weight]

/-- A write lowers the weight. -/
theorem weight_writing_lt (settings : RefreshSettings) (round : Nat) (fresh : Credential)
    (edited : Record) (answer : Except StoreError Record) :
    ((writing round fresh edited).step settings (.written answer)).weight settings
      < (writing round fresh edited).weight settings := by
  cases answer with
  | ok record => simp [step, weight]
  | error cause =>
    cases cause with
    | conflict location expected =>
      simp only [step, afterConflict]
      split <;> simp only [weight] <;> omega
    | notFound location => simp [step, weight]
    | database reason => simp [step, weight]
    | badData fault => simp [step, weight]

end SharedCall

end Courier
