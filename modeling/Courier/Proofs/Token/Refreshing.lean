import Courier.Token.Weight

/-! # Refreshes — what one event makes of a refresh under way

    A relation with one rule for each event that a refresh expects
    (`Becomes`) says everything that an event can make of it; any other one
    changes nothing.  So a refresh goes on, or ends with the credential of
    the grant that it was waiting for, or ends with a failure upon a setback.
    The credential is dated from the reading of the clock just before the
    request that was answered.  The calls of both kinds of provider cite
    these facts and never open the step itself. -/

namespace Courier

instance : ∀ (state : Refreshing) (event : RefreshEvent), Decidable (state.expects event)
  | .due .., .sent _ | .awaiting .., .answered _ | .pausing .., .woken | .pausing .., .cancelled =>
    isTrue trivial
  | .ended _, .sent _ | .ended _, .answered _ | .ended _, .woken | .ended _, .cancelled =>
    isTrue trivial
  | .due .., .answered _ | .due .., .woken | .due .., .cancelled => isFalse id
  | .awaiting .., .sent _ | .awaiting .., .woken | .awaiting .., .cancelled => isFalse id
  | .pausing .., .sent _ | .pausing .., .answered _ => isFalse id

/-- Whether an event can end a refresh without a credential. -/
def RefreshEvent.IsSetback : RefreshEvent → Prop
  | cancelled => True
  | answered (.error _) => True
  | _ => False

/-- Whether the event sends a request. -/
def RefreshEvent.isRequest : RefreshEvent → Bool
  | sent _ => true
  | _ => false

/-- Every wait that a backoff gives uses up one. -/
theorem Backoff.remaining_lt_of_next? {b : Backoff} {slot : Span × Backoff}
    (next : b.next? = some slot) : slot.2.remaining < b.remaining := by
  obtain ⟨delays, index, remaining⟩ := b
  cases remaining with
  | zero => cases next
  | succ n =>
      cases next
      exact Nat.lt_succ_self n

namespace Refreshing

/-- Whether a refresh is still under way. -/
def IsRunning : Refreshing → Prop
  | ended _ => False
  | _ => True

/-- Whether a request that is out was dated by the given reading of the clock. -/
def IsDated (now : Instant) : Refreshing → Prop
  | awaiting _ _ requestedAt => requestedAt = now
  | _ => True

/-- How many requests a refresh can still send. -/
def tries : Refreshing → Nat
  | due _ backoff => backoff.remaining + 1
  | awaiting _ backoff _ => backoff.remaining
  | pausing _ backoff _ => backoff.remaining + 1
  | ended _ => 0

theorem tries_start (settings : RefreshSettings) :
    (start settings).tries = settings.policy.budget.toNat := by
  have pos : 0 < settings.policy.budget.toNat := settings.policy.budget_pos
  exact Nat.sub_add_cancel pos

/-- What an event that a running refresh expects makes of it. -/
inductive Becomes (maxAge : Span) : Refreshing → RefreshEvent → Refreshing → Prop where
  | sent {engine : RetryEngine} {backoff : Backoff} {now : Instant} :
      Becomes maxAge (due engine backoff) (.sent now) (awaiting engine backoff now)
  | granted {engine : RetryEngine} {backoff : Backoff} {requestedAt : Instant} {grant : Grant} :
      Becomes maxAge (awaiting engine backoff requestedAt) (.answered (.ok grant))
        (ended (.ok (.issued grant.token grant.lifetime maxAge requestedAt)))
  /-- A pause uses up one wait of the policy. -/
  | paused {engine engine' : RetryEngine} {backoff backoff' : Backoff} {requestedAt : Instant}
      {cause : IssuerError} {wait : Span} (fewer : backoff'.remaining < backoff.remaining) :
      Becomes maxAge (awaiting engine backoff requestedAt) (.answered (.error cause))
        (pausing engine' backoff' wait)
  | failed {engine : RetryEngine} {backoff : Backoff} {requestedAt : Instant}
      {cause : IssuerError} {failure : RetryError IssuerError} :
      Becomes maxAge (awaiting engine backoff requestedAt) (.answered (.error cause))
        (ended (.error failure))
  | woken {engine : RetryEngine} {backoff : Backoff} {wait : Span} :
      Becomes maxAge (pausing engine backoff wait) .woken (due engine backoff)
  | cancelled {engine : RetryEngine} {backoff : Backoff} {wait : Span} :
      Becomes maxAge (pausing engine backoff wait) .cancelled
        (ended (.error (.cancelled engine.policy.name)))

variable (maxAge : Span)

/-- A failure of the issuer leads to a pause, or ends the refresh. -/
theorem becomes_failed (engine : RetryEngine) (backoff : Backoff) (requestedAt : Instant)
    (cause : IssuerError) :
    Becomes maxAge (awaiting engine backoff requestedAt) (.answered (.error cause))
      (settled engine backoff (refreshAttempt maxAge requestedAt (.error cause))) := by
  rw [refreshAttempt]
  split
  · cases next : backoff.next? with
    | none =>
        simp only [settled, next, Option.map_none, RetryEngine.settle]
        exact .failed
    | some slot =>
        simp only [settled, next, Option.map_some, Option.getD_some, RetryEngine.settle]
        exact .paused (Backoff.remaining_lt_of_next? next)
  · exact .failed

/-- **ONE EVENT**: what a running refresh expects makes of it what the rules say. -/
theorem becomes_step {state : Refreshing} {event : RefreshEvent} (running : state.IsRunning)
    (expected : state.expects event) :
    Becomes maxAge state event (state.step maxAge event) := by
  cases state with
  | due engine backoff =>
      cases event with
      | sent now => exact .sent
      | answered answer => exact absurd expected id
      | woken => exact absurd expected id
      | cancelled => exact absurd expected id
  | awaiting engine backoff requestedAt =>
      cases event with
      | answered answer =>
          cases answer with
          | ok grant => exact .granted
          | error cause => exact becomes_failed maxAge engine backoff requestedAt cause
      | sent now => exact absurd expected id
      | woken => exact absurd expected id
      | cancelled => exact absurd expected id
  | pausing engine backoff wait =>
      cases event with
      | woken => exact .woken
      | cancelled => exact .cancelled
      | sent now => exact absurd expected id
      | answered answer => exact absurd expected id
  | ended result => exact absurd running id

/-- Any other event changes nothing. -/
theorem step_eq_self {state : Refreshing} {event : RefreshEvent}
    (unexpected : ¬state.expects event) : state.step maxAge event = state := by
  cases state <;> cases event <;> first | rfl | exact absurd trivial unexpected

/-- Every request uses up one try. -/
theorem tries_step_le {state : Refreshing} {event : RefreshEvent} (running : state.IsRunning)
    (expected : state.expects event) :
    (state.step maxAge event).tries + (if event.isRequest then 1 else 0) ≤ state.tries := by
  have becomes := becomes_step maxAge running expected
  generalize state.step maxAge event = next at becomes
  cases becomes with
  | sent => exact Nat.le_refl _
  | paused fewer => exact fewer
  | woken => exact Nat.le_refl _
  | granted | failed | cancelled => exact Nat.zero_le _

/-- A running refresh goes on, ends with the credential of a grant that its request was waiting
    for, or ends with a failure upon a setback. -/
theorem step_cases {state : Refreshing} (running : state.IsRunning) (event : RefreshEvent) :
    (state.step maxAge event).IsRunning ∨
    (∃ engine backoff requestedAt grant, state = awaiting engine backoff requestedAt ∧
      event = .answered (.ok grant) ∧ state.step maxAge event
        = ended (.ok (.issued grant.token grant.lifetime maxAge requestedAt))) ∨
    ∃ cause, event.IsSetback ∧ state.step maxAge event = ended (.error cause) := by
  by_cases expected : state.expects event
  · have becomes := becomes_step maxAge running expected
    generalize state.step maxAge event = next at becomes ⊢
    cases becomes with
    | sent | paused | woken => exact Or.inl trivial
    | granted => exact Or.inr (Or.inl ⟨_, _, _, _, rfl, rfl, rfl⟩)
    | failed | cancelled => exact Or.inr (Or.inr ⟨_, trivial, rfl⟩)
  · rw [step_eq_self maxAge expected]
    exact Or.inl running

/-- Requests stay dated by one reading where the clock does not move. -/
theorem isDated_step {state : Refreshing} {now : Instant} {event : RefreshEvent}
    (running : state.IsRunning) (dated : state.IsDated now)
    (still : ∀ reading, event = .sent reading → reading = now) :
    (state.step maxAge event).IsDated now := by
  by_cases expected : state.expects event
  · have becomes := becomes_step maxAge running expected
    generalize state.step maxAge event = next at becomes ⊢
    cases becomes with
    -- the clock is read here and nowhere else
    | sent => exact still _ rfl
    | granted | paused | failed | woken | cancelled => exact trivial
  · rw [step_eq_self maxAge expected]
    exact dated

variable {maxAge}

/-- A refresh waits for an answer just behind sending the request. -/
theorem sent_of_awaiting {state : Refreshing} {event : RefreshEvent}
    {engine : RetryEngine} {backoff : Backoff} {requestedAt : Instant}
    (expected : state.expects event)
    (next : state.step maxAge event = awaiting engine backoff requestedAt) :
    event = .sent requestedAt := by
  have running : state.IsRunning := by
    cases state with
    | ended result => exact nomatch next
    | due | awaiting | pausing => exact trivial
  have becomes := becomes_step maxAge running expected
  rw [next] at becomes
  cases becomes with
  | sent => rfl

end Refreshing

/-- A call keeps the lock as long as its refresh runs. -/
theorem LocalProvider.settle_of_isRunning {p : LocalProvider} {state : Refreshing}
    (running : state.IsRunning) : p.settle state = (p, .refreshing state) := by
  cases state with
  | ended result => exact absurd running id
  | due engine backoff => rfl
  | awaiting engine backoff requestedAt => rfl
  | pausing engine backoff wait => rfl

end Courier
