import Courier.Proofs.Token.Refreshing
import Mathlib.Data.List.Forall2

/-! # Discretion — runs that differ in their secrets only

    What a run keeps to itself is told by a second run beside it, whose
    tokens are other ones.  Both are told the same at the same moments; a
    token is empty in both or in neither, for that decides whether it is
    used.  What is ALIKE in this sense shows alike: this file relates what
    a refresh is told and where it stands, and `Refreshing.Twin.step`
    carries that from one event to the next. -/

namespace Courier

/-- Two outcomes: related values, or related failures. -/
inductive Matched {ε α : Type} (E : ε → ε → Prop) (R : α → α → Prop) :
    Except ε α → Except ε α → Prop where
  | ok {a a' : α} (values : R a a') : Matched E R (.ok a) (.ok a')
  | error {e e' : ε} (failures : E e e') : Matched E R (.error e) (.error e')

/-- An outcome matches itself if failures and values do. -/
theorem Matched.refl {ε α : Type} {E : ε → ε → Prop} {R : α → α → Prop} (failures : ∀ e, E e e)
    (values : ∀ a, R a a) : (outcome : Except ε α) → Matched E R outcome outcome
  | .ok a => .ok (values a)
  | .error e => .error (failures e)

/-- Whether both texts are empty, or neither is. -/
def SameBlank (text text' : String) : Prop := text.isEmpty = text'.isEmpty

instance (text text' : String) : Decidable (SameBlank text text') :=
  inferInstanceAs (Decidable (_ = _))

/-! ## What is alike -/

/-- The same expiry, and a token in both or in neither. -/
structure Credential.Twin (c c' : Credential) : Prop where
  expiresAt : c.expiresAt = c'.expiresAt
  token : SameBlank c.token c'.token

/-- The same lifetime, and a token in both or in neither. -/
structure Grant.Twin (g g' : Grant) : Prop where
  expiresIn : g.expiresIn = g'.expiresIn
  token : SameBlank g.token g'.token

/-- Failures that ask for the same: their texts may differ. -/
structure IssuerError.Twin (e e' : IssuerError) : Prop where
  isRetryable : e.isRetryable = e'.isRetryable
  hint : e.hint = e'.hint

/-- The same news of a refresh, but for the granted token. -/
inductive RefreshEvent.Twin : RefreshEvent → RefreshEvent → Prop where
  | sent (now : Instant) : Twin (.sent now) (.sent now)
  | answered {answer answer' : Except IssuerError Grant}
      (answers : Matched IssuerError.Twin Grant.Twin answer answer') :
      Twin (.answered answer) (.answered answer')
  | woken : Twin .woken .woken
  | cancelled : Twin .cancelled .cancelled

/-- The same standing of a refresh, but for the token that it ended with. -/
inductive Refreshing.Twin : Refreshing → Refreshing → Prop where
  | due (engine : RetryEngine) (backoff : Backoff) : Twin (.due engine backoff) (.due engine backoff)
  | awaiting (engine : RetryEngine) (backoff : Backoff) (requestedAt : Instant) :
      Twin (.awaiting engine backoff requestedAt) (.awaiting engine backoff requestedAt)
  | pausing (engine : RetryEngine) (backoff : Backoff) (wait : Span) :
      Twin (.pausing engine backoff wait) (.pausing engine backoff wait)
  | ended {result result' : Except (RetryError IssuerError) Credential}
      (results : Matched (fun _ _ => True) Credential.Twin result result') :
      Twin (.ended result) (.ended result')

namespace Credential

theorem Twin.refl (c : Credential) : c.Twin c := ⟨rfl, rfl⟩

theorem Twin.describe {c c' : Credential} (h : c.Twin c') : c.describe = c'.describe := by
  have blank : c.token.isEmpty = c'.token.isEmpty := h.token
  unfold Credential.describe
  rw [blank, h.expiresAt]

/-- Twins are usable at the same instants. -/
theorem Twin.isUsableAt {c c' : Credential} (h : c.Twin c') (now : Instant) :
    c.isUsableAt now = c'.isUsableAt now := by
  have blank : c.token.isEmpty = c'.token.isEmpty := h.token
  simp only [Credential.isUsableAt, blank, h.expiresAt]

/-- Of two that are alike, one is left out exactly if the other is. -/
theorem Twin.filter_isUsableAt {c c' : Option Credential} (h : Option.Rel Twin c c')
    (now : Instant) : Option.Rel Twin (c.filter fun c => c.isUsableAt now)
      (c'.filter fun c => c.isUsableAt now) := by
  cases h with
  | none => exact .none
  | @some c c' alike =>
      rw [Option.filter_some, Option.filter_some, alike.isUsableAt now]
      split
      · exact .some alike
      · exact .none

end Credential

/-- Grants that are twins come to credentials that are twins. -/
theorem Grant.Twin.issued {g g' : Grant} (h : g.Twin g') (maxAge : Span) (now : Instant) :
    (Credential.issued g.token g.lifetime maxAge now).Twin
      (.issued g'.token g'.lifetime maxAge now) :=
  ⟨by rw [Credential.issued, Credential.issued, lifetime, lifetime, h.expiresIn], h.token⟩

theorem Grant.Twin.refl (g : Grant) : g.Twin g := ⟨rfl, rfl⟩

theorem IssuerError.Twin.refl (e : IssuerError) : e.Twin e := ⟨rfl, rfl⟩

theorem RefreshEvent.Twin.refl : (event : RefreshEvent) → event.Twin event
  | .sent now => .sent now
  | .answered answer => .answered (.refl IssuerError.Twin.refl Grant.Twin.refl answer)
  | .woken => .woken
  | .cancelled => .cancelled

/-! ## Refreshes -/

namespace Refreshing

theorem Twin.refl : (state : Refreshing) → state.Twin state
  | .due engine backoff => .due engine backoff
  | .awaiting engine backoff requestedAt => .awaiting engine backoff requestedAt
  | .pausing engine backoff wait => .pausing engine backoff wait
  | .ended result => .ended (Matched.refl (fun _ => trivial) Credential.Twin.refl result)

/-- Requests that were answered alike leave refreshes alike: only the failures' wishes count. -/
theorem twin_settled (engine : RetryEngine) (backoff : Backoff) (maxAge : Span)
    (requestedAt : Instant) {answer answer' : Except IssuerError Grant}
    (h : Matched IssuerError.Twin Grant.Twin answer answer') :
    (settled engine backoff (refreshAttempt maxAge requestedAt answer)).Twin
      (settled engine backoff (refreshAttempt maxAge requestedAt answer')) := by
  cases h with
  | ok grants => exact .ended (.ok (grants.issued maxAge requestedAt))
  | error failures =>
      simp only [refreshAttempt]
      rw [failures.isRetryable, failures.hint]
      split
      · exact .refl _
      · exact .ended (.error trivial)

/-- **ONE EVENT**: what is told alike leaves refreshes alike. -/
theorem Twin.step {state state' : Refreshing} (h : state.Twin state') (maxAge : Span)
    {event event' : RefreshEvent} (told : event.Twin event') :
    (state.step maxAge event).Twin (state'.step maxAge event') := by
  cases h with
  | due engine backoff =>
      cases told with
      | sent now => exact .awaiting engine backoff now
      | answered answers => exact .due engine backoff
      | woken => exact .due engine backoff
      | cancelled => exact .due engine backoff
  | awaiting engine backoff requestedAt =>
      cases told with
      | answered answers => exact twin_settled engine backoff maxAge requestedAt answers
      | sent now => exact .awaiting engine backoff requestedAt
      | woken => exact .awaiting engine backoff requestedAt
      | cancelled => exact .awaiting engine backoff requestedAt
  | pausing engine backoff wait =>
      cases told with
      | woken => exact .due engine backoff
      | cancelled => exact .ended (.error trivial)
      | sent now => exact .pausing engine backoff wait
      | answered answers => exact .pausing engine backoff wait
  | ended results => cases told <;> exact .ended results

/-- Refreshes that stand alike expect the same. -/
theorem Twin.expects {state state' : Refreshing} (h : state.Twin state')
    {event event' : RefreshEvent} (told : event.Twin event') :
    state.expects event ↔ state'.expects event' := by
  cases h <;> cases told <;> exact Iff.rfl

end Refreshing

end Courier
