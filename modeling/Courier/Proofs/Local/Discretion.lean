import Courier.Proofs.Local.Crowd
import Courier.Proofs.Token.Discretion
import Courier.Token.Describe

/-! # Discretion of a provider — two crowds told the same, but for the tokens

    Two crowds with the same settings are alike as long as the same happens
    to them: the same calls queue, the same call holds the lock, and the
    caches hold credentials that are alike.  One act keeps them alike
    (`Crowd.Twin.step`), hence so does any run, and a provider of crowds
    that are alike shows alike, whichever API token it sends. -/

namespace Courier

/-! ## One call -/

/-- The same settings, and caches that are alike. -/
structure LocalProvider.Twin (p p' : LocalProvider) : Prop where
  settings : p.settings = p'.settings
  cached : Option.Rel Credential.Twin p.cached p'.cached

/-- Calls that refresh alike, or are done. -/
inductive LocalCall.Twin : LocalCall → LocalCall → Prop where
  | refreshing {state state' : Refreshing} (states : state.Twin state') :
      Twin (.refreshing state) (.refreshing state')
  | done (result result' : Except TokenError String) : Twin (.done result) (.done result')

namespace LocalProvider

/-- Entering calls of twin providers are twins. -/
theorem Twin.enter {p p' : LocalProvider} (h : p.Twin p') (now : Instant) :
    (p.enter now).Twin (p'.enter now) := by
  have found := Credential.Twin.filter_isUsableAt h.cached now
  rw [LocalProvider.enter, LocalProvider.enter]
  generalize (p.cached.filter fun c => c.isUsableAt now) = usable at found ⊢
  generalize (p'.cached.filter fun c => c.isUsableAt now) = usable' at found ⊢
  cases found with
  | none =>
      rw [h.settings]
      exact .refreshing (.refl _)
  | some alike => exact .done _ _

/-- Twin refreshes settle twin providers into twins. -/
theorem Twin.settle {p p' : LocalProvider} (h : p.Twin p') {state state' : Refreshing}
    (states : state.Twin state') :
    (p.settle state).1.Twin (p'.settle state').1 ∧
      (p.settle state).2.Twin (p'.settle state').2 := by
  cases states with
  | due engine backoff => exact ⟨h, .refreshing (.due engine backoff)⟩
  | awaiting engine backoff requestedAt =>
      exact ⟨h, .refreshing (.awaiting engine backoff requestedAt)⟩
  | pausing engine backoff wait => exact ⟨h, .refreshing (.pausing engine backoff wait)⟩
  | ended results =>
      cases results with
      | ok credentials => exact ⟨⟨h.settings, .some credentials⟩, .done _ _⟩
      | error failures => exact ⟨h, .done _ _⟩

/-- A step of twin refreshes keeps providers and calls twins. -/
theorem Twin.step {p p' : LocalProvider} (h : p.Twin p') {state state' : Refreshing}
    (states : state.Twin state') {event event' : RefreshEvent} (told : event.Twin event') :
    (p.step (.refreshing state) event).1.Twin (p'.step (.refreshing state') event').1 ∧
      (p.step (.refreshing state) event).2.Twin (p'.step (.refreshing state') event').2 := by
  have next := states.step p.settings.maxAge told
  rw [LocalProvider.step, LocalProvider.step, ← h.settings]
  exact h.settle next

end LocalProvider

/-- Twin providers describe what they have cached alike. -/
theorem LocalProvider.Twin.describeCached {p p' : LocalProvider} (h : p.Twin p') :
    describeCached p.cached = describeCached p'.cached := by
  have cached := h.cached
  generalize p.cached = c, p'.cached = c' at cached ⊢
  cases cached with
  | none => rfl
  | some alike => exact congrArg ("Some(" ++ · ++ ")") alike.describe

/-! ## A crowd -/

namespace Crowd

/-- The same act, but for the token that an answer grants. -/
inductive Act.Twin : Act → Act → Prop where
  | arrive : Twin .arrive .arrive
  | enter (now : Instant) : Twin (.enter now) (.enter now)
  | refresh {event event' : RefreshEvent} (events : event.Twin event') :
      Twin (.refresh event) (.refresh event')
  | leave (i : Nat) : Twin (.leave i) (.leave i)

/-- The same calls at the same places, and providers that are alike. -/
structure Twin (s s' : Crowd) : Prop where
  provider : s.provider.Twin s'.provider
  arrivals : s.arrivals = s'.arrivals
  queue : s.queue = s'.queue
  holder : Option.Rel (fun held held' => held.1 = held'.1 ∧ held.2.Twin held'.2) s.holder s'.holder

theorem twin_new (settings : RefreshSettings) : (new settings).Twin (new settings) :=
  ⟨⟨rfl, .none⟩, rfl, rfl, .none⟩

variable {s s' : Crowd}

theorem Twin.holder_fst (h : s.Twin s') : s.holder.map Prod.fst = s'.holder.map Prod.fst := by
  have holders := h.holder
  generalize s.holder = holder, s'.holder = holder' at holders ⊢
  cases holders with
  | none => rfl
  | some alike => exact congrArg some alike.1

/-- Going on with the lock's holder keeps crowds twins. -/
theorem Twin.goOn (h : s.Twin s') (i : Nat) (notes notes' : List Note)
    {moved moved' : LocalProvider × LocalCall}
    (providers : moved.1.Twin moved'.1) (calls : moved.2.Twin moved'.2) :
    (s.goOn i notes moved).Twin (s'.goOn i notes' moved') := by
  obtain ⟨p, call⟩ := moved
  obtain ⟨p', call'⟩ := moved'
  cases calls with
  | refreshing states => exact ⟨providers, h.arrivals, h.queue, .some ⟨rfl, states⟩⟩
  | done result result' => exact ⟨providers, h.arrivals, h.queue, .none⟩

/-- An entering call keeps crowds twins. -/
theorem Twin.enter (h : s.Twin s') (now : Instant) :
    (s.step (.enter now)).Twin (s'.step (.enter now)) := by
  simp only [step]
  rw [← h.queue]
  generalize held : s.holder = holder
  generalize held' : s'.holder = holder'
  have holders := h.holder
  rw [held, held'] at holders
  cases holders with
  | some holders => exact h
  | none =>
      cases waiting : s.queue with
      | nil => exact h
      | cons i queue =>
          have behind : Twin { s with queue } { s' with queue } :=
            ⟨h.provider, h.arrivals, rfl, h.holder⟩
          exact behind.goOn i _ _ h.provider (h.provider.enter now)

/-- Twin events of the refresh keep crowds twins. -/
theorem Twin.refresh (h : s.Twin s') {event event' : RefreshEvent} (told : event.Twin event') :
    (s.step (.refresh event)).Twin (s'.step (.refresh event')) := by
  simp only [step]
  generalize held : s.holder = holder
  generalize held' : s'.holder = holder'
  have holders := h.holder
  rw [held, held'] at holders
  cases holders with
  | none => exact h
  | @some inside inside' alike =>
      obtain ⟨i, state⟩ := inside
      obtain ⟨i', state'⟩ := inside'
      obtain ⟨rfl, states⟩ : i = i' ∧ state.Twin state' := alike
      by_cases expected : state.expects event
      · have moved := h.provider.step states told
        simp only [if_pos expected, if_pos ((states.expects told).mp expected)]
        exact h.goOn i _ _ moved.1 moved.2
      · simp only [if_neg expected, if_neg fun e => expected ((states.expects told).mpr e)]
        exact h

theorem Twin.leave (h : s.Twin s') (i : Nat) :
    (s.step (.leave i)).Twin (s'.step (.leave i)) := by
  have holds := h.holder_fst
  simp only [step, holds, h.queue]
  split
  · exact ⟨h.provider, h.arrivals, rfl, .none⟩
  · split
    · exact ⟨h.provider, h.arrivals, rfl, h.holder⟩
    · exact h

/-- **ONE ACT**: the same act keeps crowds alike. -/
theorem Twin.step (h : s.Twin s') {act act' : Act} (acts : act.Twin act') :
    (s.step act).Twin (s'.step act') := by
  cases acts with
  | arrive =>
      have arrivals := congrArg (· + 1) h.arrivals
      exact ⟨h.provider, arrivals, congrArg₂ (· ++ [·]) h.queue h.arrivals, h.holder⟩
  | enter now => exact h.enter now
  | refresh events => exact h.refresh events
  | leave i => exact h.leave i

/-- The same acts keep crowds alike. -/
theorem Twin.run (h : s.Twin s') {acts acts' : List Act} (same : List.Forall₂ Act.Twin acts acts') :
    (s.run acts).Twin (s'.run acts') :=
  List.rel_foldl (fun _ _ alike _ _ acts => alike.step acts) h same

/-- The provider of a crowd as logs show it; a call that holds the lock hides the cache. -/
def describe (apiToken : String) (clock : Timepiece) (s : Crowd) : String :=
  Refresher.describeLocal ⟨apiToken, clock, s.provider.settings⟩ s.holder.isSome s.provider.cached

/-- Twin crowds describe what they have cached alike. -/
theorem Twin.cached (h : s.Twin s') :
    s.provider.cached.map Credential.describe = s'.provider.cached.map Credential.describe := by
  have cached := h.provider.cached
  generalize s.provider.cached = c, s'.provider.cached = c' at cached ⊢
  cases cached with
  | none => rfl
  | some twins => exact congrArg some twins.describe

/-- **ALIKE SHOWS ALIKE**: the description has neither the API token nor a granted one. -/
theorem Twin.describe (h : s.Twin s') (apiToken apiToken' : String) (clock : Timepiece) :
    s.describe apiToken clock = s'.describe apiToken' clock := by
  have held : s.holder.isSome = s'.holder.isSome := by
    rw [← Option.isSome_map, h.holder_fst, Option.isSome_map]
  unfold Crowd.describe Refresher.describeLocal Refresher.describe describeCache
  rw [h.provider.describeCached, held, h.provider.settings]

end Crowd

end Courier
