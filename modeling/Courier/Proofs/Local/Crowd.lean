import Courier.Proofs.Token.Refreshing
import Courier.Token.Local

/-! # Crowds — calls of one provider, one behind the other

    Any number of calls share a provider and its lock.  A call arrives and
    queues; the first of the queue takes the lock once it is free, reads the
    clock, and answers from the cache or refreshes while it holds the lock.
    Meanwhile others arrive, the clock moves, and whoever waits for a call may
    give it up.  An act that does not apply changes nothing.

    The log keeps what happened, in order.  A provider that is built with a
    proof of its API token has made that one refresh as its first call. -/

namespace Courier

/-- What happened to a call; calls are numbered as they arrive. -/
inductive Note where
  /-- The call arrived, and queues for the lock. -/
  | arrived (i : Nat)
  /-- The call took the lock, and the clock read as given. -/
  | took (i : Nat) (now : Instant)
  /-- The refresh of the call was told how it goes on. -/
  | heard (i : Nat) (event : RefreshEvent)
  /-- The refresh of the call succeeded. -/
  | refreshed (i : Nat) (c : Credential)
  | returned (i : Nat) (result : Except TokenError String)
  /-- Whoever waited for the call gave it up. -/
  | left (i : Nat)

/-- A provider and its calls. -/
structure Crowd where
  provider : LocalProvider
  /-- How many calls have arrived. -/
  arrivals : Nat := 0
  /-- Who waits for the lock, in order. -/
  queue : List Nat := []
  /-- Who holds the lock, with the refresh that takes so long. -/
  holder : Option (Nat × Refreshing) := none
  log : List Note := []

/-- The credential that a refresh ended with, if it did. -/
def Refreshing.credential? : Refreshing → Option Credential
  | ended (.ok c) => some c
  | _ => none

/-- A refresh that still runs holds no credential. -/
theorem Refreshing.credential?_of_isRunning {state : Refreshing} (running : state.IsRunning) :
    state.credential? = none := by
  cases state with
  | ended result => exact absurd running id
  | due engine backoff => rfl
  | awaiting engine backoff requestedAt => rfl
  | pausing engine backoff wait => rfl

namespace Crowd

/-- What happens next. -/
inductive Act where
  /-- A call arrives. -/
  | arrive
  /-- The first of the queue takes the lock, and the clock reads as given. -/
  | enter (now : Instant)
  /-- Whoever holds the lock learns how its refresh goes on. -/
  | refresh (event : RefreshEvent)
  /-- A call is given up. -/
  | leave (i : Nat)

/-- The crowd once a call stands somewhere: it keeps the lock as long as it refreshes. -/
def goOn (s : Crowd) (i : Nat) (notes : List Note) : LocalProvider × LocalCall → Crowd
  | (provider, .refreshing state) =>
    { s with provider, holder := some (i, state), log := s.log ++ notes }
  | (provider, .done result) =>
    { s with provider, holder := none, log := s.log ++ (notes ++ [.returned i result]) }

/-- The crowd after an act; an act that does not apply changes nothing. -/
def step (s : Crowd) : Act → Crowd
  | .arrive =>
    { s with arrivals := s.arrivals + 1, queue := s.queue ++ [s.arrivals],
             log := s.log ++ [.arrived s.arrivals] }
  | .enter now =>
    match s.holder, s.queue with
    | none, i :: queue =>
      { s with queue }.goOn i [.took i now] (s.provider, s.provider.enter now)
    | _, _ => s
  | .refresh event =>
    match s.holder with
    | some (i, state) =>
      if state.expects event then
        let next := state.step s.provider.settings.maxAge event
        s.goOn i (.heard i event :: next.credential?.toList.map (.refreshed i))
          (s.provider.step (.refreshing state) event)
      else s
    | none => s
  | .leave i =>
    if s.holder.map Prod.fst = some i then { s with holder := none, log := s.log ++ [.left i] }
    else if i ∈ s.queue then { s with queue := s.queue.erase i, log := s.log ++ [.left i] }
    else s

/-- A new provider that nobody has called. -/
def new (settings : RefreshSettings) : Crowd where
  provider := { settings }

/-- The crowd behind some acts. -/
def run (s : Crowd) (acts : List Act) : Crowd := acts.foldl step s

/-- Whether the refresh of the holder has not ended. -/
def IsRunning (s : Crowd) : Prop := ∀ i state, s.holder = some (i, state) → state.IsRunning

/-- What an act can make of a crowd. -/
inductive Becomes (s : Crowd) : Crowd → Prop where
  | same : Becomes s s
  | arrived : Becomes s
      { s with arrivals := s.arrivals + 1, queue := s.queue ++ [s.arrivals],
               log := s.log ++ [.arrived s.arrivals] }
  /-- A call leaves the queue. -/
  | queueLeft (i : Nat) (waits : i ∈ s.queue) : Becomes s
      { s with queue := s.queue.erase i, log := s.log ++ [.left i] }
  /-- A call gives the lock back in the middle of its refresh. -/
  | lockLeft (i : Nat) (state : Refreshing) (inside : s.holder = some (i, state)) : Becomes s
      { s with holder := none, log := s.log ++ [.left i] }
  /-- A call answers from the cache. -/
  | found (i : Nat) (queue : List Nat) (now : Instant) (c : Credential) (free : s.holder = none)
      (first : s.queue = i :: queue) (cached : s.provider.cached = some c)
      (usable : c.isUsableAt now = true) : Becomes s
      { s with queue, holder := none,
               log := s.log ++ [.took i now, .returned i (.ok c.token)] }
  /-- A call starts its refresh. -/
  | missed (i : Nat) (queue : List Nat) (now : Instant) (free : s.holder = none)
      (first : s.queue = i :: queue)
      (unusable : ∀ c, s.provider.cached = some c → c.isUsableAt now = false) : Becomes s
      { s with queue, holder := some (i, .start s.provider.settings),
               log := s.log ++ [.took i now] }
  /-- A refresh goes on. -/
  | wentOn (i : Nat) (state : Refreshing) (event : RefreshEvent)
      (inside : s.holder = some (i, state)) (expected : state.expects event)
      (running : (state.step s.provider.settings.maxAge event).IsRunning) : Becomes s
      { s with holder := some (i, state.step s.provider.settings.maxAge event),
               log := s.log ++ [.heard i event] }
  /-- A refresh succeeds with what a grant comes to. -/
  | succeeded (i : Nat) (engine : RetryEngine) (backoff : Backoff) (requestedAt : Instant)
      (grant : Grant) (c : Credential)
      (inside : s.holder = some (i, .awaiting engine backoff requestedAt))
      (issued : c = .issued grant.token grant.lifetime s.provider.settings.maxAge requestedAt) :
      Becomes s
      { s with provider := { s.provider with cached := some c }, holder := none,
               log := s.log ++ [.heard i (.answered (.ok grant)), .refreshed i c,
                 .returned i (.ok c.token)] }
  /-- A refresh fails. -/
  | failed (i : Nat) (state : Refreshing) (event : RefreshEvent) (cause : RetryError IssuerError)
      (inside : s.holder = some (i, state)) : Becomes s
      { s with holder := none,
               log := s.log ++ [.heard i event, .returned i (.error (.refresh cause))] }

theorem becomes_enter (s : Crowd) (now : Instant) : s.Becomes (s.step (.enter now)) := by
  rw [step]
  split
  · next i queue free first =>
      rw [LocalProvider.enter]
      split
      · next c usable =>
          obtain ⟨cached, inTime⟩ := Option.filter_eq_some_iff.mp usable
          exact .found i queue now c free first cached inTime
      · next unusable =>
          refine .missed i queue now free first fun c cached => ?_
          rw [cached, Option.filter_some] at unusable
          cases inTime : c.isUsableAt now with
          | false => rfl
          | true =>
              rw [inTime] at unusable
              exact nomatch unusable
  · exact .same

theorem becomes_leave (s : Crowd) (i : Nat) : s.Becomes (s.step (.leave i)) := by
  rw [step]
  split
  · next inside =>
      obtain ⟨⟨j, state⟩, holds, rfl⟩ := Option.map_eq_some_iff.mp inside
      exact .lockLeft j state holds
  · split
    · next waits => exact .queueLeft i waits
    · exact .same

/-- What an event of the refresh makes of the crowd. -/
theorem becomes_refresh {s : Crowd} (running : s.IsRunning) (event : RefreshEvent) :
    s.Becomes (s.step (.refresh event)) := by
  cases holds : s.holder with
  | none =>
      rw [step, holds]
      exact .same
  | some inside =>
      obtain ⟨i, state⟩ := inside
      by_cases expected : state.expects event
      · simp only [step, holds, if_pos expected, LocalProvider.step]
        rcases Refreshing.step_cases s.provider.settings.maxAge (running i state holds) event with
          goesOn | ⟨engine, backoff, requestedAt, grant, rfl, rfl, ended⟩ | ⟨cause, -, ended⟩
        · rw [Refreshing.credential?_of_isRunning goesOn, LocalProvider.settle_of_isRunning goesOn]
          exact .wentOn i state event holds expected goesOn
        · rw [ended]
          exact .succeeded i engine backoff requestedAt grant _ holds rfl
        · rw [ended]
          exact .failed i state event cause holds
      · simp only [step, holds, if_neg expected]
        exact .same

/-- **ONE ACT**: everything that an act can make of a crowd. -/
theorem step_becomes {s : Crowd} (running : s.IsRunning) (act : Act) : s.Becomes (s.step act) := by
  cases act with
  | arrive => exact .arrived
  | enter now => exact s.becomes_enter now
  | refresh event => exact becomes_refresh running event
  | leave i => exact s.becomes_leave i

end Crowd

end Courier
