import Courier.Proofs.Retry.Course
import Courier.Proofs.Token.Conduct
import Courier.Proofs.Token.Refreshing

/-! # Outcomes — what one call of a provider comes to

    A call that finds no usable credential asks the issuer until it answers
    with a grant or with a failure that is final, or until the budget of the
    policy is used up, or until the call is given up.  It stands before its
    request number `i` just if all requests before it failed in passing
    (`conduct_eq_rest`); from there, the answer to that request decides.

    Success replaces the cache and every failure leaves it alone, whatever
    was cached before. -/

namespace Courier

/-! ## What a call meets, request by request -/

/-- What a call meets: what the clock reads before each of its requests, what the issuer answers to
    it, and whether the call is given up in the wait behind it. -/
structure Fortune where
  reading : Nat → Instant
  answer : Nat → Except IssuerError Grant
  givesUp : Nat → Bool

namespace Fortune

variable (f : Fortune)

/-- The world counts the waits so far.  A provider with a cache of its own never comes to its
    store. -/
def conditions : Conditions Nat where
  clock i := (f.reading i, i)
  issuer _ i := (f.answer i, i)
  pause _ i := (f.givesUp i, i + 1)
  read i := (.error (.database ""), i)
  write _ i := (.error (.database ""), i)

/-- Whether the request with the given index fails in passing. -/
def Retries (i : Nat) : Prop := ∃ e, f.answer i = .error e ∧ e.isRetryable = true

/-- The wait that the answer to a request asks for. -/
def hint? (i : Nat) : Option Span :=
  match f.answer i with
  | .error e => e.hint
  | .ok _ => none

/-- The wait behind a request that fails in passing: the one that its answer asks for, or else the
    policy's own with the index of the request. -/
def waitAfter (policy : RetryPolicy) (i : Nat) : Span :=
  (f.hint? i).getD (policy.delays.delay i)

/-- The requests before the one with the given index, with their waits. -/
def deedsBefore (policy : RetryPolicy) (apiToken : String) (i : Nat) : List Deed :=
  (List.range i).flatMap fun k => [.asked apiToken (f.reading k), .waited (f.waitAfter policy k)]

/-- The requests up to the one with the given index, with the waits between them. -/
def deedsUpTo (policy : RetryPolicy) (apiToken : String) (i : Nat) : List Deed :=
  f.deedsBefore policy apiToken i ++ [.asked apiToken (f.reading i)]

/-- The deeds before one more attempt are those before, the request and the wait behind it. -/
theorem deedsBefore_succ (policy : RetryPolicy) (apiToken : String) (i : Nat) :
    f.deedsBefore policy apiToken (i + 1) = f.deedsBefore policy apiToken i
      ++ [.asked apiToken (f.reading i), .waited (f.waitAfter policy i)] := by
  rw [deedsBefore, List.range_succ, List.flatMap_append]
  rfl

end Fortune

/-- Whether a deed is a request to the issuer. -/
def Deed.isRequest : Deed → Bool
  | asked .. => true
  | _ => false

/-- The wait that a deed is, if it is one. -/
def Deed.wait? : Deed → Option Span
  | waited wait => some wait
  | _ => none

/-- How many requests to the issuer there are among some deeds. -/
def requests (deeds : List Deed) : Nat := deeds.countP Deed.isRequest

/-- Up to an attempt there are as many requests as attempts. -/
theorem requests_deedsUpTo (f : Fortune) (policy : RetryPolicy) (apiToken : String) (i : Nat) :
    requests (f.deedsUpTo policy apiToken i) = i + 1 := by
  have before : requests (f.deedsBefore policy apiToken i) = i := by
    induction i with
    | zero => rfl
    | succ i ih =>
        rw [f.deedsBefore_succ, requests, List.countP_append, ← requests, ih]
        rfl
  rw [Fortune.deedsUpTo, requests, List.countP_append, ← requests, before]
  rfl

namespace LocalProvider

/-- A call that finds a usable credential is done with its token. -/
theorem enter_of_usable {p : LocalProvider} {now : Instant} {c : Credential}
    (cached : p.cached = some c) (usable : c.isUsableAt now = true) :
    p.enter now = .done (.ok c.token) := by
  simp only [enter, cached, Option.filter_some, usable, if_true]

/-- A call that finds none starts a refresh. -/
theorem enter_of_unusable {p : LocalProvider} {now : Instant}
    (unusable : ∀ c, p.cached = some c → c.isUsableAt now = false) :
    p.enter now = .refreshing (.start p.settings) := by
  have none : p.cached.filter (fun c => c.isUsableAt now) = none :=
    Option.filter_eq_none_iff.mpr fun c cached => Bool.eq_false_iff.mp (unusable c cached)
  simp only [enter, none]

/-! ## One request -/

section Course

variable (p : LocalProvider) (f : Fortune) (apiToken : String) (i : Nat)

/-- The refresh of a call before its request with the given index. -/
def refreshAt : Refreshing :=
  .due ⟨p.settings.policy, none⟩
    ⟨p.settings.policy.delays, i, p.settings.policy.budget.toNat - 1 - i⟩

/-- The rest of a call from its request with the given index on. -/
def rest : Ended LocalProvider Nat :=
  p.conduct f.conditions apiToken (.refreshing (p.refreshAt i)) i

/-- What the answer to a request makes of the refresh. -/
def settledAt : Refreshing :=
  Refreshing.settled ⟨p.settings.policy, none⟩
    ⟨p.settings.policy.delays, i, p.settings.policy.budget.toNat - 1 - i⟩
    (refreshAttempt p.settings.maxAge (f.reading i) (f.answer i))

/-- The request is sent and answered, and the answer decides. -/
theorem rest_eq : p.rest f apiToken i =
    let stepped := p.settle (p.settledAt f i)
    (stepped.1.conduct f.conditions apiToken stepped.2 i).behind
      [.asked apiToken (f.reading i)] := by
  rw [rest, conduct]
  show (conduct f.conditions apiToken p (.refreshing (.awaiting _ _ _)) i).behind _ = _
  rw [conduct]
  rfl

/-- What a request has left in the budget. -/
theorem next?_at : (Backoff.next? ⟨p.settings.policy.delays, i,
      p.settings.policy.budget.toNat - 1 - i⟩).map Prod.fst =
    if i + 1 < p.settings.policy.budget.toNat then some (p.settings.policy.delays.delay i)
    else none := RetryEngine.next?_eq ⟨p.settings.policy, none⟩ i

end Course

variable {p : LocalProvider} {f : Fortune} {apiToken : String} {i : Nat}

/-- A request that ends the refresh ends the call. -/
theorem rest_of_ended {p' : LocalProvider} {result : Except TokenError String}
    (settled : p.settle (p.settledAt f i) = (p', .done result)) : p.rest f apiToken i =
      ⟨result, p', [.asked apiToken (f.reading i)], i⟩ := by
  rw [rest_eq, settled]
  show (p'.conduct f.conditions apiToken (.done result) i).behind _ = _
  rw [conduct_done]
  rfl

/-- A grant ends the call, and what it comes to is cached. -/
theorem rest_of_grant {grant : Grant} (granted : f.answer i = .ok grant) :
    p.rest f apiToken i = ⟨.ok grant.token,
      { p with
        cached := some (.issued grant.token grant.lifetime p.settings.maxAge (f.reading i)) },
      [.asked apiToken (f.reading i)], i⟩ := by
  refine rest_of_ended ?_
  rw [settledAt, granted]
  rfl

/-- A failure that is final ends the call. -/
theorem rest_of_fatal {e : IssuerError} (failed : f.answer i = .error e)
    (final : e.isRetryable = false) : p.rest f apiToken i =
      ⟨.error (.refresh (.fatal p.settings.policy.name e)), p,
        [.asked apiToken (f.reading i)], i⟩ := by
  refine rest_of_ended ?_
  have attempt : refreshAttempt p.settings.maxAge (f.reading i) (f.answer i) = .fatal e := by
    rw [failed, refreshAttempt, final]
    rfl
  rw [settledAt, attempt]
  rfl

/-- An attempt after which the call goes on is retried with the hint of its answer. -/
theorem refreshAttempt_of_retries (again : f.Retries i) (maxAge : Span) (requestedAt : Instant) :
    refreshAttempt maxAge requestedAt (f.answer i) = .retry (f.hint? i) := by
  obtain ⟨e, failed, again⟩ := again
  rw [Fortune.hint?, failed, refreshAttempt, if_pos again]

/-- A failure in passing ends the call behind the last request of the budget. -/
theorem rest_of_exhausted (again : f.Retries i)
    (spent : ¬i + 1 < p.settings.policy.budget.toNat) : p.rest f apiToken i =
      ⟨.error (.refresh (.exhausted p.settings.policy.name p.settings.policy.budget)), p,
        [.asked apiToken (f.reading i)], i⟩ := by
  refine rest_of_ended ?_
  rw [settledAt, refreshAttempt_of_retries again, Refreshing.settled, next?_at, if_neg spent]
  rfl

/-- Behind any other request it is followed by a wait. -/
theorem settledAt_of_retries (again : f.Retries i)
    (left : i + 1 < p.settings.policy.budget.toNat) :
    p.settledAt f i = .pausing ⟨p.settings.policy, none⟩
      ⟨p.settings.policy.delays, i + 1, p.settings.policy.budget.toNat - 1 - (i + 1)⟩
      (f.waitAfter p.settings.policy i) := by
  have remaining : p.settings.policy.budget.toNat - 1 - i
      = (p.settings.policy.budget.toNat - 1 - (i + 1)) + 1 := by omega
  rw [settledAt, refreshAttempt_of_retries again, remaining, Fortune.waitAfter]
  cases f.hint? i <;> rfl

/-- If the call is not given up in that wait, it goes on with the next request. -/
theorem rest_of_retries (again : f.Retries i) (left : i + 1 < p.settings.policy.budget.toNat)
    (stays : f.givesUp i = false) : p.rest f apiToken i = (p.rest f apiToken (i + 1)).behind
      [.asked apiToken (f.reading i), .waited (f.waitAfter p.settings.policy i)] := by
  rw [rest_eq, settledAt_of_retries again left]
  show (p.conduct f.conditions apiToken (.refreshing (.pausing _ _ _)) i).behind _ = _
  rw [conduct]
  simp only [Conditions.serve, Fortune.conditions, stays]
  rfl

/-! ## All requests -/

/-- Whether the call goes on behind the request with the given index. -/
def GoesOn (p : LocalProvider) (f : Fortune) (i : Nat) : Prop :=
  f.Retries i ∧ i + 1 < p.settings.policy.budget.toNat ∧ f.givesUp i = false

/-- A call that goes on behind all requests before one is these requests with their waits, and the
    rest. -/
theorem conduct_eq_rest (goesOn : ∀ k < i, p.GoesOn f k) :
    p.conduct f.conditions apiToken (.refreshing (.start p.settings)) 0 =
      (p.rest f apiToken i).behind (f.deedsBefore p.settings.policy apiToken i) := by
  induction i with
  | zero => rfl
  | succ i ih =>
      obtain ⟨again, left, stays⟩ := goesOn i (Nat.lt_succ_self i)
      rw [ih fun k before => goesOn k (Nat.lt_succ_of_lt before), rest_of_retries again left stays,
        f.deedsBefore_succ, ← Ended.behind_behind]

/-- What every end of a call keeps: a failure leaves the provider alone, and a token is that of the
    credential in the cache. -/
structure Keeps {World : Type} (p : LocalProvider) (ended : Ended LocalProvider World) : Prop where
  failed (e : TokenError) :
    ended.result = .error e → (∃ cause, e = .refresh cause) ∧ ended.provider = p
  returned (token : String) :
    ended.result = .ok token → ∃ c, ended.provider.cached = some c ∧ c.token = token

section Keeps

variable {World : Type} (p : LocalProvider)

/-- A call that fails keeps what was cached. -/
theorem keeps_failed (cause : RetryError IssuerError) (deeds : List Deed) (w : World) :
    p.Keeps ⟨.error (.refresh cause), p, deeds, w⟩ where
  failed _ failed := ⟨⟨cause, (Except.error.inj failed).symm⟩, rfl⟩
  returned _ returned := nomatch returned

/-- A call that returns a token has it cached. -/
theorem keeps_returned {p' : LocalProvider} {c : Credential} (cached : p'.cached = some c)
    (deeds : List Deed) (w : World) : p.Keeps ⟨.ok c.token, p', deeds, w⟩ where
  failed _ failed := nomatch failed
  returned _ returned := ⟨c, cached, Except.ok.inj returned⟩

variable {p}

/-- Deeds before a call change nothing of what it keeps. -/
theorem Keeps.behind {ended : Ended LocalProvider World} (keeps : p.Keeps ended)
    (deeds : List Deed) : p.Keeps (ended.behind deeds) :=
  ⟨keeps.failed, keeps.returned⟩

variable (c : Conditions World)

/-- A refresh goes on behind what the call does for it, or ends the call with a grant or with a
    failure. -/
theorem conduct_cases (apiToken : String) {state : Refreshing} (running : state.IsRunning)
    (w : World) :
    let served := c.serve apiToken w state
    let ended := p.conduct c apiToken (.refreshing state) w
    (∃ next, next = state.step p.settings.maxAge served.1 ∧ next.IsRunning ∧
      next.weight < state.weight ∧
      ended = (p.conduct c apiToken (.refreshing next) served.2.2).behind served.2.1) ∨
    (∃ engine backoff requestedAt grant, state = .awaiting engine backoff requestedAt ∧
      served.1 = .answered (.ok grant) ∧ ended = ⟨.ok grant.token, { p with
          cached := some (.issued grant.token grant.lifetime p.settings.maxAge requestedAt) },
        served.2.1, served.2.2⟩) ∨
    ∃ cause, ended = ⟨.error (.refresh cause), p, served.2.1, served.2.2⟩ := by
  intro served ended
  have unfolded : ended = (conduct c apiToken (p.step (.refreshing state) served.1).1
      (p.step (.refreshing state) served.1).2 served.2.2).behind served.2.1 := by
    rw [← conduct]
  -- what the served event makes of the refresh decides what the rest of the call is
  rw [unfolded, step]
  rcases Refreshing.step_cases p.settings.maxAge running served.1 with
    goesOn | ⟨engine, backoff, requestedAt, grant, waits, answered, ends⟩ | ⟨cause, -, ends⟩
  · have lower := Refreshing.weight_step_lt p.settings.maxAge
      (c.serve_expected apiToken w state) fun result ends => by
        rw [ends] at running
        exact running
    rw [settle_of_isRunning goesOn]
    exact .inl ⟨_, rfl, goesOn, lower, rfl⟩
  · rw [ends]
    refine .inr (.inl ⟨engine, backoff, requestedAt, grant, waits, answered, ?_⟩)
    rw [settle, conduct_done, Ended.behind, List.append_nil]
    rfl
  · rw [ends]
    refine .inr (.inr ⟨cause, ?_⟩)
    rw [settle, conduct_done, Ended.behind, List.append_nil]

/-- However a refresh ends, in any world and whenever it is given up, the call keeps that. -/
theorem keeps_conduct {state : Refreshing} (running : state.IsRunning) (w : World) :
    p.Keeps (p.conduct c apiToken (.refreshing state) w) := by
  induction weight : state.weight using Nat.strongRecOn generalizing state w with
  | ind n ih =>
      rcases conduct_cases c apiToken running w with
        ⟨next, -, goesOn, lower, rest⟩ | ⟨_, _, sentAt, grant, -, -, ended⟩ | ⟨cause, ended⟩
      · rw [rest]
        exact (ih _ (weight ▸ lower) goesOn _ rfl).behind _
      · let held : Credential := .issued grant.token grant.lifetime p.settings.maxAge sentAt
        rw [ended]
        exact p.keeps_returned (c := held) rfl _ _
      · rw [ended]
        exact p.keeps_failed cause _ _

/-- Every call keeps that, whether or not it finds a usable credential. -/
theorem keeps_conduct_enter (now : Instant) (w : World) :
    p.Keeps (p.conduct c apiToken (p.enter now) w) := by
  by_cases found : ∃ held, p.cached = some held ∧ held.isUsableAt now = true
  · obtain ⟨held, cached, usable⟩ := found
    rw [enter_of_usable cached usable, conduct_done]
    exact p.keeps_returned cached _ _
  · have unusable : ∀ held, p.cached = some held → held.isUsableAt now = false :=
      fun held cached => Bool.eq_false_iff.mpr fun usable => found ⟨held, cached, usable⟩
    have running : (Refreshing.start p.settings).IsRunning := trivial
    rw [enter_of_unusable unusable]
    exact keeps_conduct c running w

end Keeps

/-- **THE OUTCOME OF A CALL**: let a call find no usable credential, and nobody give it up.  If a
    request below the budget is the first that does not fail in passing, the call makes the
    requests up to that one.  It returns the token of the grant, and the cache holds what the grant
    comes to from the reading of the clock just before; or it fails with what the issuer said.  If
    all requests of the budget fail in passing, the call makes them all, and the budget is
    exhausted.  Between any two requests it waits as long as the earlier answer asks for, or else
    as long as the policy says.  And of every call, whatever it finds and whenever it is given up:
    a failure leaves the provider alone, and a token is that of the credential in the cache. -/
theorem call_follows_outcomes (p : LocalProvider) (apiToken : String) (now : Instant)
    (f : Fortune) :
    let policy := p.settings.policy
    let budget := policy.budget.toNat
    let ended := p.conduct f.conditions apiToken (p.enter now) 0
    ((∀ c, p.cached = some c → c.isUsableAt now = false) → (∀ i, f.givesUp i = false) →
      (∀ k < budget, (∀ i < k, f.Retries i) →
        (∀ e, f.answer k = .error e → e.isRetryable = false) →
        requests ended.deeds = k + 1 ∧ ended.deeds = f.deedsUpTo policy apiToken k ∧
        (∀ grant, f.answer k = .ok grant →
          ended.result = .ok grant.token ∧
          ended.provider = { p with
            cached := some (.issued grant.token grant.lifetime p.settings.maxAge (f.reading k)) }) ∧
        ∀ e, f.answer k = .error e →
          ended.result = .error (.refresh (.fatal policy.name e)) ∧ ended.provider = p) ∧
      ((∀ i < budget, f.Retries i) →
        requests ended.deeds = budget ∧ ended.deeds = f.deedsUpTo policy apiToken (budget - 1) ∧
        ended.result = .error (.refresh (.exhausted policy.name policy.budget)) ∧
        ended.provider = p)) ∧
    (∀ e, ended.result = .error e → (∃ cause, e = .refresh cause) ∧ ended.provider = p) ∧
    ∀ token, ended.result = .ok token →
      ∃ c, ended.provider.cached = some c ∧ c.token = token := by
  intro policy budget ended
  have keeps : p.Keeps ended := keeps_conduct_enter f.conditions now 0
  refine ⟨fun unusable stays => ?_, keeps.failed, keeps.returned⟩
  have start : ended = p.conduct f.conditions apiToken (.refreshing (.start p.settings)) 0 := by
    rw [← enter_of_unusable unusable]
  -- as long as the outcomes are worth a retry, the call comes to the next attempt
  have reached {i : Nat} (below : i < budget) (earlier : ∀ k < i, f.Retries k) :
      ended = (p.rest f apiToken i).behind (f.deedsBefore policy apiToken i) :=
    start.trans (conduct_eq_rest fun k before =>
      ⟨earlier k before, Nat.lt_of_le_of_lt before below, stays k⟩)
  refine ⟨fun k below earlier final => ?_, fun all => ?_⟩
  · cases answer : f.answer k with
    | ok grant =>
        rw [reached below earlier, rest_of_grant answer]
        refine ⟨requests_deedsUpTo f policy apiToken k, rfl, fun other same => ?_, nofun⟩
        rw [← Except.ok.inj same]
        exact ⟨rfl, rfl⟩
    | error e =>
        rw [reached below earlier, rest_of_fatal answer (final e answer)]
        refine ⟨requests_deedsUpTo f policy apiToken k, rfl, nofun, fun other same => ?_⟩
        rw [← Except.error.inj same]
        exact ⟨rfl, rfl⟩
  -- the attempt that takes the budget to its end is the last one
  · have some : 0 < budget := policy.budget_pos
    have last : budget - 1 + 1 = budget := Nat.sub_add_cancel some
    have below : budget - 1 < budget := by omega
    have spent : ¬budget - 1 + 1 < budget := by omega
    rw [reached below fun k before => all k (Nat.lt_trans before below),
      rest_of_exhausted (all _ below) spent]
    exact ⟨(requests_deedsUpTo f policy apiToken _).trans last, rfl, rfl, rfl⟩

/-- A provider whose credential expires at the beginning of 1970. -/
def staleProvider : LocalProvider where
  settings := .standard
  cached := some ⟨"tok-0", .epoch⟩

/-- Two failures in passing, the second of which asks for seven seconds, and then a grant. -/
def delayedGrant : Fortune where
  reading i := Instant.epoch.later (.ofSeconds (.ofNat i))
  answer
    | 0 => .error (.unreachable "no route")
    | 1 => .error (.rejected ⟨503, by decide, by decide⟩ (some (.ofSeconds 7)))
    | _ => .ok ⟨"tok-1", 60⟩
  givesUp _ := false

/-- A grant that two answers delay, the second with a hint: three requests, waits of five and seven
    seconds, and the credential in the cache. -/
theorem call_follows_outcomes_delayed :
    let ended := staleProvider.conduct delayedGrant.conditions "api" (staleProvider.enter .epoch) 0
    ended.result = .ok "tok-1" ∧ requests ended.deeds = 3 ∧
      ended.deeds.filterMap Deed.wait? = [.ofSeconds 5, .ofSeconds 7] ∧
      ended.provider.cached = some (.issued "tok-1" (.ofSeconds 60) (.ofSeconds 600)
        (Instant.epoch.later (.ofSeconds 2))) := by
  intro ended
  have unusable : ∀ c, staleProvider.cached = some c → c.isUsableAt .epoch = false := by
    intro c cached
    rw [← Option.some.inj cached]
    decide
  have earlier : ∀ i < 2, delayedGrant.Retries i
    | 0, _ => ⟨_, rfl, rfl⟩
    | 1, _ => ⟨_, rfl, rfl⟩
  obtain ⟨reaches, -⟩ :=
    (call_follows_outcomes staleProvider "api" .epoch delayedGrant).1 unusable fun _ => rfl
  obtain ⟨count, deeds, granted, -⟩ := reaches 2 (by decide) earlier nofun
  obtain ⟨result, provider⟩ := granted ⟨"tok-1", 60⟩ rfl
  refine ⟨result, count, ?_, congrArg LocalProvider.cached provider⟩
  rw [show ended.deeds = _ from deeds]
  decide

end LocalProvider

end Courier
