import Courier.Delivery.Run
import Courier.Proofs.Local.Founding
import Courier.Proofs.Local.Outcome
import Courier.Proofs.Shared.Call
import Courier.Proofs.Text.Blank
import Courier.Token.Founding

/-! # Founding — a provider fails at once, or has an API token that works

    Both kinds of provider are built from a secret and proved by a first call:
    the one refreshes, the other looks at the shared record first.  Without an
    API token nothing is asked for and the world is untouched.  Every later
    failure is that of the first call, wrapped once.  Requests carry what is
    left of the secret by trimming, then and ever after.

    The theorem about both (`constructors_fail_fast`) rests on what every call
    does in any world, by induction on the events that it waits for. -/

namespace Courier

/-! ## Calls in any world -/

/-- Whether a failure is one of a call, and not of what comes before or around it. -/
def TokenError.IsOfCall : TokenError → Prop
  | refresh _ => True
  | store _ => True
  | conflictsExhausted _ => True
  | secret _ => False
  | validation _ => False

/-- Whether all requests among some deeds carry an API token. -/
def Carry (apiToken : String) (deeds : List Deed) : Prop :=
  ∀ sent now, .asked sent now ∈ deeds → sent = apiToken

section Calls

variable {World : Type} (c : Conditions World) (apiToken : String) {deeds deeds' : List Deed}

/-- Two runs of deeds that carry an API token carry it together. -/
theorem carry_append (h : Carry apiToken deeds) (h' : Carry apiToken deeds') :
    Carry apiToken (deeds ++ deeds') := fun sent now mem =>
  (List.mem_append.mp mem).elim (h sent now) (h' sent now)

theorem carry_serve (w : World) (state : Refreshing) :
    Carry apiToken (c.serve apiToken w state).2.1 := by
  intro sent now mem
  cases state with
  | due engine backoff => exact (Deed.asked.inj (List.mem_singleton.mp mem)).1
  | awaiting engine backoff requestedAt => exact nomatch mem
  | pausing engine backoff wait => exact nomatch List.mem_singleton.mp mem
  | ended result => exact nomatch mem

/-- A call of a provider with a cache of its own only sends its own API token. -/
theorem LocalProvider.carry_conduct (p : LocalProvider) (call : LocalCall) (w : World) :
    Carry apiToken (p.conduct c apiToken call w).deeds := by
  induction p, call, w using LocalProvider.conduct.induct c apiToken with
  | case1 p w result =>
      rw [conduct_done]
      exact fun sent now mem => nomatch mem
  | case2 p w state served stepped ih =>
      rw [conduct]
      exact carry_append apiToken (carry_serve c apiToken w state) ih

/-- So does a call of a provider with a shared record. -/
theorem SharedCall.carry_conduct (settings : RefreshSettings) (call : SharedCall) (w : World) :
    Carry apiToken (call.conduct c apiToken settings w).deeds := by
  have read : Carry apiToken [.read] := fun sent now mem => nomatch List.mem_singleton.mp mem
  have wrote (edited : Record) : Carry apiToken [.wrote edited] := fun sent now mem =>
    nomatch List.mem_singleton.mp mem
  induction call, w using SharedCall.conduct.induct c apiToken settings with
  | case1 w result =>
      rw [conduct_done]
      exact fun sent now mem => nomatch mem
  | case2 w answered reading ih =>
      rw [conduct]
      exact carry_append apiToken read ih
  | case3 w round fresh answered reading ih =>
      rw [conduct]
      exact carry_append apiToken read ih
  | case4 w round fresh edited answered ih =>
      rw [conduct]
      exact carry_append apiToken (wrote edited) ih
  | case5 w state served ih =>
      rw [conduct]
      exact carry_append apiToken (carry_serve c apiToken w state) ih

/-- Whether a call that has failed has failed by itself. -/
def SharedCall.FailsItself : SharedCall → Prop
  | done (.error e) => e.IsOfCall
  | _ => True

/-- Every step of a call leaves it one that fails by itself. -/
theorem SharedCall.failsItself_step (settings : RefreshSettings) {call : SharedCall}
    (h : call.FailsItself) (event : SharedEvent) : (call.step settings event).FailsItself := by
  rcases step_cases settings call event with same | answered | ⟨state, news, rfl, rfl⟩
  · rw [same]
    exact h
  · generalize call.step settings event = next at answered
    cases answered <;> exact trivial
  · show (ofRefreshing (state.step settings.maxAge news)).FailsItself
    cases state.step settings.maxAge news with
    | ended result => cases result <;> exact trivial
    | due engine backoff => exact trivial
    | awaiting engine backoff requestedAt => exact trivial
    | pausing engine backoff wait => exact trivial

/-- A call that fails by itself has a failure of a call. -/
theorem SharedCall.isOfCall_conduct (settings : RefreshSettings) {call : SharedCall}
    (h : call.FailsItself) (w : World) {e : TokenError}
    (failed : (call.conduct c apiToken settings w).result = .error e) : e.IsOfCall := by
  induction call, w using SharedCall.conduct.induct c apiToken settings with
  | case1 w result =>
      rw [conduct_done] at failed
      rw [show result = .error e from failed] at h
      exact h
  | case2 w answered reading ih =>
      rw [conduct] at failed
      exact ih (failsItself_step settings h _) failed
  | case3 w round fresh answered reading ih =>
      rw [conduct] at failed
      exact ih (failsItself_step settings h _) failed
  | case4 w round fresh edited answered ih =>
      rw [conduct] at failed
      exact ih (failsItself_step settings h _) failed
  | case5 w state served ih =>
      rw [conduct] at failed
      exact ih (failsItself_step settings h _) failed

/-- A refresh is told that its request was sent just when it was asked for. -/
theorem asked_of_serve {w : World} {state : Refreshing} {now : Instant}
    (sent : (c.serve apiToken w state).1 = .sent now) :
    .asked apiToken now ∈ (c.serve apiToken w state).2.1 := by
  cases state with
  | due engine backoff =>
      rw [← RefreshEvent.sent.inj sent]
      exact .head _
  | awaiting engine backoff requestedAt => cases sent
  | pausing engine backoff wait =>
      rw [Conditions.serve] at sent
      cases paused : (c.pause wait w).1 <;> rw [paused] at sent <;> cases sent
  | ended result => cases sent

/-- A grant that the refresh is told of comes from the issuer. -/
theorem issuer_of_serve {w : World} {state : Refreshing} {grant : Grant}
    (answered : (c.serve apiToken w state).1 = .answered (.ok grant)) :
    (c.issuer apiToken w).1 = .ok grant := by
  cases state with
  | awaiting engine backoff requestedAt => exact RefreshEvent.answered.inj answered
  | due engine backoff => cases answered
  | pausing engine backoff wait =>
      rw [Conditions.serve] at answered
      cases paused : (c.pause wait w).1 <;> rw [paused] at answered <;> cases answered
  | ended result => cases answered

/-- Whether a credential is what a grant of the issuer comes to under a ceiling for lifetimes, from
    a reading of the clock. -/
def Conditions.Granted (maxAge : Span) (now : Instant) (held : Credential) : Prop :=
  ∃ w grant, (c.issuer apiToken w).1 = .ok grant ∧
    held = .issued grant.token grant.lifetime maxAge now

/-- A refresh that succeeds leaves what a grant comes to in the cache, from the reading of the clock
    just before a request of the call, or of the one that was out by then. -/
theorem LocalProvider.issued_conduct {p : LocalProvider} {state : Refreshing}
    (running : state.IsRunning) (w : World) {token : String}
    (returned : (p.conduct c apiToken (.refreshing state) w).result = .ok token) :
    ∃ held now, (p.conduct c apiToken (.refreshing state) w).provider.cached = some held ∧
      c.Granted apiToken p.settings.maxAge now held ∧
      (.asked apiToken now ∈ (p.conduct c apiToken (.refreshing state) w).deeds ∨
        ∃ engine backoff, state = .awaiting engine backoff now) := by
  induction weight : state.weight using Nat.strongRecOn generalizing state w with
  | ind n ih =>
      rcases conduct_cases c apiToken running w with
        ⟨next, step, goesOn, lower, rest⟩ | ⟨engine, backoff, requestedAt, grant, waits, answered,
          ended⟩ | ⟨cause, ended⟩
      · rw [rest] at returned ⊢
        obtain ⟨held, now, cached, granted, asked | ⟨engine, backoff, waits⟩⟩ :=
          ih _ (weight ▸ lower) goesOn _ returned rfl
        · exact ⟨held, now, cached, granted, .inl (List.mem_append_right _ asked)⟩
        · -- the request that is out was sent just now
          have expected := c.serve_expected apiToken w state
          have asked := asked_of_serve c apiToken
            (Refreshing.sent_of_awaiting expected (step.symm.trans waits))
          exact ⟨held, now, cached, granted, .inl (List.mem_append_left _ asked)⟩
      · rw [ended]
        exact ⟨_, requestedAt, rfl, ⟨w, grant, issuer_of_serve c apiToken answered, rfl⟩,
          .inr ⟨engine, backoff, waits⟩⟩
      · rw [ended] at returned
        exact nomatch returned

end Calls

/-! ## Constructors -/

/-- A provider that was proved by a first call, with the API token of its requests. -/
structure Proven (Provider : Type) where
  apiToken : String
  provider : Provider

section Constructors

variable {World Provider : Type} (c : Conditions World) (settings : RefreshSettings) (w : World)

/-- The first call of a provider with a cache of its own is a refresh. -/
def LocalProvider.prove (apiToken : String) : Ended LocalProvider World :=
  conduct c apiToken { settings } (.refreshing (.start settings)) w

/-- The first call of a provider with a shared record is one like all others. -/
def SharedCall.prove (apiToken : String) : Ended Unit World :=
  looking.conduct c apiToken settings w

variable (ref : SecretRef) (content : Except FileFault String)
variable (first : String → Ended Provider World)

/-- What building a provider comes to, what was done for it, and the world behind it. -/
def construct : Except TokenError (Proven Provider) × List Deed × World :=
  founded ref content (fun apiToken =>
    let ended := first apiToken
    (ended.result.map fun _ => ⟨apiToken, ended.provider⟩, ended.deeds, ended.world)) ([], w)

/-- What holds of building a provider, whatever is in the secret and whatever the first call
    meets. -/
structure FailsFast : Prop where
  unread (fault : FileFault) : content = .error fault →
    construct w ref content first = (.error (.secret (.read ref fault)), [], w)
  blank (value : String) : content = .ok value → (∀ ch ∈ value.toList, Text.isBlank ch = true) →
    construct w ref content first = (.error (.secret (.blank ref)), [], w)
  proved (value : String) : content = .ok value → (∃ ch ∈ value.toList, Text.isBlank ch = false) →
    ∃ apiToken, Text.Trims value apiToken ∧
      (construct w ref content first).2 = ((first apiToken).deeds, (first apiToken).world) ∧
      (∀ e, (first apiToken).result = .error e →
        (construct w ref content first).1 = .error (.validation e)) ∧
      ∀ token, (first apiToken).result = .ok token →
        (construct w ref content first).1 = .ok ⟨apiToken, (first apiToken).provider⟩
  wrapped (e : TokenError) : (construct w ref content first).1 = .error (.validation e) →
    e.IsOfCall ∧ (TokenError.validation e).isCancelled = e.isCancelled
  carried (p : Proven Provider) : (construct w ref content first).1 = .ok p →
    (∃ value, content = .ok value ∧ Text.Trims value p.apiToken) ∧
      Carry p.apiToken (construct w ref content first).2.1

variable {ref content first}

/-- A secret of blank characters holds no API token. -/
theorem apiTokenOf_of_blank {value : String}
    (blank : ∀ ch ∈ value.toList, Text.isBlank ch = true) :
    apiTokenOf ref (.ok value) = .error (.blank ref) :=
  if_pos ((Text.trim_eq_empty_iff value).mpr blank)

/-- A secret with a visible character holds what trimming leaves of it. -/
theorem apiTokenOf_of_visible {value : String}
    (visible : ∃ ch ∈ value.toList, Text.isBlank ch = false) :
    apiTokenOf ref (.ok value) = .ok (Text.trim value) := by
  obtain ⟨ch, mem, notBlank⟩ := visible
  refine if_neg fun empty => ?_
  have blank := (Text.trim_eq_empty_iff value).mp empty ch mem
  exact nomatch blank.symm.trans notBlank

/-- An API token is what trimming leaves of a secret. -/
theorem trims_of_apiTokenOf {apiToken : String} (read : apiTokenOf ref content = .ok apiToken) :
    ∃ value, content = .ok value ∧ Text.Trims value apiToken := by
  cases content with
  | error fault => exact nomatch read
  | ok value =>
      rw [apiTokenOf] at read
      split at read
      · exact nomatch read
      · exact ⟨value, rfl, Text.trims_iff.mpr (Except.ok.inj read)⟩

/-- Without an API token nothing is built and nothing is done. -/
theorem construct_of_error {cause : SecretError} (failed : apiTokenOf ref content = .error cause) :
    construct w ref content first = (.error (.secret cause), [], w) := by
  rw [construct, founded, failed]

/-- With an API token, building a provider comes to what its first call does. -/
theorem construct_of_ok {apiToken : String} (read : apiTokenOf ref content = .ok apiToken) :
    construct w ref content first =
      (((first apiToken).result.map fun _ => ⟨apiToken, (first apiToken).provider⟩).mapError
        .validation, (first apiToken).deeds, (first apiToken).world) := by
  rw [construct, founded, read]

/-- A failure that is no want of an API token is that of the first call. -/
theorem failed_of_construct {e : TokenError}
    (failed : (construct w ref content first).1 = .error (.validation e)) :
    ∃ apiToken, (first apiToken).result = .error e := by
  cases read : apiTokenOf ref content with
  | error cause =>
      rw [construct_of_error w read] at failed
      exact nomatch failed
  | ok apiToken =>
      rw [construct_of_ok w read] at failed
      refine ⟨apiToken, ?_⟩
      cases result : (first apiToken).result with
      | ok token =>
          rw [result] at failed
          exact nomatch failed
      | error cause =>
          rw [result] at failed
          exact congrArg Except.error (TokenError.validation.inj (Except.error.inj failed))

/-- A provider that was built has an API token, and is what its first call has left of it. -/
theorem returned_of_construct {p : Proven Provider}
    (made : (construct w ref content first).1 = .ok p) :
    (∃ value, content = .ok value ∧ Text.Trims value p.apiToken) ∧
      (construct w ref content first).2.1 = (first p.apiToken).deeds ∧
      p.provider = (first p.apiToken).provider ∧
      ∃ token, (first p.apiToken).result = .ok token := by
  cases read : apiTokenOf ref content with
  | error cause =>
      rw [construct_of_error w read] at made
      exact nomatch made
  | ok apiToken =>
      rw [construct_of_ok w read] at made ⊢
      cases result : (first apiToken).result with
      | error e =>
          rw [result] at made
          exact nomatch made
      | ok token =>
          rw [result] at made
          obtain rfl := Except.ok.inj made
          exact ⟨trims_of_apiTokenOf read, rfl, rfl, token, result⟩

/-- Building a provider fails fast if its first call fails by itself, and sends its own API token
    only. -/
theorem failsFast_of_first
    (itself : ∀ apiToken e, (first apiToken).result = .error e → e.IsOfCall)
    (carries : ∀ apiToken, Carry apiToken (first apiToken).deeds) :
    FailsFast w ref content first where
  unread := by
    rintro fault rfl
    exact construct_of_error w rfl
  blank := by
    rintro value rfl blank
    exact construct_of_error w (apiTokenOf_of_blank blank)
  proved := by
    rintro value rfl visible
    rw [construct_of_ok w (apiTokenOf_of_visible visible)]
    refine ⟨_, Text.trims_iff.mpr rfl, rfl, fun e failed => ?_, fun token returned => ?_⟩
    · rw [failed]
      rfl
    · rw [returned]
      rfl
  wrapped e failed := by
    obtain ⟨apiToken, result⟩ := failed_of_construct w failed
    exact ⟨itself apiToken e result, rfl⟩
  carried p made := by
    obtain ⟨trims, did, -, -⟩ := returned_of_construct w made
    rw [did]
    exact ⟨trims, carries p.apiToken⟩

variable (ref content)

/-- Building a provider with a cache of its own fails fast. -/
theorem LocalProvider.failsFast : FailsFast w ref content (prove c settings w) := by
  refine failsFast_of_first w (fun apiToken e failed => ?_) fun apiToken => ?_
  · have running : (Refreshing.start settings).IsRunning := trivial
    obtain ⟨cause, rfl⟩ := ((keeps_conduct c running w).failed e failed).1
    exact trivial
  · exact carry_conduct c apiToken _ _ w

/-- Building a provider with a shared record fails fast. -/
theorem SharedCall.failsFast : FailsFast w ref content (prove c settings w) := by
  refine failsFast_of_first w (fun apiToken e failed => ?_) fun apiToken => ?_
  · have start : looking.FailsItself := trivial
    exact isOfCall_conduct c apiToken settings start w failed
  · exact carry_conduct c apiToken settings looking w

/-- Whether a provider rests on a credential: it was granted in answer to one of the given requests,
    and is in the cache; and behind that, every request of a call comes behind a reading of the
    clock under the lock at which the credential is not usable, by that call or by one whose refresh
    has succeeded since. -/
structure RestsOn (p : Proven LocalProvider) (deeds : List Deed) (held : Credential) : Prop where
  cached : p.provider.cached = some held
  granted : ∃ now, .asked p.apiToken now ∈ deeds ∧ c.Granted p.apiToken settings.maxAge now held
  explained (acts : List Crowd.Act) (before : List Note) (k : Nat) (now : Instant)
    (after : List Note) :
    (Crowd.run { provider := p.provider } acts).log = before ++ .heard k (.sent now) :: after →
    ∃ j reading, .took j reading ∈ before ∧ held.isUsableAt reading = false ∧
      (j = k ∨ ∃ d, .refreshed j d ∈ before) ∧
      (held.isUsableAt now = true → now.isBefore reading = true)

/-- A provider that was built rests on a credential. -/
theorem LocalProvider.exists_restsOn {p : Proven LocalProvider}
    (made : (construct w ref content (prove c settings w)).1 = .ok p) :
    ∃ held, RestsOn c settings p (construct w ref content (prove c settings w)).2.1 held := by
  obtain ⟨-, did, left, token, returned⟩ := returned_of_construct w made
  have running : (Refreshing.start settings).IsRunning := trivial
  obtain ⟨held, now, cached, granted, asked | ⟨engine, backoff, waits⟩⟩ :=
    issued_conduct c p.apiToken running w returned
  · replace cached : p.provider.cached = some held := left ▸ cached
    rw [did]
    refine ⟨held, cached, ⟨now, asked, granted⟩, fun acts before k sent after log => ?_⟩
    obtain ⟨j, reading, took, expired, why⟩ := Crowd.explains_of_heard cached log
    exact ⟨j, reading, took, expired, why, fun usable =>
      Credential.isBefore_of_isUsableAt usable expired⟩
  · exact nomatch waits

/-- A provider whose record holds a usable credential at first is built by reading it. -/
theorem SharedCall.construct_of_usable {value : String} {record : Record} {held : Credential}
    (read : content = .ok value) (visible : ∃ ch ∈ value.toList, Text.isBlank ch = false)
    (first : (c.read w).1 = .ok record)
    (usable : Credential.usableIn? record (c.clock (c.read w).2).1 = some held) :
    ∃ p, construct w ref content (prove c settings w)
      = (.ok p, [.read], (c.clock (c.read w).2).2) := by
  subst read
  have proved (apiToken : String) : prove c settings w apiToken
      = ⟨.ok held.token, (), [.read], (c.clock (c.read w).2).2⟩ := by
    rw [prove, conduct]
    simp only [first, step_looking_of_usable usable, conduct_done]
    rfl
  rw [construct_of_ok w (apiTokenOf_of_visible visible), proved]
  exact ⟨_, rfl⟩

end Constructors

/-- Whether an API token is what trimming leaves of a secret, and is all that the requests of any
    call carry, at any time, in any world and from either kind of provider. -/
structure IsSent (content : Except FileFault String) (settings : RefreshSettings)
    (apiToken : String) : Prop where
  trimmed : ∃ value, content = .ok value ∧ Text.Trims value apiToken
  alone {World : Type} (c : Conditions World) (w : World) (provider : LocalProvider)
    (call : LocalCall) : Carry apiToken (provider.conduct c apiToken call w).deeds
  shared {World : Type} (c : Conditions World) (w : World) (call : SharedCall) :
    Carry apiToken (call.conduct c apiToken settings w).deeds

/-- The API token of a provider that was built is that of its secret, then and ever after. -/
theorem isSent_of_construct {World Provider : Type} {w : World} {ref : SecretRef}
    {content : Except FileFault String} {first : String → Ended Provider World}
    {p : Proven Provider} (made : (construct w ref content first).1 = .ok p)
    (settings : RefreshSettings) : IsSent content settings p.apiToken where
  trimmed := (returned_of_construct w made).1
  alone c w provider call := provider.carry_conduct c p.apiToken call w
  shared c w call := call.carry_conduct c p.apiToken settings w

/-- **CONSTRUCTORS FAIL FAST**: let anything be read for the secret, and let the first call meet
    anything.  Both constructors fail for want of an API token with nothing done, and otherwise end
    as the first call ends, with its failure wrapped once.  Every request carries the API token of
    its provider, and that of a provider that was built is what trimming leaves of the secret, also
    in later calls.  A provider with a cache of its own is built with the credential that it was
    granted, and rests on it: behind that, every request comes behind a reading of the clock under
    the lock at which that credential is not usable.  A provider with a shared record asks for
    nothing if the record that it reads first holds a usable credential. -/
theorem constructors_fail_fast {World : Type} (c : Conditions World) (settings : RefreshSettings)
    (w : World) (ref : SecretRef) (content : Except FileFault String) :
    let alone := construct w ref content (LocalProvider.prove c settings w)
    let shared := construct w ref content (SharedCall.prove c settings w)
    FailsFast w ref content (LocalProvider.prove c settings w) ∧
    FailsFast w ref content (SharedCall.prove c settings w) ∧
    (∀ (World' : Type) (c' : Conditions World') (apiToken : String) (w' : World'),
      (∀ (provider : LocalProvider) (call : LocalCall),
        Carry apiToken (provider.conduct c' apiToken call w').deeds) ∧
      ∀ call : SharedCall, Carry apiToken (call.conduct c' apiToken settings w').deeds) ∧
    ((∀ p, alone.1 = .ok p → IsSent content settings p.apiToken) ∧
      ∀ p, shared.1 = .ok p → IsSent content settings p.apiToken) ∧
    (∀ p, alone.1 = .ok p → ∃ held, RestsOn c settings p alone.2.1 held) ∧
    ∀ value record held, content = .ok value → (∃ ch ∈ value.toList, Text.isBlank ch = false) →
      (c.read w).1 = .ok record →
      Credential.usableIn? record (c.clock (c.read w).2).1 = some held →
      ∃ p, shared = (.ok p, [.read], (c.clock (c.read w).2).2) := by
  intro alone shared
  refine ⟨LocalProvider.failsFast c settings w ref content,
    SharedCall.failsFast c settings w ref content, fun World' c' apiToken w' => ?_,
    ⟨fun p made => isSent_of_construct made settings,
      fun p made => isSent_of_construct made settings⟩,
    fun p made => ?_, fun value record held read visible first usable => ?_⟩
  · exact ⟨fun provider call => provider.carry_conduct c' apiToken call w',
      fun call => call.carry_conduct c' apiToken settings w'⟩
  · exact LocalProvider.exists_restsOn c settings w ref content made
  · exact SharedCall.construct_of_usable c settings w ref content read visible first usable

/-- An issuer that grants a token for a minute at once. -/
def promptGrant : Fortune where
  reading _ := .epoch
  answer _ := .ok ⟨"tok-1", 60⟩
  givesUp _ := false

/-- The first call finds the credential expired and is granted a token without a character, and the
    clock is set back before the second. -/
def emptyGrant : List Crowd.Act :=
  [.arrive, .enter Crowd.minutePast, .refresh (.sent Crowd.minutePast),
    .refresh (.answered (.ok ⟨"", 60⟩)), .arrive, .enter Crowd.halfMinutePast,
    .refresh (.sent Crowd.halfMinutePast)]

/-- Once another refresh has replaced it, the credential of the first call prevents no request, not
    even at a reading of the clock at which it would be usable again. -/
theorem first_credential_is_replaced :
    let made := construct 0 ⟨"cnsi-system", "governor", "accessSecret"⟩ (.ok "api-token")
      (LocalProvider.prove promptGrant.conditions .standard 0)
    ∃ p held before after, made.1 = .ok p ∧ p.provider.cached = some held ∧
      held.isUsableAt Crowd.halfMinutePast = true ∧
      (Crowd.run { provider := p.provider } emptyGrant).log
        = before ++ .heard 1 (.sent Crowd.halfMinutePast) :: after := by
  intro made
  have granted : promptGrant.answer 0 = .ok ⟨"tok-1", 60⟩ := rfl
  have first (apiToken : String) : LocalProvider.prove promptGrant.conditions .standard 0 apiToken
      = _ :=
    (LocalProvider.conduct_eq_rest fun k before => absurd before (Nat.not_lt_zero k)).trans
      (congrArg (Ended.behind []) (LocalProvider.rest_of_grant granted))
  have read : apiTokenOf ⟨"cnsi-system", "governor", "accessSecret"⟩ (.ok "api-token")
      = .ok "api-token" := by decide
  have built : made = _ := construct_of_ok 0 read
  rw [first] at built
  rw [built]
  exact ⟨_, _, [_, _, _, _, _, _, _, _], [], rfl, rfl, by decide, rfl⟩

/-! ## In a run of the program -/

namespace Delivery

variable (s : Surroundings) (location : Location) (tokenUrl : Url) (apiToken : String)
variable (settings : RefreshSettings) (log : Log)

/-- The first call of a provider with a cache of its own proves it. -/
theorem prove_alone : Provider.prove s (grantRequest tokenUrl apiToken) (.alone { settings }) log =
    let ended := LocalProvider.prove (s.conditions tokenUrl location) settings log apiToken
    (ended.result, .alone ended.provider, ended.world) := by
  rw [Provider.prove, finishLocal_eq s tokenUrl location]
  rfl

/-- So does that of a provider with a shared record. -/
theorem prove_shared : Provider.prove s (grantRequest tokenUrl apiToken)
      (.shared settings location) log =
    let ended := SharedCall.prove (s.conditions tokenUrl location) settings log apiToken
    (ended.result, .shared settings location, ended.world) := by
  rw [Provider.prove, Provider.bearerToken, finishShared_eq]
  rfl

/-- A run of the program founds its provider on the mounted secret. -/
theorem validProvider_eq (auth : AuthSettings) :
    s.validProvider auth log =
      match s.newProvider auth log with
      | (.error e, log) => (.error e, log)
      | (.ok provider, log) =>
        let made := founded (secretRef auth)
          ((secretRef auth).textIn s.file auth.secretRoot) (fun apiToken =>
            let called := provider.prove s (grantRequest auth.tokenUrl apiToken) log
            (called.1.map fun _ => (called.2.1, grantRequest auth.tokenUrl apiToken), called.2.2))
          log
        (made.1.mapError .provider, made.2) := by
  rw [Surroundings.validProvider]
  rcases s.newProvider auth log with ⟨e | provider, log⟩
  · rfl
  · dsimp only [founded, Surroundings.apiToken]
    cases apiTokenOf (secretRef auth) ((secretRef auth).textIn s.file auth.secretRoot) with
    | error cause => rfl
    | ok apiToken =>
        dsimp only
        cases called : provider.prove s (grantRequest auth.tokenUrl apiToken) log with
        | mk result rest => cases result <;> rfl

end Delivery

end Courier
