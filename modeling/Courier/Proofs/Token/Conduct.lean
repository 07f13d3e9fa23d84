import Courier.Delivery.Calls

/-! # Conduct — calls played to their end in any world

    A call is played against a world: its clock, its issuer, whoever may give
    the call up, and the store of shared records.  All of them may answer
    anything, and change with every answer.  What the call does there is a
    list of deeds, in order.

    A run of the program plays its calls just so, against its surroundings
    (`finishLocal_eq`, `finishShared_eq`). -/

namespace Courier

/-- What a call meets in a world, and what the world becomes with it. -/
structure Conditions (World : Type) where
  clock : World → Instant × World
  /-- What the issuer answers to a request with an API token. -/
  issuer : String → World → Except IssuerError Grant × World
  /-- Whether the call is given up in a wait. -/
  pause : Span → World → Bool × World
  read : World → Except StoreError Record × World
  write : Record → World → Except StoreError Record × World

/-- What a call does. -/
inductive Deed where
  /-- It sends a request with an API token; the clock reads as given just before. -/
  | asked (apiToken : String) (now : Instant)
  | waited (wait : Span)
  /-- It reads the shared record. -/
  | read
  | wrote (edited : Record)
  deriving DecidableEq

/-- The end of a call: its result, the provider and the world behind it, and what it did. -/
structure Ended (Provider World : Type) where
  result : Except TokenError String
  provider : Provider
  deeds : List Deed
  world : World

variable {Provider World : Type}

/-- The same end behind earlier deeds. -/
def Ended.behind (deeds : List Deed) (ended : Ended Provider World) : Ended Provider World :=
  { ended with deeds := deeds ++ ended.deeds }

/-- Deeds in front of deeds in front of an end are all of them in front of it. -/
theorem Ended.behind_behind (earlier later : List Deed) (ended : Ended Provider World) :
    (ended.behind later).behind earlier = ended.behind (earlier ++ later) := by
  rw [behind, behind, behind, List.append_assoc]

/-- What happens next to a refresh, what the call does for it, and the world behind it. -/
def Conditions.serve (c : Conditions World) (apiToken : String) (w : World) :
    Refreshing → RefreshEvent × List Deed × World
  | .due .. =>
    let reading := c.clock w
    (.sent reading.1, [.asked apiToken reading.1], reading.2)
  | .awaiting .. =>
    let answered := c.issuer apiToken w
    (.answered answered.1, [], answered.2)
  | .pausing _ _ wait =>
    let paused := c.pause wait w
    (if paused.1 then .cancelled else .woken, [.waited wait], paused.2)
  | .ended _ => (.woken, [], w)

/-- Whatever the world does, what happens next is what the refresh waits for. -/
theorem Conditions.serve_expected (c : Conditions World) (apiToken : String) (w : World)
    (state : Refreshing) : state.expects (c.serve apiToken w state).1 := by
  cases state with
  | pausing engine backoff wait =>
      rw [serve]
      cases (c.pause wait w).1 <;> exact trivial
  | due engine backoff => exact trivial
  | awaiting engine backoff requestedAt => exact trivial
  | ended result => exact trivial

/-- The end of a call of a provider with a cache of its own. -/
def LocalProvider.conduct (c : Conditions World) (apiToken : String) (p : LocalProvider)
    (call : LocalCall) (w : World) : Ended LocalProvider World :=
  match call with
  | .done result => ⟨result, p, [], w⟩
  | .refreshing state =>
    let served := c.serve apiToken w state
    let stepped := p.step (.refreshing state) served.1
    (stepped.1.conduct c apiToken stepped.2 served.2.2).behind served.2.1
termination_by call.weight
decreasing_by exact p.weight_step_lt (c.serve_expected apiToken w state)

/-- The end of a call of a provider with a shared record, which keeps nothing between its calls. -/
def SharedCall.conduct (c : Conditions World) (apiToken : String) (settings : RefreshSettings)
    (call : SharedCall) (w : World) : Ended Unit World :=
  match call with
  | .done result => ⟨result, (), [], w⟩
  | .looking =>
    let answered := c.read w
    let reading := c.clock answered.2
    ((looking.step settings (.read answered.1 reading.1)).conduct c apiToken settings
      reading.2).behind [.read]
  | .rereading round fresh =>
    let answered := c.read w
    let reading := c.clock answered.2
    (((rereading round fresh).step settings (.read answered.1 reading.1)).conduct c apiToken
      settings reading.2).behind [.read]
  | .writing round fresh edited =>
    let answered := c.write edited w
    (((writing round fresh edited).step settings (.written answered.1)).conduct c apiToken settings
      answered.2).behind [.wrote edited]
  | .refreshing state =>
    let served := c.serve apiToken w state
    (((refreshing state).step settings (.refresh served.1)).conduct c apiToken settings
      served.2.2).behind served.2.1
termination_by call.weight settings
decreasing_by
  · exact weight_looking_lt ..
  · exact weight_rereading_lt ..
  · exact weight_writing_lt ..
  · exact weight_refresh_lt settings (c.serve_expected apiToken w state)

section Equations

variable (c : Conditions World) (apiToken : String) (p : LocalProvider)
variable (settings : RefreshSettings) (result : Except TokenError String) (w : World)

theorem LocalProvider.conduct_done :
    p.conduct c apiToken (.done result) w = ⟨result, p, [], w⟩ := by
  rw [conduct]

theorem SharedCall.conduct_done :
    (done result).conduct c apiToken settings w = ⟨result, (), [], w⟩ := by
  rw [conduct]

end Equations

namespace Delivery

variable (s : Surroundings) (tokenUrl : Url) (location : Location)

/-- What a run of the program meets. -/
def Surroundings.conditions : Conditions Log where
  clock log := (s.clock log.readings, log.afterReading)
  issuer apiToken log :=
    (Grant.ofExchange (s.issuer log.tokenRequests.length (grantRequest tokenUrl apiToken)),
      { log with tokenRequests := log.tokenRequests ++ [grantRequest tokenUrl apiToken] })
  pause _ log := (s.stops log.readings, log)
  read log := s.read location log
  write edited log := s.write edited log

variable (apiToken : String)

/-- What happens next in a run of the program is what happens next in its conditions. -/
theorem serve_eq (log : Log) (state : Refreshing) :
    s.serve (grantRequest tokenUrl apiToken) log state =
      let served := (s.conditions tokenUrl location).serve apiToken log state
      (served.1, served.2.2) := by
  cases state with
  | due engine backoff => rfl
  | awaiting engine backoff requestedAt => rfl
  | pausing engine backoff wait => rfl
  | ended result => rfl

/-- A call of a provider with a cache of its own, in a run of the program. -/
theorem finishLocal_eq (p : LocalProvider) (call : LocalCall) (log : Log) :
    s.finishLocal (grantRequest tokenUrl apiToken) p call log =
      let ended := p.conduct (s.conditions tokenUrl location) apiToken call log
      (ended.result, ended.provider, ended.world) := by
  induction p, call, log using
      Surroundings.finishLocal.induct s (grantRequest tokenUrl apiToken) with
  | case1 p log result => rw [Surroundings.finishLocal, LocalProvider.conduct_done]
  | case2 p log state served stepped ih =>
      have same := serve_eq s tokenUrl location apiToken log state
      rw [Surroundings.finishLocal, LocalProvider.conduct]
      show s.finishLocal _ stepped.1 stepped.2 served.2 = _
      rw [ih]
      simp only [stepped, served, same]
      rfl

/-- A call of a provider with a shared record, in a run of the program. -/
theorem finishShared_eq (settings : RefreshSettings) (call : SharedCall) (log : Log) :
    s.finishShared settings location (grantRequest tokenUrl apiToken) call log =
      let ended := call.conduct (s.conditions tokenUrl location) apiToken settings log
      (ended.result, ended.world) := by
  induction call, log using
      Surroundings.finishShared.induct s settings location (grantRequest tokenUrl apiToken) with
  | case1 log result => rw [Surroundings.finishShared, SharedCall.conduct_done]
  | case2 log answered ih =>
      rw [Surroundings.finishShared, SharedCall.conduct]
      exact ih
  | case3 log round fresh answered ih =>
      rw [Surroundings.finishShared, SharedCall.conduct]
      exact ih
  | case4 log round fresh edited answered ih =>
      rw [Surroundings.finishShared, SharedCall.conduct]
      exact ih
  | case5 log state served ih =>
      have same := serve_eq s tokenUrl location apiToken log state
      rw [Surroundings.finishShared, SharedCall.conduct]
      show s.finishShared settings location _ _ served.2 = _
      rw [ih]
      simp only [served, same]
      rfl

end Delivery

end Courier
