import Courier.Rehearsal.Stage
import Courier.Token.Founding

/-! # Playing calls together

    Calls run in the order of their numbers until each waits for a timer or
    for the lock of its replica; then time moves on to the next timer.
    Locks are handed on in the order of asking.  One moment of cancellation
    holds for all calls; it is seen during waits only. -/

namespace Courier.Rehearsal

/-- What a call is doing. -/
inductive Doing where
  | onItsOwn (call : LocalCall)
  | shared (call : SharedCall)

/-- What a call waits for. -/
inductive Waiting where
  | nothing
  /-- The lock of its replica has not been asked for yet. -/
  | fresh
  | lock
  /-- The issuer's answer, which comes at the given moment. -/
  | answer (moment : Nat) (answer : Answer)
  /-- The end of a wait between attempts at the given moment. -/
  | timer (moment : Nat)

/-- One call among those played together. -/
structure Player where
  replica : Nat
  waiting : Waiting := .fresh
  doing : Option Doing := none
  result : Option (Except TokenError String) := none

/-- Calls played together on a stage. -/
structure Scene where
  stage : Stage
  isShared : Bool
  settings : RefreshSettings
  apiToken : String
  cancelAt : Option Nat
  players : List Player
  /-- Who asked for the lock of a replica, in order; the first holds it. -/
  queue : List Nat := []

namespace Scene

/-- Whether the calls have been cancelled by now. -/
def isCancelled (s : Scene) : Bool := s.cancelAt.any (· ≤ s.stage.millis)

/-- The player with the given number put back. -/
def withPlayer (s : Scene) (i : Nat) (p : Player) : Scene := { s with players := s.players.set i p }

/-- Whether a player is the first in the queue of its replica. -/
def holdsLock (s : Scene) (i : Nat) (p : Player) : Bool :=
  (s.queue.find? fun k => (s.players[k]?.map Player.replica) == some p.replica) == some i

/-- Tells a call about its refresh. -/
def tell (s : Scene) (i : Nat) (p : Player) (event : RefreshEvent) : Scene :=
  match p.doing with
  | some (.onItsOwn call) =>
    let (provider, call) := s.stage.provider.step call event
    { s with stage := { s.stage with provider } }.withPlayer i
      { p with doing := some (.onItsOwn call), waiting := .nothing }
  | some (.shared call) =>
    s.withPlayer i
      { p with doing := some (.shared (call.step s.settings (.refresh event))), waiting := .nothing }
  | none => s

/-- Does what a refresh needs next. -/
def serveRefresh (s : Scene) (i : Nat) (p : Player) : Refreshing → Scene
  | .due .. =>
    let now := s.stage.clock.now
    let (answer, stage) := s.stage.ask s.apiToken
    let s := { s with stage }.tell i p (.sent now)
    match s.players[i]? with
    | some p => s.withPlayer i { p with waiting := .answer (s.stage.millis + answer.takes) answer }
    | none => s
  | .pausing _ _ wait =>
    s.withPlayer i { p with waiting := .timer (s.stage.millis + wait.timerMillis) }
  | _ => s

/-- Ends a call, which gives up its lock. -/
def finish (s : Scene) (i : Nat) (p : Player) (result : Except TokenError String) : Scene :=
  { s with queue := s.queue.filter (· ≠ i) }.withPlayer i { p with result := some result }

/-- Does what a call needs next, where it waits for nothing. -/
def serve (s : Scene) (i : Nat) (p : Player) : Scene :=
  match p.doing with
  | some (.onItsOwn (.done result)) => s.finish i p result
  | some (.onItsOwn (.refreshing state)) => s.serveRefresh i p state
  | some (.shared call) =>
    let told (s : Scene) (event : SharedEvent) : Scene :=
      s.withPlayer i { p with doing := some (.shared (call.step s.settings event)) }
    let read : Scene :=
      let (answer, stage) := s.stage.read
      told { s with stage } (.read answer stage.clock.now)
    match call with
    | .looking => read
    | .rereading .. => read
    | .writing _ _ edited =>
      let (answer, stage) := s.stage.write edited
      told { s with stage } (.written answer)
    | .refreshing state => s.serveRefresh i p state
    | .done result => s.finish i p result
  | none => s

/-- The call as it starts behind the lock. -/
def opening (s : Scene) : Doing :=
  if s.isShared then .shared .looking else .onItsOwn (s.stage.provider.enter s.stage.clock.now)

/-- One step of a player, where it can make one. -/
def step? (s : Scene) (i : Nat) : Option Scene := do
  let p ← s.players[i]?
  if p.result.isSome then none
  else
    match p.waiting with
    | .nothing => some (s.serve i p)
    | .fresh => some ({ s with queue := s.queue ++ [i] }.withPlayer i { p with waiting := .lock })
    | .lock =>
      if s.holdsLock i p then
        some (s.withPlayer i { p with waiting := .nothing, doing := some s.opening })
      else none
    | .answer moment answer =>
      if moment ≤ s.stage.millis then
        some ({ s with stage := s.stage.advance answer.advance }.tell i p (.answered answer.answer))
      else none
    | .timer moment =>
      if s.isCancelled then some (s.tell i p .cancelled)
      else if moment ≤ s.stage.millis then some (s.tell i p .woken)
      else none

/-- Lets a player go on as far as it can; whether it went on at all. -/
def runPlayer : (fuel : Nat) → Scene → Nat → Bool × Scene
  | 0, s, _ => (false, s)
  | fuel + 1, s, i =>
    match s.step? i with
    | none => (false, s)
    | some s => (true, (runPlayer fuel s i).2)

/-- Lets every player go on once, in order; whether any went on. -/
def runRound (fuel : Nat) (s : Scene) : Bool × Scene :=
  (List.range s.players.length).foldl (fun (moved, s) i =>
    let (one, s) := runPlayer fuel s i
    (moved || one, s)) (false, s)

/-- The moments at which some player can go on. -/
def moments (s : Scene) : List Nat :=
  s.players.flatMap fun p =>
    if p.result.isSome then []
    else
      match p.waiting with
      | .answer moment _ => [moment]
      | .timer moment => moment :: s.cancelAt.toList
      | _ => []

/-- Rounds until every call has ended; time moves on when no player can. -/
def run : (fuel : Nat) → Scene → Scene
  | 0, s => s
  | fuel + 1, s =>
    match runRound (fuel + 1) s with
    | (true, s) => run fuel s
    | (false, s) =>
      match (s.moments.filter (s.stage.millis < ·)).min? with
      | some moment => run fuel { s with stage := { s.stage with millis := moment } }
      | none => s

/-- Enough rounds for every call: each answer and each store operation takes a few. -/
def rounds (s : Scene) : Nat := 60 * (s.players.length + 1) + 12 * s.stage.script.length

end Scene

/-- A provider under rehearsal: in one process, or shared by replicas. -/
structure Company where
  settings : RefreshSettings
  apiToken : String
  isShared : Bool
  replicas : Nat := 1

/-- Plays one call per replica number given, all at once; their results in order, and the stage
    after them. -/
def Company.play (c : Company) (stage : Stage) (replicas : List Nat) (cancelAt : Option Nat) :
    List (Except TokenError String) × Stage :=
  let scene : Scene :=
    { stage, isShared := c.isShared, settings := c.settings, apiToken := c.apiToken, cancelAt,
      players := replicas.map fun replica => ⟨replica, .fresh, none, none⟩ }
  let ended := scene.run scene.rounds
  (ended.players.filterMap Player.result, ended.stage)

/-- A first call with an API token, which leaves the company with that token. -/
def Company.prove (c : Company) (stage : Stage) (replica : Nat) (cancelAt : Option Nat)
    (apiToken : String) : Except TokenError Company × Stage :=
  let (results, stage) := { c with apiToken }.play stage [replica] cancelAt
  match results with
  | .error e :: _ => (.error e, stage)
  | _ => (.ok { c with apiToken }, stage)

/-- Builds the provider of a replica from what was read for its secret. -/
def Company.construct (c : Company) (stage : Stage) (replica : Nat) (ref : SecretRef)
    (secret : Except FileFault String) (cancelAt : Option Nat) :
    Except TokenError Company × Stage :=
  founded ref secret (c.prove stage replica cancelAt) stage

end Courier.Rehearsal
