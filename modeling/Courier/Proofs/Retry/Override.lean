import Courier.Proofs.History
import Courier.Proofs.Retry.Law

/-! # The override — one wait at most, in this run or in a later one

    An engine is used again and again: an override is set, or an operation is
    run.  What matters to the override are its turns: it is set, or a wait is
    taken.  Over all runs, a pending override is what the last override set
    before has left, unless a wait without a hint has used it up since
    (`pendingBehind`).  Waits with a hint leave it alone, and so does a run
    that ends before it waits.

    One wait obeys this rule because the engine chooses it so; a run obeys it
    by induction on its waits, and a history by induction on its uses. -/

namespace Courier

/-- What is done with an engine: an override is set, or an operation is run.  Each run has types of
    its own. -/
inductive EngineUse : Type 1 where
  | override (wait : Span)
  | run {α ε : Type} (script : Nat → Call α ε) (cancelAt : Option Nat)

/-- What matters to the override: it is set, or a wait is taken where a failure asks for `hint`
    and the policy for `computed`. -/
inductive Turn where
  | set (value : Span)
  | wait (hint : Option Span) (computed taken : Span)
  deriving DecidableEq

namespace Turn

/-- Whether a turn is a wait that its failure asked for. -/
def isHinted : Turn → Bool
  | wait (some _) _ _ => true
  | _ => false

/-- The override that is pending behind a turn. -/
def pendingAfter (pending : Option Span) : Turn → Option Span
  | set value => some value
  | wait (some _) _ _ => pending
  | wait none _ _ => none

/-- Whether a turn is no wait, or one of the length that is right where `pending` is pending. -/
def Obeys (pending : Option Span) : Turn → Prop
  | set _ => True
  | wait hint computed taken => taken = hint.getD (pending.getD computed)

/-- The override that is pending behind some turns. -/
def pendingBehind (pending : Option Span) (turns : List Turn) : Option Span :=
  turns.foldl pendingAfter pending

/-- Whether every turn is as it has to be behind the turns before it. -/
def AllObey (pending : Option Span) (turns : List Turn) : Prop :=
  History.Lawful pendingAfter Obeys pending turns

variable {pending : Option Span}

/-- A turn with a hint leaves what is pending. -/
theorem pendingAfter_of_isHinted {turn : Turn} (hinted : turn.isHinted = true) :
    turn.pendingAfter pending = pending := by
  cases turn with
  | set value => exact nomatch hinted
  | wait hint computed taken =>
      cases hint with
      | none => exact nomatch hinted
      | some value => rfl

/-- Waits with a hint leave the override pending. -/
theorem pendingBehind_of_isHinted {turns : List Turn} (hinted : ∀ t ∈ turns, t.isHinted = true) :
    pendingBehind pending turns = pending := by
  induction turns with
  | nil => rfl
  | cons turn later ih =>
      show pendingBehind (turn.pendingAfter pending) later = pending
      rw [pendingAfter_of_isHinted (hinted turn (.head _))]
      exact ih fun t mem => hinted t (.tail _ mem)

/-- What is pending behind two histories is pending behind the second from behind the first. -/
theorem pendingBehind_append (pending : Option Span) (earlier later : List Turn) :
    pendingBehind pending (earlier ++ later)
      = pendingBehind (pendingBehind pending earlier) later :=
  List.foldl_append

/-- All turns of two histories obey just if those of both do, the second from behind the first. -/
theorem allObey_append {earlier later : List Turn} : AllObey pending (earlier ++ later) ↔
    AllObey pending earlier ∧ AllObey (pendingBehind pending earlier) later :=
  History.lawful_append

/-- A wait among turns that obey is a hint, or else what is pending, or else the policy's own. -/
theorem AllObey.taken {turns earlier later : List Turn} {hint : Option Span}
    {computed taken : Span} (obey : AllObey pending turns)
    (split : turns = earlier ++ .wait hint computed taken :: later) :
    taken = hint.getD ((pendingBehind pending earlier).getD computed) := by
  rw [AllObey, split] at obey
  exact obey.split.1

/-- Behind a turn and waits with a hint only, a wait without one is what that turn left pending, or
    else the policy's own. -/
theorem AllObey.taken_behind {turns earlier between later : List Turn} {turn : Turn}
    {computed taken : Span} (obey : AllObey pending turns)
    (split : turns = (earlier ++ turn :: between) ++ .wait none computed taken :: later)
    (hinted : ∀ t ∈ between, t.isHinted = true) :
    taken = (turn.pendingAfter (pendingBehind pending earlier)).getD computed := by
  have decided := obey.taken split
  rw [pendingBehind_append] at decided
  rw [decided]
  show (pendingBehind (turn.pendingAfter (pendingBehind pending earlier)) between).getD computed = _
  rw [pendingBehind_of_isHinted hinted]

end Turn

namespace RetryEngine

variable {α ε : Type}

/-! ## One run -/

/-- What one wait makes of the override. -/
theorem override_chooseWait (e : RetryEngine) (hint : Option Span) (computed : Span) :
    (e.chooseWait hint computed).2.override
      = (Turn.wait hint computed (e.chooseWait hint computed).1).pendingAfter e.override := by
  obtain ⟨policy, override⟩ := e
  cases hint <;> cases override <;> rfl

/-- A wait is its hint, or else the pending override, or else the policy's own. -/
theorem fst_chooseWait (e : RetryEngine) (hint : Option Span) (computed : Span) :
    (e.chooseWait hint computed).1 = hint.getD (e.override.getD computed) := by
  obtain ⟨policy, override⟩ := e
  cases hint <;> cases override <;> rfl

/-- The wait behind the call with the given index, as a turn. -/
def turnAfter (e : RetryEngine) (script : Nat → Call α ε) (i : Nat) (taken : Span) : Turn :=
  .wait (script i).attempt.hint? (e.policy.delays.delay i) taken

/-- The turns of a run: its waits, with what their failures and the policy ask for. -/
def turnsOf (e : RetryEngine) (script : Nat → Call α ε) (waits : List Span) : List Turn :=
  waits.mapIdx (e.turnAfter script)

theorem turnsOf_map_range (e : RetryEngine) (script : Nat → Call α ε) (n : Nat) :
    e.turnsOf script ((List.range n).map (e.waitAfter script))
      = (List.range n).map fun i => e.turnAfter script i (e.waitAfter script i) := by
  refine List.ext_getElem (by simp [turnsOf]) fun i _ _ => ?_
  simp [turnsOf]

/-- **ONE RUN**: the first waits on the course of a run obey, and the engine behind them has what
    is pending there. -/
theorem course_obeys (e : RetryEngine) (script : Nat → Call α ε) (n : Nat) :
    let turns := (List.range n).map fun i => e.turnAfter script i (e.waitAfter script i)
    Turn.AllObey e.override turns ∧
      (e.engineBefore script n).override = Turn.pendingBehind e.override turns := by
  induction n with
  | zero => exact ⟨trivial, rfl⟩
  | succ n ih =>
      obtain ⟨obey, pending⟩ := ih
      rw [List.range_succ, List.map_append]
      refine ⟨Turn.allObey_append.mpr ⟨obey, ?_, trivial⟩, ?_⟩
      · rw [← pending]
        exact fst_chooseWait ..
      · rw [Turn.pendingBehind_append, ← pending]
        exact override_chooseWait ..

/-- A run takes the first waits of its course, however it ends, and leaves the engine that is
    behind them. -/
theorem exists_run_waits (e : RetryEngine) (script : Nat → Call α ε) (cancelAt : Option Nat) :
    ∃ n, (e.run script cancelAt).waits = (List.range n).map (e.waitAfter script) ∧
      (e.run script cancelAt).engine = e.engineBefore script n ∧
      ((e.run script cancelAt).starts = (List.range (n + 1)).map (e.startOf script) ∨
        (e.run script cancelAt).starts = (List.range n).map (e.startOf script)) := by
  obtain ⟨i, -, goesOn, stops⟩ := exists_stop e script cancelAt
  rcases run_eq_of_stop goesOn stops with ⟨-, run⟩ | ⟨-, -, -, run⟩
  · rw [run]
    exact ⟨i, rfl, rfl, Or.inl rfl⟩
  · rw [run]
    exact ⟨i + 1, rfl, rfl, Or.inr rfl⟩

/-- **ANY RUN**: its waits obey, its engine keeps the policy, and what is pending is what they
    leave. -/
theorem run_obeys (e : RetryEngine) (script : Nat → Call α ε) (cancelAt : Option Nat) :
    let log := e.run script cancelAt
    Turn.AllObey e.override (e.turnsOf script log.waits) ∧ log.engine.policy = e.policy ∧
      log.engine.override = Turn.pendingBehind e.override (e.turnsOf script log.waits) := by
  intro log
  obtain ⟨n, waits, engine, -⟩ := e.exists_run_waits script cancelAt
  obtain ⟨obey, pending⟩ := e.course_obeys script n
  rw [show log.waits = _ from waits, show log.engine = _ from engine, turnsOf_map_range]
  exact ⟨obey, e.policy_engineBefore script n, pending⟩

/-- There is a wait between any two calls, and the later one starts when the wait ends. -/
theorem run_keeps_to_waits (e : RetryEngine) (script : Nat → Call α ε) (cancelAt : Option Nat) :
    let log := e.run script cancelAt
    log.starts.length ≤ log.waits.length + 1 ∧
      ∀ i start wait next, log.starts[i]? = some start → log.waits[i]? = some wait →
        log.starts[i + 1]? = some next → next = start + (script i).takes + wait.timerMillis := by
  intro log
  obtain ⟨n, waits, -, starts⟩ := e.exists_run_waits script cancelAt
  have calls : ∃ m ≤ n + 1, log.starts = (List.range m).map (e.startOf script) := by
    rcases starts with starts | starts
    · exact ⟨n + 1, Nat.le_refl _, starts⟩
    · exact ⟨n, Nat.le_succ n, starts⟩
  obtain ⟨m, most, starts⟩ := calls
  rw [starts, show log.waits = _ from waits]
  refine ⟨by simpa using most, fun i start wait next started waited follows => ?_⟩
  rw [getElem?_map_range_eq_some] at started waited follows
  obtain ⟨-, rfl⟩ := started
  obtain ⟨-, rfl⟩ := waited
  obtain ⟨-, rfl⟩ := follows
  rfl

/-- In a run that nobody cancels there is a wait behind every call but the last, and each passing
    failure with an attempt left has one behind it. -/
theorem waits_of_calm (e : RetryEngine) {script : Nat → Call α ε}
    (calm : ∀ i, (script i).cancels = false) :
    let log := e.run script none
    log.starts.length = log.waits.length + 1 ∧
      ∀ i hint, i + 1 < e.budget → i < log.starts.length → (script i).attempt = .retry hint →
        i < log.waits.length := by
  intro log
  obtain ⟨last, -, -, ended, run⟩ := exists_run_eq e calm
  have calls : log.starts.length = last + 1 := by
    rw [show log = _ from run, endedLog, List.length_map, List.length_range]
  have waits : log.waits.length = last := by
    rw [show log = _ from run, endedLog, List.length_map, List.length_range]
  refine ⟨calls.trans (congrArg Nat.succ waits.symm), fun i hint left made retry => ?_⟩
  -- the last call is no passing failure, unless it has used up the budget
  have notLast : i ≠ last := by
    rintro rfl
    have spent := ended (Attempt.outcome?_of_retry retry)
    omega
  omega

/-- What is pending changes the waits of a run that nobody cancels, not its calls. -/
theorem calls_of_override (e : RetryEngine) (other : Option Span) {script : Nat → Call α ε}
    (calm : ∀ i, (script i).cancels = false) :
    ({ e with override := other }.run script none).starts.length
        = (e.run script none).starts.length ∧
      ({ e with override := other }.run script none).result = (e.run script none).result := by
  obtain ⟨i, inBudget, retries, ended, run⟩ := exists_run_eq e calm
  obtain ⟨j, inBudget', retries', ended', run'⟩ := exists_run_eq { e with override := other } calm
  -- both runs end with the first outcome that is no passing failure, or with the budget
  have same : j = i := by
    rcases Nat.lt_trichotomy i j with before | same | behind
    · have spent := ended (retries' i before)
      have budget : ({ e with override := other } : RetryEngine).budget = e.budget := rfl
      omega
    · exact same.symm
    · have spent := ended' (retries j behind)
      have budget : ({ e with override := other } : RetryEngine).budget = e.budget := rfl
      omega
  subst same
  rw [run, run']
  simp [endedLog]

/-! ## Any number of uses -/

/-- The engine behind a use. -/
def behind (e : RetryEngine) : EngineUse → RetryEngine
  | .override wait => e.setNextRetry wait
  | .run script cancelAt => (e.run script cancelAt).engine

/-- The turns of a history of uses. -/
def turns : RetryEngine → List EngineUse → List Turn
  | _, [] => []
  | e, .override wait :: later => .set wait :: turns (e.behind (.override wait)) later
  | e, .run script cancelAt :: later =>
    e.turnsOf script (e.run script cancelAt).waits ++ turns (e.behind (.run script cancelAt)) later

/-- **EVERY HISTORY**: all turns obey, across all runs. -/
theorem turns_obey (e : RetryEngine) (uses : List EngineUse) :
    Turn.AllObey e.override (e.turns uses) := by
  induction uses generalizing e with
  | nil => exact trivial
  | cons use later ih =>
      cases use with
      | override wait => exact ⟨trivial, ih (e.setNextRetry wait)⟩
      | run script cancelAt =>
          obtain ⟨obey, -, pending⟩ := e.run_obeys script cancelAt
          refine Turn.allObey_append.mpr ⟨obey, ?_⟩
          rw [← pending]
          exact ih (e.run script cancelAt).engine

/-- The engine behind a history has the policy it always had, and what is pending by then. -/
theorem engine_behind (e : RetryEngine) (uses : List EngineUse) :
    (uses.foldl behind e).policy = e.policy ∧
      (uses.foldl behind e).override = Turn.pendingBehind e.override (e.turns uses) := by
  induction uses generalizing e with
  | nil => exact ⟨rfl, rfl⟩
  | cons use later ih =>
      cases use with
      | override wait => exact ih (e.setNextRetry wait)
      | run script cancelAt =>
          obtain ⟨-, policy, pending⟩ := e.run_obeys script cancelAt
          obtain ⟨policy', pending'⟩ := ih (e.run script cancelAt).engine
          refine ⟨policy'.trans policy, pending'.trans ?_⟩
          rw [turns, Turn.pendingBehind_append, ← pending]
          rfl

/-- **THE OVERRIDE IS ONE-SHOT**: let an engine be used any number of times, with any overrides,
    scripts and cancellations.  Each wait of each run is the hint of the failure before it; without
    one, the pending override; and without that, the policy's wait with its index in that run.  An
    override that is set decides the first later wait without a hint, in whichever run, unless
    another one takes its place before; the next wait without a hint is the policy's own again.
    A run that takes no wait without a hint leaves the override pending, however it ends.  A run
    that nobody cancels waits behind each passing failure with an attempt left, and what is pending
    has no part in how many calls it makes. -/
theorem override_is_one_shot (e : RetryEngine) (uses : List EngineUse) :
    let turns := e.turns uses
    let engine := uses.foldl behind e
    (∀ earlier hint computed taken later, turns = earlier ++ .wait hint computed taken :: later →
        taken = hint.getD ((Turn.pendingBehind e.override earlier).getD computed)) ∧
      (∀ earlier value between computed taken later,
        turns = (earlier ++ .set value :: between) ++ .wait none computed taken :: later →
        (∀ turn ∈ between, turn.isHinted = true) → taken = value) ∧
      (∀ earlier own first between computed taken later,
        turns = (earlier ++ .wait none own first :: between) ++ .wait none computed taken :: later →
        (∀ turn ∈ between, turn.isHinted = true) → taken = computed) ∧
      (engine.policy = e.policy ∧ engine.override = Turn.pendingBehind e.override turns) ∧
      ∀ {α ε : Type} (script : Nat → Call α ε) (cancelAt : Option Nat),
        let log := engine.run script cancelAt
        (log.starts.length ≤ log.waits.length + 1 ∧
          ∀ i start wait next, log.starts[i]? = some start → log.waits[i]? = some wait →
            log.starts[i + 1]? = some next → next = start + (script i).takes + wait.timerMillis) ∧
        ((∀ i < log.waits.length, (script i).attempt.hint? ≠ none) →
          log.engine.override = engine.override) ∧
        ((∀ i, (script i).cancels = false) →
          let free := engine.run script none
          (free.starts.length = free.waits.length + 1 ∧
            ∀ i hint, i + 1 < engine.budget → i < free.starts.length →
              (script i).attempt = .retry hint → i < free.waits.length) ∧
          ∀ other,
            ({ engine with override := other }.run script none).starts.length
                = free.starts.length ∧
              ({ engine with override := other }.run script none).result = free.result) := by
  intro turns engine
  have obey := e.turns_obey uses
  refine ⟨fun earlier hint computed taken later split => obey.taken split, ?_, ?_,
    e.engine_behind uses,
    fun script cancelAt => ⟨engine.run_keeps_to_waits script cancelAt, ?_, ?_⟩⟩
  · -- behind the turn that sets it, the override is what is pending
    intro earlier value between computed taken later split hinted
    exact obey.taken_behind split hinted
  · -- behind a wait without a hint nothing is pending
    intro earlier own first between computed taken later split hinted
    exact obey.taken_behind split hinted
  · intro hinted
    obtain ⟨-, -, pending⟩ := engine.run_obeys script cancelAt
    rw [pending]
    refine Turn.pendingBehind_of_isHinted fun turn mem => ?_
    obtain ⟨i, below, rfl⟩ := List.mem_mapIdx.mp mem
    obtain ⟨hint, asked⟩ := Option.ne_none_iff_exists'.mp (hinted i below)
    rw [turnAfter, asked]
    rfl
  · intro calm
    exact ⟨engine.waits_of_calm calm, fun other => engine.calls_of_override other calm⟩

/-- An override outlives a run that succeeds at once and a hinted wait, and is used up then. -/
example :
    let e : RetryEngine := ⟨.make "calm" 3 (.fixed (.ofSeconds 10)), none⟩
    let asks : Nat → Call Unit Unit
      | 0 => { attempt := .retry (some (.ofSeconds 2)) }
      | _ => { attempt := .retry none }
    let works : Nat → Call Nat Unit := fun i => { attempt := .success i }
    e.turns [.override (.ofSeconds 1), .run works none, .run asks none, .run asks none]
      = [.set (.ofSeconds 1),
        .wait (some (.ofSeconds 2)) (.ofSeconds 10) (.ofSeconds 2),
        .wait none (.ofSeconds 10) (.ofSeconds 1),
        .wait (some (.ofSeconds 2)) (.ofSeconds 10) (.ofSeconds 2),
        .wait none (.ofSeconds 10) (.ofSeconds 10)] := by
  decide +kernel

end RetryEngine

end Courier
