import Courier.Proofs.Shared.Call
import Courier.Proofs.Store.Access
import Mathlib.Data.List.Induction

/-! # Fleets — calls of many replicas over one record

    A fleet is a store and any number of calls, each of the provider of some
    replica.  A schedule is a list of acts in any order: a call takes the lock
    of its replica, makes one access to the store, fails there, or learns how
    its refresh goes on; somebody else makes an access of their own.  An act
    that does not apply changes nothing.

    Reading and updating a database takes up to two accesses, so a call may
    stand midway between them while others act.  Each call keeps its past:
    what it was told, with the store just before. -/

namespace Courier

/-- What a call is told about its operation. -/
def Operation.told (now : Instant) (answer : Except StoreError Record) : Operation → SharedEvent
  | get _ => .read answer now
  | update _ => .written answer

/-- The operation that a call needs next, if it needs one. -/
def SharedCall.operation? (location : Location) : SharedCall → Option Operation
  | looking => some (.get location)
  | rereading .. => some (.get location)
  | writing _ _ edited => some (.update edited)
  | refreshing _ => none
  | done _ => none

/-- What a call was told, and the store just before. -/
structure Moment where
  event : SharedEvent
  before : Store

/-- A call of the provider of a replica. -/
structure Caller where
  replica : Nat
  /-- Where the call stands; nowhere before it holds the lock of its replica. -/
  call : Option SharedCall := none
  /-- Whether the call is between the two accesses of an operation. -/
  midway : Bool := false
  past : List Moment := []

/-- What a call does next. -/
inductive Move where
  /-- It takes the lock of its replica. -/
  | enter
  /-- It makes one access to the store; the clock reads as given behind it. -/
  | access (now : Instant)
  /-- Its access fails for the given reason, whether or not it reached the store. -/
  | fail (now : Instant) (cause : StoreError) (reached : Bool)
  /-- It learns how its refresh goes on. -/
  | refresh (event : RefreshEvent)

/-- The reading of the clock that comes with a move, if one does. -/
def Move.reading? : Move → Option Instant
  | access now => some now
  | fail now _ _ => some now
  | refresh (.sent now) => some now
  | _ => none

namespace Caller

/-- The operation that the call needs next. -/
def operation? (location : Location) (c : Caller) : Option Operation :=
  c.call.bind (SharedCall.operation? location)

/-- Whether the call holds the lock of its replica. -/
def holdsLock (c : Caller) : Bool :=
  match c.call with
  | none => false
  | some (.done _) => false
  | some _ => true

/-- The token that the call returned, if it has returned one. -/
def token? (c : Caller) : Option String :=
  match c.call with
  | some (.done (.ok token)) => some token
  | _ => none

/-- The failure that the call returned, if it has returned one. -/
def failure? (c : Caller) : Option TokenError :=
  match c.call with
  | some (.done (.error e)) => some e
  | _ => none

/-- The caller once it has been told of an event. -/
def hear (settings : RefreshSettings) (before : Store) (event : SharedEvent) (c : Caller) :
    Caller :=
  { c with call := c.call.map fun call => call.step settings event, midway := false,
           past := c.past ++ [⟨event, before⟩] }

/-- The caller and the store after a move; `free` says that nobody holds the replica's lock. -/
def move (location : Location) (settings : RefreshSettings) (free : Bool) (store : Store)
    (c : Caller) : Move → Caller × Store
  | .enter => (if c.call.isNone && free then { c with call := some .looking } else c, store)
  | .access now =>
    match c.operation? location, c.midway with
    | none, _ => (c, store)
    | some op, true => (c.hear settings store (op.told now (store.finish op)), store)
    | some op, false =>
      match store.start op with
      | (some answer, store') => (c.hear settings store (op.told now answer), store')
      | (none, store') => ({ c with midway := true }, store')
  | .fail now cause reached =>
    match c.operation? location with
    | none => (c, store)
    | some op =>
      (c.hear settings store (op.told now (.error cause)),
        if reached && !c.midway then (store.start op).2 else store)
  | .refresh event =>
    match c.call with
    | some (.refreshing state) =>
      (if state.expects event then c.hear settings store (.refresh event) else c, store)
    | _ => (c, store)

end Caller

/-- Calls of any number of replicas, over one record. -/
structure Fleet where
  location : Location
  /-- How each replica refreshes. -/
  settings : Nat → RefreshSettings
  store : Store
  callers : List Caller

namespace Fleet

/-- What happens next: a call moves, or somebody else begins an operation of the store; what
    they do behind that changes nothing. -/
inductive Act where
  | move (i : Nat) (m : Move)
  | foreign (op : Operation)

/-- Whether nobody holds the lock of a replica. -/
def isFree (f : Fleet) (replica : Nat) : Bool :=
  f.callers.all fun c => !(c.replica == replica && c.holdsLock)

/-- The fleet after an act; a move of a call that is not there changes nothing. -/
def step (f : Fleet) : Act → Fleet
  | .foreign op => { f with store := (f.store.start op).2 }
  | .move i m =>
    match f.callers[i]? with
    | none => f
    | some c =>
      let moved := c.move f.location (f.settings c.replica) (f.isFree c.replica) f.store m
      { f with store := moved.2, callers := f.callers.set i moved.1 }

/-- Where the call with the given number stands, once it has begun. -/
def callOf (f : Fleet) (i : Nat) : Option SharedCall := f.callers[i]?.bind Caller.call

/-- The fleet after a schedule. -/
def run (f : Fleet) (acts : List Act) : Fleet := acts.foldl step f

/-- The replicas of all calls. -/
def replicas (f : Fleet) : List Nat := f.callers.map Caller.replica

/-- A fleet whose calls have all still to take their locks. -/
def IsFresh (f : Fleet) : Prop := ∀ c ∈ f.callers, c = { replica := c.replica }

/-- Two replicas with a call each. -/
def pair (store : Store) : Fleet where
  location := ⟨"cnsi-system", "governor-access-token"⟩
  settings := fun _ => .standard
  store := store
  callers := [{ replica := 0 }, { replica := 1 }]

/-- Both replicas are granted a token; the first to write wins, and the other reads again. -/
def lostRace (now : Instant) : List Act :=
  [.move 0 .enter, .move 0 (.access now), .move 1 .enter, .move 1 (.access now),
    .move 0 (.refresh (.sent now)), .move 1 (.refresh (.sent now)),
    .move 1 (.refresh (.answered (.ok ⟨"second", 3600⟩))),
    .move 0 (.refresh (.answered (.ok ⟨"first", 3600⟩))), .move 1 (.access now),
    .move 0 (.access now), .move 0 (.access now), .move 1 (.access now), .move 1 (.access now)]

end Fleet

namespace Caller

variable (location : Location) (settings : RefreshSettings) (free : Bool) (store : Store)
variable (c : Caller)

/-! ## What a move comes to -/

/-- Taking the lock changes nothing, or begins the call. -/
theorem move_enter_cases :
    c.move location settings free store .enter = (c, store) ∨
    (c.call = none ∧ free = true ∧
      c.move location settings free store .enter = ({ c with call := some .looking }, store)) := by
  by_cases begins : c.call.isNone && free
  · obtain ⟨waiting, unlocked⟩ := Bool.and_eq_true_iff.mp begins
    exact Or.inr ⟨Option.isNone_iff_eq_none.mp waiting, unlocked,
      congrArg (·, store) (if_pos begins)⟩
  · exact Or.inl (congrArg (·, store) (if_neg begins))

variable {location c}

/-- The second access of a call tells it what the selection found. -/
theorem move_access_of_midway {op : Operation} (needs : c.operation? location = some op)
    (midway : c.midway = true) (now : Instant) :
    c.move location settings free store (.access now)
      = (c.hear settings store (op.told now (store.finish op)), store) := by
  simp only [move, needs, midway]

/-- An access whose answer comes at once is heard by the call. -/
theorem move_access_of_known {op : Operation} {answer : Except StoreError Record} {store' : Store}
    (needs : c.operation? location = some op) (idle : c.midway = false)
    (known : store.start op = (some answer, store')) (now : Instant) :
    c.move location settings free store (.access now)
      = (c.hear settings store (op.told now answer), store') := by
  simp only [move, needs, idle, known]

/-- An access that needs a second statement leaves the call midway. -/
theorem move_access_of_unknown {op : Operation} {store' : Store}
    (needs : c.operation? location = some op) (idle : c.midway = false)
    (unknown : store.start op = (none, store')) (now : Instant) :
    c.move location settings free store (.access now) = ({ c with midway := true }, store') := by
  simp only [move, needs, idle, unknown]

/-- The first access of a call tells it the answer, or leaves it midway. -/
theorem move_access_of_starts {op : Operation} {answer : Except StoreError Record} {store' : Store}
    (needs : c.operation? location = some op) (idle : c.midway = false)
    (started : store.Starts op answer store') (now : Instant) :
    c.move location settings free store (.access now)
        = (c.hear settings store (op.told now answer), store') ∨
      c.move location settings free store (.access now) = ({ c with midway := true }, store') := by
  rcases started with known | unknown
  · exact Or.inl (move_access_of_known settings free store needs idle known now)
  · exact Or.inr (move_access_of_unknown settings free store needs idle unknown now)

variable (location c)

/-- News of a refresh change nothing, or are what the refresh waits for. -/
theorem move_refresh_cases (event : RefreshEvent) :
    c.move location settings free store (.refresh event) = (c, store) ∨
    ∃ state, c.call = some (.refreshing state) ∧ state.expects event ∧
      c.move location settings free store (.refresh event)
        = (c.hear settings store (.refresh event), store) := by
  by_cases refreshes : ∃ state, c.call = some (.refreshing state)
  · obtain ⟨state, stands⟩ := refreshes
    by_cases expected : state.expects event
    · refine Or.inr ⟨state, stands, expected, ?_⟩
      simp only [move, stands]
      rw [if_pos expected]
    · refine Or.inl ?_
      simp only [move, stands]
      rw [if_neg expected]
  · refine Or.inl ?_
    show (match c.call with | some (.refreshing state) => _ | _ => (c, store)) = _
    split
    · next state stands => exact absurd ⟨state, stands⟩ refreshes
    · rfl

/-- What a move makes of a call and of the store. -/
inductive Moved (location : Location) (settings : RefreshSettings) (free : Bool) (store : Store)
    (c : Caller) : Move → Caller × Store → Prop where
  | idle {m : Move} : Moved location settings free store c m (c, store)
  | begun (waits : c.call = none) (unlocked : free = true) :
      Moved location settings free store c .enter ({ c with call := some .looking }, store)
  /-- The first access tells the call its answer. -/
  | answered {op : Operation} {now : Instant} {answer : Except StoreError Record} {store' : Store}
      (needs : c.operation? location = some op) (first : c.midway = false)
      (started : store.start op = (some answer, store')) :
      Moved location settings free store c (.access now)
        (c.hear settings store (op.told now answer), store')
  /-- The first access leaves the answer open. -/
  | opened {op : Operation} {now : Instant} {store' : Store}
      (needs : c.operation? location = some op) (first : c.midway = false)
      (started : store.start op = (none, store')) :
      Moved location settings free store c (.access now) ({ c with midway := true }, store')
  /-- The second access tells the call what the selection found. -/
  | finished {op : Operation} {now : Instant} (needs : c.operation? location = some op)
      (midway : c.midway = true) :
      Moved location settings free store c (.access now)
        (c.hear settings store (op.told now (store.finish op)), store)
  /-- A failure is told, and the store may have been reached before it. -/
  | failed {op : Operation} {now : Instant} {cause : StoreError} {reached : Bool} {store' : Store}
      (needs : c.operation? location = some op)
      (after : store' = store ∨ (c.midway = false ∧ store' = (store.start op).2)) :
      Moved location settings free store c (.fail now cause reached)
        (c.hear settings store (op.told now (.error cause)), store')
  | heard {state : Refreshing} {event : RefreshEvent}
      (stands : c.call = some (.refreshing state)) (expected : state.expects event) :
      Moved location settings free store c (.refresh event)
        (c.hear settings store (.refresh event), store)

/-- An access is one of the ways to move. -/
theorem moved_access (now : Instant) : Moved location settings free store c (.access now)
    (c.move location settings free store (.access now)) := by
  cases needs : c.operation? location with
  | none =>
      simp only [move, needs]
      exact .idle
  | some op =>
      cases midway : c.midway with
      | true =>
          rw [move_access_of_midway settings free store needs midway now]
          exact .finished needs midway
      | false =>
          rcases started : store.start op with ⟨known, store'⟩
          cases known with
          | none =>
              rw [move_access_of_unknown settings free store needs midway started now]
              exact .opened needs midway started
          | some answer =>
              rw [move_access_of_known settings free store needs midway started now]
              exact .answered needs midway started

/-- A failing access is one of the ways to move. -/
theorem moved_fail (now : Instant) (cause : StoreError) (reached : Bool) :
    Moved location settings free store c (.fail now cause reached)
      (c.move location settings free store (.fail now cause reached)) := by
  cases needs : c.operation? location with
  | none =>
      simp only [move, needs]
      exact .idle
  | some op =>
      simp only [move, needs]
      -- only a first access reaches the store before it fails
      split
      · next first =>
          obtain ⟨-, first⟩ := Bool.and_eq_true_iff.mp first
          exact .failed needs (Or.inr ⟨by simpa using first, rfl⟩)
      · exact .failed needs (Or.inl rfl)

/-- **ONE MOVE**: it changes nothing, or the call begins, or gets midway, or is told what its
    operation or its refresh came to. -/
theorem moved_move (m : Move) :
    Moved location settings free store c m (c.move location settings free store m) := by
  cases m with
  | enter =>
      rcases move_enter_cases location settings free store c with same | ⟨waits, unlocked, begun⟩
      · rw [same]
        exact .idle
      · rw [begun]
        exact .begun waits unlocked
  | access now => exact moved_access location settings free store c now
  | fail now cause reached => exact moved_fail location settings free store c now cause reached
  | refresh event =>
      rcases move_refresh_cases location settings free store c event with
        same | ⟨state, stands, expected, told⟩
      · rw [same]
        exact .idle
      · rw [told]
        exact .heard stands expected

/-- A move leaves the store alone, or makes the first access of the operation that is needed. -/
theorem store_move_cases (m : Move) :
    (c.move location settings free store m).2 = store ∨
    ∃ op, c.operation? location = some op ∧ c.midway = false ∧
      (c.move location settings free store m).2 = (store.start op).2 := by
  have moved := moved_move location settings free store c m
  generalize c.move location settings free store m = next at moved ⊢
  cases moved with
  | idle | begun | finished | heard => exact Or.inl rfl
  | answered needs first started | opened needs first started =>
      exact Or.inr ⟨_, needs, first, (congrArg Prod.snd started).symm⟩
  | failed needs after =>
      rcases after with rfl | ⟨first, rfl⟩
      · exact Or.inl rfl
      · exact Or.inr ⟨_, needs, first, rfl⟩

/-- A move leaves a call with its replica. -/
theorem replica_move (m : Move) :
    (c.move location settings free store m).1.replica = c.replica := by
  have moved := moved_move location settings free store c m
  generalize c.move location settings free store m = next at moved ⊢
  cases moved <;> rfl

/-- A call has been told one more thing behind a move, or nothing. -/
theorem past_move (m : Move) :
    (c.move location settings free store m).1.past = c.past ∨
    ∃ event, (c.move location settings free store m).1.past = c.past ++ [⟨event, store⟩] := by
  have moved := moved_move location settings free store c m
  generalize c.move location settings free store m = next at moved ⊢
  cases moved with
  | idle | begun | opened => exact Or.inl rfl
  | answered | finished | failed | heard => exact Or.inr ⟨_, rfl⟩

/-! ## The operation a call needs -/

variable {location c}

/-- What a caller needs of the store is what its call needs. -/
theorem operation?_of_call {call : SharedCall} (stands : c.call = some call) :
    c.operation? location = call.operation? location := by
  rw [operation?, stands]
  rfl

/-- A call needs to read the record, or to write it as edited. -/
theorem operation?_eq_some {op : Operation} (h : c.operation? location = some op) :
    (op = .get location ∧ (c.call = some .looking ∨
      ∃ round fresh, c.call = some (.rereading round fresh))) ∨
    ∃ round fresh edited, op = .update edited ∧ c.call = some (.writing round fresh edited) := by
  obtain ⟨call, stands, needs⟩ := Option.bind_eq_some_iff.mp h
  rw [stands]
  cases call with
  | looking => exact Or.inl ⟨(Option.some.inj needs).symm, Or.inl rfl⟩
  | refreshing state => exact nomatch needs
  | rereading round fresh =>
      exact Or.inl ⟨(Option.some.inj needs).symm, Or.inr ⟨round, fresh, rfl⟩⟩
  | writing round fresh edited =>
      exact Or.inr ⟨round, fresh, edited, (Option.some.inj needs).symm, rfl⟩
  | done result => exact nomatch needs

/-- What a caller hears is a step of its call. -/
theorem call_hear {call : SharedCall} (stands : c.call = some call) (event : SharedEvent) :
    (c.hear settings store event).call = some (call.step settings event) := by
  show c.call.map _ = _
  rw [stands]
  rfl

/-- **ONE ANSWER**: what a call needs to be told makes of it what its kind of answer makes of it. -/
theorem answered_told {op : Operation} (needs : c.operation? location = some op) (now : Instant)
    (answer : Except StoreError Record) :
    ∃ call event next, c.call = some call ∧ op.told now answer = event ∧
      (c.hear settings store event).call = some next ∧
      SharedCall.Answered settings call event next := by
  have told {call : SharedCall} {event : SharedEvent} (stands : c.call = some call)
      (answered : SharedCall.Answered settings call event (call.step settings event))
      (same : op.told now answer = event) :
      ∃ call event next, c.call = some call ∧ op.told now answer = event ∧
        (c.hear settings store event).call = some next ∧
        SharedCall.Answered settings call event next :=
    ⟨call, event, _, stands, same, call_hear settings store stands event, answered⟩
  rcases operation?_eq_some needs with
    ⟨rfl, looking | ⟨round, fresh, rereading⟩⟩ | ⟨round, fresh, edited, rfl, writing⟩
  · exact told looking (SharedCall.answered_looking settings answer now) rfl
  · exact told rereading (SharedCall.answered_rereading settings round fresh answer now) rfl
  · exact told writing (SharedCall.answered_writing settings round fresh edited answer) rfl

/-- A caller with a token is done with it. -/
theorem call_of_token? {token : String} (h : c.token? = some token) :
    c.call = some (.done (.ok token)) := by
  rw [token?] at h
  split at h
  · next ended => rw [ended, Option.some.inj h]
  · exact nomatch h

end Caller

namespace Fleet

/-- An act of a call that is not there changes nothing; any other is a move of that call. -/
theorem step_move_cases (f : Fleet) (i : Nat) (m : Move) :
    f.step (.move i m) = f ∨ ∃ c, f.callers[i]? = some c ∧ f.step (.move i m) =
      { f with
        store := (c.move f.location (f.settings c.replica) (f.isFree c.replica) f.store m).2,
        callers := f.callers.set i
          (c.move f.location (f.settings c.replica) (f.isFree c.replica) f.store m).1 } := by
  cases present : f.callers[i]? with
  | none => exact Or.inl (by simp only [step, present])
  | some c => exact Or.inr ⟨c, rfl, by simp only [step, present]⟩

/-- Only its own moves change a call. -/
theorem callers_step_of_ne (f : Fleet) {i : Nat} {act : Act} (other : ∀ m, act ≠ .move i m) :
    (f.step act).callers[i]? = f.callers[i]? := by
  cases act with
  | foreign op => rfl
  | move j m =>
      have hij : j ≠ i := fun same => other m (congrArg (Act.move · m) same)
      rcases step_move_cases f j m with idle | ⟨c, -, moved⟩
      · rw [idle]
      · rw [moved]
        exact List.getElem?_set_ne hij

/-- A move changes the call that makes it as the call alone would. -/
theorem callers_step_self {f : Fleet} {i : Nat} {c : Caller} (present : f.callers[i]? = some c)
    (m : Move) : (f.step (.move i m)).callers[i]? =
      some (c.move f.location (f.settings c.replica) (f.isFree c.replica) f.store m).1 := by
  have inside : i < f.callers.length := (List.getElem?_eq_some_iff.mp present).1
  simp only [step, present]
  exact List.getElem?_set_self inside

/-- Schedules in a row are run in a row. -/
theorem run_append (f : Fleet) (earlier later : List Act) :
    f.run (earlier ++ later) = (f.run earlier).run later :=
  List.foldl_append

/-- A schedule is run up to its last act, then that act. -/
theorem run_concat (f : Fleet) (acts : List Act) (act : Act) :
    f.run (acts ++ [act]) = (f.run acts).step act :=
  f.run_append acts [act]

theorem isFresh_pair (store : Store) : (pair store).IsFresh := by
  intro c mem
  rcases List.mem_cons.mp mem with rfl | mem
  · rfl
  · rw [List.mem_singleton.mp mem]

theorem location_step (f : Fleet) (act : Act) : (f.step act).location = f.location := by
  cases act with
  | foreign op => rfl
  | move i m => rcases step_move_cases f i m with idle | ⟨c, -, moved⟩ <;> simp only [*]

theorem settings_step (f : Fleet) (act : Act) : (f.step act).settings = f.settings := by
  cases act with
  | foreign op => rfl
  | move i m => rcases step_move_cases f i m with idle | ⟨c, -, moved⟩ <;> simp only [*]

theorem replicas_step (f : Fleet) (act : Act) : (f.step act).replicas = f.replicas := by
  cases act with
  | foreign op => rfl
  | move i m =>
      rcases step_move_cases f i m with idle | ⟨c, present, moved⟩
      · rw [idle]
      · obtain ⟨inside, rfl⟩ := List.getElem?_eq_some_iff.mp present
        rw [moved]
        show (f.callers.set i _).map Caller.replica = f.callers.map Caller.replica
        have bound : i < (f.callers.map Caller.replica).length := by
          rw [List.length_map]
          exact inside
        have item : f.callers[i].replica = (f.callers.map Caller.replica)[i] :=
          (List.getElem_map Caller.replica).symm
        rw [List.map_set, Caller.replica_move, item, List.set_getElem_self bound]

/-- A caller belongs to its replica. -/
theorem replicas_getElem? {f : Fleet} {i : Nat} {c : Caller} (present : f.callers[i]? = some c) :
    f.replicas[i]? = some c.replica := by
  rw [replicas, List.getElem?_map, present]
  rfl

/-- What no act changes, no schedule changes. -/
theorem run_eq_of_step {α : Type} {g : Fleet → α} (same : ∀ f act, g (f.step act) = g f) (f : Fleet)
    (schedule : List Act) : g (f.run schedule) = g f := by
  induction schedule generalizing f with
  | nil => rfl
  | cons act schedule ih => exact (ih (f.step act)).trans (same f act)

theorem location_run (f : Fleet) (schedule : List Act) : (f.run schedule).location = f.location :=
  run_eq_of_step location_step f schedule

theorem settings_run (f : Fleet) (schedule : List Act) : (f.run schedule).settings = f.settings :=
  run_eq_of_step settings_step f schedule

theorem replicas_run (f : Fleet) (schedule : List Act) : (f.run schedule).replicas = f.replicas :=
  run_eq_of_step replicas_step f schedule

/-- A call is there behind an act as it was before, or as its own move has left it. -/
theorem callers_step_cases {f : Fleet} {act : Act} {i : Nat} {c : Caller}
    (present : (f.step act).callers[i]? = some c) :
    f.callers[i]? = some c ∨ ∃ m before, act = .move i m ∧ f.callers[i]? = some before ∧
      c = (before.move f.location (f.settings before.replica) (f.isFree before.replica)
        f.store m).1 := by
  by_cases own : ∃ m, act = .move i m
  · obtain ⟨m, rfl⟩ := own
    cases there : f.callers[i]? with
    | none =>
        rw [show f.step (.move i m) = f by simp only [step, there], there] at present
        exact nomatch present
    | some before =>
        rw [callers_step_self there] at present
        exact Or.inr ⟨m, before, rfl, rfl, (Option.some.inj present).symm⟩
  · rw [callers_step_of_ne _ fun m same => own ⟨m, same⟩] at present
    exact Or.inl present

/-- What the moves of a call keep holds of it behind any schedule with such moves. -/
theorem caller_run {f : Fleet} {i : Nat} {P : Caller → Prop} {Q : Move → Prop}
    (start : ∀ c, f.callers[i]? = some c → P c)
    (keeps : ∀ c free store m, P c → Q m →
      P (c.move f.location (f.settings c.replica) free store m).1)
    (schedule : List Act) (moves : ∀ m, .move i m ∈ schedule → Q m) {c : Caller}
    (present : (f.run schedule).callers[i]? = some c) : P c := by
  induction schedule using List.reverseRecOn generalizing c with
  | nil => exact start c present
  | append_singleton schedule act ih =>
      have ih := @ih fun m mem => moves m (List.mem_append_left _ mem)
      rw [run_concat] at present
      rcases callers_step_cases present with same | ⟨m, before, rfl, there, rfl⟩
      · exact ih same
      · rw [location_run, settings_run]
        exact keeps before _ _ m (ih there) (moves m (List.mem_append_right _ (.head _)))

/-! ## The store -/

/-- The store after a move of a caller is what the move makes of it. -/
theorem store_step_move {f : Fleet} {i : Nat} {c : Caller} (present : f.callers[i]? = some c)
    (m : Move) : (f.step (.move i m)).store
      = (c.move f.location (f.settings c.replica) (f.isFree c.replica) f.store m).2 := by
  simp only [step, present]

/-- An act makes at most one access to the store. -/
theorem store_step_cases (f : Fleet) (act : Act) :
    (f.step act).store = f.store ∨ ∃ op, (f.step act).store = (f.store.start op).2 := by
  cases act with
  | foreign op => exact Or.inr ⟨op, rfl⟩
  | move i m =>
      rcases step_move_cases f i m with idle | ⟨c, -, moved⟩
      · rw [idle]
        exact Or.inl rfl
      · rw [moved]
        rcases Caller.store_move_cases f.location (f.settings c.replica) (f.isFree c.replica)
          f.store c m with same | ⟨op, -, -, after⟩
        · exact Or.inl same
        · exact Or.inr ⟨op, after⟩

/-- What accesses keep of a store, by their number, holds of it behind any schedule. -/
theorem store_run {f : Fleet} {P : Nat → Store → Prop} (start : P 0 f.store)
    (idle : ∀ n s, P n s → P (n + 1) s) (access : ∀ n s op, P n s → P (n + 1) (s.start op).2)
    (schedule : List Act) : P schedule.length (f.run schedule).store := by
  induction schedule using List.reverseRecOn with
  | nil => exact start
  | append_singleton schedule act ih =>
      rw [run_concat, List.length_append]
      rcases store_step_cases (f.run schedule) act with same | ⟨op, after⟩
      · rw [same]
        exact idle _ _ ih
      · rw [after]
        exact access _ _ op ih

end Fleet

end Courier
