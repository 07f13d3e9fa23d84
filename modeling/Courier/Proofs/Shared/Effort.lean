import Courier.Proofs.Shared.Adoption
import Courier.Proofs.Shared.Order
import Courier.Proofs.Shared.Overwrite

/-! # Effort — how much a call does, and what a failed one leaves behind

    A call reads once, makes no more requests than its policy has attempts,
    and goes through no more rounds of a read and a write than there are.  The
    invariant (`Frugal`) says for each state of a call how much of that is
    spent.

    Whatever a call does to the store keeps it, but for the write that ends
    the call with its token.  So a call that fails, for whatever reason, has
    written nothing: each of its moves has left every location as it was, or
    with an empty record where there was none. -/

namespace Courier

/-- Every first access keeps the store, but for an update that is accepted. -/
theorem Store.keeps_start_of_refused {s : Store} {op : Operation}
    (refused : ∀ edited, op = .update edited → ¬s.Accepts edited) (l : Location) :
    s.Keeps l (s.start op).2 := by
  cases op with
  | get here => exact s.keeps_start_get l here
  | update edited =>
      rw [start_update_of_not_accepts (refused edited rfl)]
      exact Or.inl (.refl l s)

namespace Moment

/-- Whether a call sent a request to the issuer. -/
def isRequest (m : Moment) : Bool :=
  match m.event with
  | .refresh event => event.isRequest
  | _ => false

/-- Whether a call was told the answer to a read. -/
def isRead (m : Moment) : Bool :=
  match m.event with
  | .read .. => true
  | _ => false

/-- Whether a call was told the answer to a write. -/
def isWrite (m : Moment) : Bool :=
  match m.event with
  | .written _ => true
  | _ => false

end Moment

namespace Caller

/-- The number of requests of a call to the issuer. -/
def requests (c : Caller) : Nat := c.past.countP Moment.isRequest

/-- Whether a read of a call is under way or comes next, as a number. -/
def pendingReads (c : Caller) : Nat :=
  match c.call with
  | some .looking => 1
  | some (.rereading ..) => 1
  | _ => 0

/-- Whether a write of a call is under way or comes next, as a number. -/
def pendingWrites (c : Caller) : Nat :=
  match c.call with
  | some (.writing ..) => 1
  | _ => 0

/-- The number of reads of a call, with the one that is under way or comes next. -/
def reads (c : Caller) : Nat := c.past.countP Moment.isRead + c.pendingReads

/-- The number of writes of a call, with the one that is under way or comes next. -/
def writes (c : Caller) : Nat := c.past.countP Moment.isWrite + c.pendingWrites

/-- How often a call sent a request, was told the answer to a read and to a write, and published,
    by its past. -/
structure Spent (past : List Moment) (requests reads writes publications : Nat) : Prop where
  requests : past.countP Moment.isRequest = requests
  reads : past.countP Moment.isRead = reads
  writes : past.countP Moment.isWrite = writes
  publications : past.countP Moment.isPublication = publications

/-- Whether a call keeps to its budget, by where it stands: it is before its first read, or behind
    that and some requests, or behind some whole rounds as well. -/
def Frugal (settings : RefreshSettings) (c : Caller) : Prop :=
  match c.call with
  | none => Spent c.past 0 0 0 0
  | some .looking => Spent c.past 0 0 0 0
  | some (.refreshing state) => state.IsRunning ∧ ∃ requests, Spent c.past requests 1 0 0 ∧
      requests + state.tries ≤ settings.policy.budget.toNat
  | some (.rereading round _) => ∃ requests rounds, Spent c.past requests (rounds + 1) rounds 0 ∧
      requests ≤ settings.policy.budget.toNat ∧ round = rounds + 1 ∧
      round ≤ SharedCall.maxRounds
  | some (.writing round _ _) => ∃ requests rounds, Spent c.past requests (rounds + 2) rounds 0 ∧
      requests ≤ settings.policy.budget.toNat ∧ round = rounds + 1 ∧
      round ≤ SharedCall.maxRounds
  | some (.done result) => ∃ requests reads writes publications,
      Spent c.past requests reads writes publications ∧
      requests ≤ settings.policy.budget.toNat ∧ reads ≤ 1 + SharedCall.maxRounds ∧
      writes ≤ SharedCall.maxRounds ∧ publications ≤ if result.isOk then 1 else 0

variable {location : Location} {settings : RefreshSettings} {free : Bool} {store : Store}
variable {c : Caller} {requests reads writes publications : Nat}

variable (settings store)

/-- What a call has spent after it heard the answer to a look: one read more. -/
theorem Spent.read (h : Spent c.past requests reads writes publications)
    (answer : Except StoreError Record) (now : Instant) :
    Spent (c.hear settings store (.read answer now)).past requests (reads + 1) writes
      publications where
  requests := (countP_past_hear ..).trans h.requests
  reads := (countP_past_hear ..).trans (congrArg (· + 1) h.reads)
  writes := (countP_past_hear ..).trans h.writes
  publications := (countP_past_hear ..).trans h.publications

/-- What a call has spent after it heard the answer to a write: one write more. -/
theorem Spent.written (h : Spent c.past requests reads writes publications)
    (answer : Except StoreError Record) :
    Spent (c.hear settings store (.written answer)).past requests reads (writes + 1)
      (publications + if answer.isOk then 1 else 0) where
  requests := (countP_past_hear ..).trans h.requests
  reads := (countP_past_hear ..).trans h.reads
  writes := (countP_past_hear ..).trans (congrArg (· + 1) h.writes)
  publications := by
    rw [countP_past_hear, h.publications]
    cases answer <;> rfl

/-- What a call has spent after an event of its refresh: one request more where it sent one. -/
theorem Spent.refresh (h : Spent c.past requests reads writes publications) (event : RefreshEvent) :
    Spent (c.hear settings store (.refresh event)).past
      (requests + if event.isRequest then 1 else 0) reads writes publications where
  requests := (countP_past_hear ..).trans (congrArg (· + _) h.requests)
  reads := (countP_past_hear ..).trans h.reads
  writes := (countP_past_hear ..).trans h.writes
  publications := (countP_past_hear ..).trans h.publications

variable {settings store}

/-- A call that has ended stays within its budget, if it did before. -/
theorem frugal_of_ended {result : Except TokenError String}
    (ended : c.call = some (.done result)) (spent : Spent c.past requests reads writes publications)
    (few : requests ≤ settings.policy.budget.toNat) (fewReads : reads ≤ 1 + SharedCall.maxRounds)
    (fewWrites : writes ≤ SharedCall.maxRounds)
    (once : publications ≤ if result.isOk then 1 else 0) : c.Frugal settings := by
  simp only [Frugal, ended]
  exact ⟨_, _, _, _, spent, few, fewReads, fewWrites, once⟩

/-- The answer of the store leaves a call within its budget. -/
theorem frugal_told {op : Operation} (needs : c.operation? location = some op) (now : Instant)
    (answer : Except StoreError Record) (frugal : c.Frugal settings) :
    (c.hear settings store (op.told now answer)).Frugal settings := by
  obtain ⟨call, event, next, stands, told, becomes, answered⟩ :=
    answered_told settings store needs now answer
  rw [told]
  simp only [Frugal, stands] at frugal
  cases answered with
  | found =>
      exact frugal_of_ended becomes (frugal.read ..) (Nat.zero_le _) (by decide) (by decide)
        (Nat.zero_le _)
  | missed =>
      simp only [Frugal, becomes]
      exact ⟨trivial, _, frugal.read .., by rw [Refreshing.tries_start, Nat.zero_add]⟩
  | unread =>
      exact frugal_of_ended becomes (frugal.read ..) (Nat.zero_le _) (by decide) (by decide)
        (Nat.zero_le _)
  | adopted | unreread =>
      obtain ⟨requests, rounds, spent, few, rfl, inTime⟩ := frugal
      exact frugal_of_ended becomes (spent.read ..) few (by omega) (by omega) (Nat.zero_le _)
  | edits =>
      obtain ⟨requests, rounds, spent, few, rfl, inTime⟩ := frugal
      simp only [Frugal, becomes]
      exact ⟨requests, rounds, spent.read .., few, rfl, inTime⟩
  -- a write completes the round
  | published =>
      obtain ⟨requests, rounds, spent, few, rfl, inTime⟩ := frugal
      exact frugal_of_ended becomes (spent.written ..) few (by omega) inTime (Nat.le_refl _)
  | again more =>
      obtain ⟨requests, rounds, spent, few, rfl, inTime⟩ := frugal
      simp only [Frugal, becomes]
      exact ⟨requests, rounds + 1, spent.written .., few, rfl, more⟩
  | givenUp | unwritten =>
      obtain ⟨requests, rounds, spent, few, rfl, inTime⟩ := frugal
      exact frugal_of_ended becomes (spent.written ..) few (by omega) inTime (Nat.le_refl _)

/-- News of a refresh leave a call within its budget. -/
theorem frugal_refresh {state : Refreshing} {event : RefreshEvent}
    (stands : c.call = some (.refreshing state)) (expected : state.expects event)
    (frugal : c.Frugal settings) :
    (c.hear settings store (.refresh event)).Frugal settings := by
  have next := call_hear settings store stands (.refresh event)
  simp only [Frugal, stands] at frugal
  obtain ⟨running, requests, before, few⟩ := frugal
  have spent := before.refresh settings store event
  have tries := Refreshing.tries_step_le settings.maxAge running expected
  have fewer : requests + (if event.isRequest then 1 else 0)
      ≤ settings.policy.budget.toNat := by omega
  rcases SharedCall.step_refreshing_cases settings running event with
    ⟨goesOn, running'⟩ | ⟨engine, backoff, requestedAt, grant, -, -, ended⟩ | ⟨cause, -, ended⟩
  · rw [goesOn] at next
    simp only [Frugal, next]
    exact ⟨running', _, spent, by omega⟩
  · -- the first round starts with no round behind it
    rw [ended] at next
    simp only [Frugal, next]
    exact ⟨_, 0, spent, fewer, rfl, by decide⟩
  · rw [ended] at next
    exact frugal_of_ended next spent fewer (by decide) (by decide) (Nat.zero_le _)

/-- **ONE MOVE**: a call stays within its budget. -/
theorem frugal_move (location : Location) (free : Bool) (store : Store) (m : Move)
    (frugal : c.Frugal settings) :
    (c.move location settings free store m).1.Frugal settings := by
  have moved := moved_move location settings free store c m
  generalize c.move location settings free store m = next at moved ⊢
  cases moved with
  | idle | opened => exact frugal
  | begun waits =>
      simp only [Frugal, waits] at frugal
      exact frugal
  | answered needs | finished needs | failed needs => exact frugal_told needs _ _ frugal
  | heard stands expected => exact frugal_refresh stands expected frugal

/-- A call within its budget has made no more requests than its policy has attempts, one more read
    than there are rounds and no more writes; it has published at most once, and only with
    success. -/
theorem Frugal.bounds (frugal : c.Frugal settings) :
    c.requests ≤ settings.policy.budget.toNat ∧ c.reads ≤ 1 + SharedCall.maxRounds ∧
      c.writes ≤ SharedCall.maxRounds ∧
      c.publications ≤ if c.failure?.isSome then 0 else 1 := by
  -- every state of a call says how often it has been told each kind of thing
  have told : ∃ requests reads writes publications,
      Spent c.past requests reads writes publications ∧
      requests ≤ settings.policy.budget.toNat ∧
      reads + c.pendingReads ≤ 1 + SharedCall.maxRounds ∧
      writes + c.pendingWrites ≤ SharedCall.maxRounds ∧
      publications ≤ if c.failure?.isSome then 0 else 1 := by
    cases stands : c.call with
    | none =>
        simp only [Frugal, stands] at frugal
        simp only [pendingReads, pendingWrites, failure?, stands]
        exact ⟨0, 0, 0, 0, frugal, Nat.zero_le _, by decide, by decide, Nat.zero_le _⟩
    | some call =>
        cases call <;> simp only [Frugal, stands] at frugal <;>
          simp only [pendingReads, pendingWrites, failure?, stands]
        case looking =>
          exact ⟨0, 0, 0, 0, frugal, Nat.zero_le _, by decide, by decide, Nat.zero_le _⟩
        case refreshing state =>
          obtain ⟨-, requests, spent, few⟩ := frugal
          exact ⟨requests, 1, 0, 0, spent, Nat.le_of_add_right_le few, by decide, by decide,
            Nat.zero_le _⟩
        case rereading round fresh =>
          obtain ⟨requests, rounds, spent, few, rfl, inTime⟩ := frugal
          exact ⟨requests, rounds + 1, rounds, 0, spent, few, by omega, by omega, Nat.zero_le _⟩
        case writing round fresh edited =>
          obtain ⟨requests, rounds, spent, few, rfl, inTime⟩ := frugal
          exact ⟨requests, rounds + 2, rounds, 0, spent, few, by omega, by omega, Nat.zero_le _⟩
        case done result =>
          cases result with
          | ok token => exact frugal
          | error cause => exact frugal
  obtain ⟨requests, reads, writes, publications, spent, few, fewReads, fewWrites, once⟩ := told
  rw [← spent.requests] at few
  rw [← spent.reads] at fewReads
  rw [← spent.writes] at fewWrites
  rw [← spent.publications] at once
  exact ⟨few, fewReads, fewWrites, once⟩

/-! ## What a move does to the store -/

/-- An access keeps the store everywhere, or ends the call with its token. -/
theorem keeps_or_ends_access (location : Location) (settings : RefreshSettings) (free : Bool)
    (store : Store) (c : Caller) (now : Instant) :
    (∀ l, store.Keeps l (c.move location settings free store (.access now)).2) ∨
    ∃ token, (c.move location settings free store (.access now)).1.call
      = some (.done (.ok token)) := by
  have moved := moved_move location settings free store c (.access now)
  generalize c.move location settings free store (.access now) = next at moved ⊢
  cases moved with
  | idle | finished => exact Or.inl fun l => Or.inl (.refl l store)
  | @answered op _ answer store' needs first started =>
      by_cases accepted : ∃ edited, op = .update edited ∧ store.Accepts edited
      · obtain ⟨edited, rfl, stored, success⟩ := accepted
        rcases operation?_eq_some needs with ⟨get, -⟩ | ⟨round, fresh, edited', -, writing⟩
        · exact nomatch get
        · -- a write that is accepted is answered at once
          rw [started] at success
          rw [Option.some.inj success]
          exact Or.inr ⟨fresh.token, call_hear settings store writing (.written (.ok stored))⟩
      · have keeps := store.keeps_start_of_refused fun edited same accepts =>
          accepted ⟨edited, same, accepts⟩
        rw [started] at keeps
        exact Or.inl keeps
  | @opened op _ store' needs first started =>
      -- an access that leaves the answer open has written nothing
      have refused : ∀ edited, op = .update edited → ¬store.Accepts edited := by
        rintro edited rfl ⟨stored, success⟩
        rw [started] at success
        exact nomatch success
      have keeps := store.keeps_start_of_refused refused
      rw [started] at keeps
      exact Or.inl keeps

/-- A failing access keeps the store everywhere, unless it is the report of a failure of a write
    that the store has accepted. -/
theorem keeps_of_fail (location : Location) (settings : RefreshSettings) (free : Bool)
    (store : Store) (c : Caller) (now : Instant) (cause : StoreError) (reached : Bool)
    (whole : reached = true → c.midway = false → ∀ round fresh edited,
      c.call = some (.writing round fresh edited) → ¬store.Accepts edited) (l : Location) :
    store.Keeps l (c.move location settings free store (.fail now cause reached)).2 := by
  cases needs : c.operation? location with
  | none =>
      simp only [move, needs]
      exact Or.inl (.refl l store)
  | some op =>
      simp only [move, needs]
      split
      · next first =>
          obtain ⟨rfl, idle⟩ := Bool.and_eq_true_iff.mp first
          refine Store.keeps_start_of_refused (fun edited same => ?_) l
          subst same
          rcases operation?_eq_some needs with ⟨get, -⟩ | ⟨round, fresh, edited', same, writing⟩
          · cases get
          · obtain rfl := Operation.update.inj same
            exact whole rfl ((Bool.not_eq_true' _).mp idle) round fresh edited writing
      · exact Or.inl (.refl l store)

end Caller

namespace Fleet

/-- Whether no write of a call was reported as a failure although the store had accepted it, as is
    so with every store that makes an update in one piece. -/
def WritesWhole (f : Fleet) (i : Nat) (schedule : List Act) : Prop :=
  ∀ earlier now cause later c, schedule = earlier ++ .move i (.fail now cause true) :: later →
    (f.run earlier).callers[i]? = some c → c.midway = false →
    ∀ round fresh edited, c.call = some (.writing round fresh edited) →
      ¬(f.run earlier).store.Accepts edited

/-- Whether each move of a call so far has left every location as it was, or with an empty record
    where there was none. -/
def LeavesNoTrace (f : Fleet) (i : Nat) (schedule : List Act) : Prop :=
  ∀ earlier m later, schedule = earlier ++ .move i m :: later →
    ∀ l, (f.run earlier).store.Keeps l (f.run (earlier ++ [.move i m])).store

variable {f : Fleet} {i : Nat}

/-- A move keeps the store everywhere, or ends its call with a token. -/
theorem keeps_or_ends_step {f : Fleet} {c : Caller} (present : f.callers[i]? = some c) (m : Move)
    (whole : ∀ now cause, m = .fail now cause true → c.midway = false →
      ∀ round fresh edited, c.call = some (.writing round fresh edited) →
        ¬f.store.Accepts edited) :
    (∀ l, f.store.Keeps l (f.step (.move i m)).store) ∨
      ∃ token, (f.step (.move i m)).callOf i = some (.done (.ok token)) := by
  rw [store_step_move present, callOf, callers_step_self present, Option.bind_some]
  cases m with
  | enter => exact Or.inl fun l => Or.inl (.refl l f.store)
  | access now => exact Caller.keeps_or_ends_access ..
  | fail now cause reached =>
      refine Or.inl (Caller.keeps_of_fail _ _ _ _ _ now cause reached fun hit => ?_)
      exact whole now cause (by rw [hit])
  | refresh event =>
      rcases Caller.move_refresh_cases f.location (f.settings c.replica) (f.isFree c.replica)
        f.store c event with same | ⟨state, -, -, same⟩ <;>
        exact Or.inl fun l => by rw [same]; exact Or.inl (.refl l f.store)

/-- A call that has not ended with a token has left no trace. -/
theorem leavesNoTrace_run (f : Fleet) (schedule : List Act) (whole : f.WritesWhole i schedule)
    (untold : ∀ token, (f.run schedule).callOf i ≠ some (.done (.ok token))) :
    f.LeavesNoTrace i schedule := by
  induction schedule using List.reverseRecOn with
  | nil => exact fun earlier m later parts => absurd parts.symm (by simp)
  | append_singleton schedule act ih =>
      rw [run_concat] at untold
      -- a call that has ended stays as it is
      have before : f.LeavesNoTrace i schedule := by
        refine ih (fun earlier now cause later c parts => ?_) fun token ended => ?_
        · exact whole earlier now cause (later ++ [act]) c (by rw [parts, List.append_assoc]; rfl)
        · exact untold token (callOf_step_of_done ended act)
      intro earlier m later parts l
      rcases List.eq_nil_or_concat later with rfl | ⟨more, last, rfl⟩
      · -- the move is the last act
        obtain ⟨rfl, same⟩ := List.append_inj' parts rfl
        obtain rfl := List.head_eq_of_cons_eq same
        rw [run_concat]
        cases present : (f.run schedule).callers[i]? with
        | none =>
            have idle : (f.run schedule).step (.move i m) = f.run schedule := by
              simp only [step, present]
            rw [idle]
            exact Or.inl (.refl l _)
        | some c =>
            rcases keeps_or_ends_step present m fun now cause same idle => by
                subst same
                exact whole schedule now cause [] c rfl present idle with keeps | ⟨token, ended⟩
            · exact keeps l
            · exact absurd ended (untold token)
      · rw [List.concat_eq_append, ← List.cons_append, ← List.append_assoc] at parts
        exact before earlier m more (List.append_inj' parts rfl).1 l

/-- Every schedule leaves every call within its budget. -/
theorem frugal_run (fresh : f.IsFresh) (schedule : List Act) {c : Caller}
    (present : (f.run schedule).callers[i]? = some c) : c.Frugal (f.settings c.replica) := by
  refine caller_run (P := fun c => c.Frugal (f.settings c.replica)) (Q := fun _ => True)
    (fun c there => ?_) (fun c free store m frugal _ => ?_) schedule (fun _ _ => trivial) present
  · rw [fresh c (List.mem_of_getElem? there)]
    exact ⟨rfl, rfl, rfl, rfl⟩
  · show Caller.Frugal _ _
    rw [Caller.replica_move]
    exact Caller.frugal_move f.location free store m frugal

/-- **BOUNDED EFFORT, AND NO TRACE OF A FAILURE**: in any state of the store, with any course of the
    refreshes, any failures of the store and anybody else's operations in between, a call makes at
    most as many requests as its policy has attempts, one more read than there are rounds, as many
    writes as there are rounds, and one successful write.  If it fails, none was successful, and
    each of its moves has left every location as it was, or with an empty record where there was
    none, as long as the store makes updates in one piece. -/
theorem calls_fail_cleanly (fresh : f.IsFresh) (schedule : List Act) {c : Caller}
    (present : (f.run schedule).callers[i]? = some c) :
    c.requests ≤ (f.settings c.replica).policy.budget.toNat ∧
      c.reads ≤ 1 + SharedCall.maxRounds ∧ c.writes ≤ SharedCall.maxRounds ∧
      c.publications ≤ 1 ∧
      ∀ e, c.failure? = some e → c.publications = 0 ∧
        (f.WritesWhole i schedule → f.LeavesNoTrace i schedule) := by
  obtain ⟨requests, reads, writes, once⟩ := (frugal_run fresh schedule present).bounds
  refine ⟨requests, reads, writes, ?_, fun e failed => ⟨?_, fun whole => ?_⟩⟩
  · split at once
    · exact Nat.le_trans once (Nat.zero_le 1)
    · exact once
  · rw [failed] at once
    exact Nat.le_zero.mp once
  · refine leavesNoTrace_run f schedule whole fun token ended => ?_
    rw [callOf, present, Option.bind_some] at ended
    rw [Caller.failure?, ended] at failed
    cases failed

/-- Two updates meet a conflict, and the third fails when it has reached the store, which has changed
    again in between and refuses it. -/
theorem calls_fail_cleanly_failed_write :
    let f := pair (.memory {})
    let failedWrite : Act := .move 0 (.fail .epoch (.database "disk I/O error") true)
    let schedule := untilLastWrite ++ [failedWrite]
    f.IsFresh ∧ f.WritesWhole 0 schedule ∧
      ∃ c e, (f.run schedule).callers[0]? = some c ∧ c.failure? = some e ∧
        e.message = "shared credential store error: Database error: disk I/O error" ∧
        c.reads = 1 + SharedCall.maxRounds ∧ c.writes = SharedCall.maxRounds ∧
        c.publications = 0 ∧ f.LeavesNoTrace 0 schedule := by
  intro f failedWrite schedule
  have fresh : f.IsFresh := isFresh_pair (.memory {})
  -- what the call writes last, the store refuses
  have refused : ((f.run untilLastWrite).callOf 0).any (fun call =>
      (call.operation? f.location).any fun op =>
        ((f.run untilLastWrite).store.start op).1.any Except.isOk) = false := by decide +kernel
  have whole : f.WritesWhole 0 schedule := by
    intro earlier now cause later c parts present idle round fresh edited writing accepts
    rcases List.eq_nil_or_concat later with rfl | ⟨more, last, rfl⟩
    · obtain ⟨rfl, -⟩ := List.append_inj' parts rfl
      obtain ⟨stored, answer⟩ := accepts
      rw [callOf, present, Option.bind_some, writing, Option.any_some, SharedCall.operation?,
        Option.any_some, answer] at refused
      cases refused
    · -- no earlier act of the schedule is a failure
      rw [List.concat_eq_append, ← List.cons_append, ← List.append_assoc] at parts
      have mem : .move 0 (.fail now cause true) ∈ untilLastWrite :=
        (List.append_inj' parts rfl).1 ▸ List.mem_append_right _ (.head _)
      simp [untilLastWrite, untilFirstWrite, foreignUpdate] at mem
  have ends : ((f.run schedule).callers[0]?.map fun c =>
      (c.failure?.map TokenError.message, c.reads, c.writes)) =
      some (some "shared credential store error: Database error: disk I/O error",
        1 + SharedCall.maxRounds, SharedCall.maxRounds) := by decide +kernel
  obtain ⟨c, present, told⟩ := Option.map_eq_some_iff.mp ends
  obtain ⟨failed, counts⟩ := Prod.mk.inj told
  obtain ⟨reads, writes⟩ := Prod.mk.inj counts
  obtain ⟨e, failed, message⟩ := Option.map_eq_some_iff.mp failed
  obtain ⟨-, -, -, -, clean⟩ := calls_fail_cleanly fresh schedule present
  obtain ⟨unpublished, untouched⟩ := clean e failed
  exact ⟨fresh, whole, c, e, present, failed, message, reads, writes, unpublished,
    untouched whole⟩

end Fleet

end Courier
