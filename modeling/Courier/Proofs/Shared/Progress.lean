import Courier.Proofs.Shared.Fleet

/-! # Progress — a fleet never gets stuck, and never goes on for ever

    Every act leaves all calls as they are or lowers the weight of one of
    them, so a schedule has only so many acts that change a call.  As long as
    some call has not returned there is an act that lowers the weight: a call
    that holds its lock can always go on, and a lock that is not free is held
    by such a call. -/

namespace Courier

/-- Whether a move needs no other reading of the clock than the given one, no failure, and no
    answer of the issuer but the given grant. -/
def Move.IsPlain (now : Instant) (grant : Grant) : Move → Prop
  | .enter => True
  | .access reading => reading = now
  | .fail .. => False
  | .refresh (.sent reading) => reading = now
  | .refresh (.answered answer) => answer = .ok grant
  | .refresh .woken => True
  | .refresh .cancelled => False

/-- A plain move is one of five, so what holds of these holds of it. -/
theorem Move.IsPlain.elim {now : Instant} {grant : Grant} {m : Move} (plain : m.IsPlain now grant)
    {P : Move → Prop} (enter : P .enter) (access : P (.access now))
    (sent : P (.refresh (.sent now))) (granted : P (.refresh (.answered (.ok grant))))
    (woken : P (.refresh .woken)) : P m := by
  cases m with
  | enter => exact enter
  | access reading =>
      obtain rfl : reading = now := plain
      exact access
  | fail reading cause reached => exact absurd plain id
  | refresh event =>
      cases event with
      | sent reading =>
          obtain rfl : reading = now := plain
          exact sent
      | answered answer =>
          obtain rfl : answer = .ok grant := plain
          exact granted
      | woken => exact woken
      | cancelled => exact absurd plain id

namespace Caller

/-- How much a call can still do; an access that leaves the answer open counts half. -/
def weight (settings : RefreshSettings) (c : Caller) : Nat :=
  match c.call with
  | none => 2 * SharedCall.looking.weight settings + 2
  | some call => 2 * call.weight settings - if c.midway then 1 else 0

variable (location : Location) (settings : RefreshSettings) (free : Bool) (store : Store)
variable {c : Caller}

/-- What a call waits to be told lowers its weight. -/
theorem weight_hear_lt {call : SharedCall} {event : SharedEvent} (stands : c.call = some call)
    (lower : (call.step settings event).weight settings < call.weight settings) :
    (c.hear settings store event).weight settings < c.weight settings := by
  simp only [weight, call_hear settings store stands event, stands]
  show 2 * (call.step settings event).weight settings - 0 < _
  split <;> omega

/-- The answer to the operation that a call needs lowers its weight. -/
theorem weight_told_lt {location : Location} {op : Operation}
    (needs : c.operation? location = some op) (now : Instant) (answer : Except StoreError Record) :
    (c.hear settings store (op.told now answer)).weight settings < c.weight settings := by
  rcases operation?_eq_some needs with
    ⟨rfl, looking | ⟨round, fresh, rereading⟩⟩ | ⟨round, fresh, edited, rfl, writing⟩
  · exact weight_hear_lt settings store looking (SharedCall.weight_looking_lt settings answer now)
  · exact weight_hear_lt settings store rereading
      (SharedCall.weight_rereading_lt settings round fresh answer now)
  · exact weight_hear_lt settings store writing
      (SharedCall.weight_writing_lt settings round fresh edited answer)

/-- Getting midway lowers the weight. -/
theorem weight_midway_lt {location : Location} {op : Operation}
    (needs : c.operation? location = some op) (idle : c.midway = false) :
    ({ c with midway := true } : Caller).weight settings < c.weight settings := by
  have positive {call : SharedCall} (stands : c.call = some call)
      (h : 0 < call.weight settings) :
      ({ c with midway := true } : Caller).weight settings < c.weight settings := by
    simp only [weight, stands, idle, if_true, Bool.false_eq_true, if_false]
    omega
  rcases operation?_eq_some needs with
    ⟨-, looking | ⟨round, fresh, rereading⟩⟩ | ⟨round, fresh, edited, -, writing⟩
  · exact positive looking (Nat.succ_pos _)
  · exact positive rereading (Nat.succ_pos _)
  · exact positive writing (Nat.succ_pos _)

/-- Beginning lowers the weight. -/
theorem weight_enter_lt (waiting : c.call = none) :
    ({ c with call := some .looking } : Caller).weight settings < c.weight settings := by
  simp only [weight, waiting]
  omega

/-- **EVERY MOVE COUNTS**: a move changes nothing about a call, or lowers its weight. -/
theorem weight_move_lt (m : Move) : (c.move location settings free store m).1 = c ∨
    (c.move location settings free store m).1.weight settings < c.weight settings := by
  have moved := moved_move location settings free store c m
  generalize c.move location settings free store m = next at moved ⊢
  cases moved with
  | idle => exact Or.inl rfl
  | begun waits => exact Or.inr (weight_enter_lt settings waits)
  | opened needs first => exact Or.inr (weight_midway_lt settings needs first)
  | answered needs | finished needs | failed needs =>
      exact Or.inr (weight_told_lt settings store needs _ _)
  | heard stands expected =>
      exact Or.inr (weight_hear_lt settings store stands
        (SharedCall.weight_refresh_lt settings expected))

/-- An access of a call that needs one lowers its weight. -/
theorem weight_access_lt {op : Operation} (needs : c.operation? location = some op)
    (now : Instant) :
    (c.move location settings free store (.access now)).1.weight settings < c.weight settings := by
  cases midway : c.midway with
  | true =>
      rw [move_access_of_midway settings free store needs midway now]
      exact weight_told_lt settings store needs now _
  | false =>
      rcases started : store.start op with ⟨known, store'⟩
      cases known with
      | none =>
          rw [move_access_of_unknown settings free store needs midway started now]
          exact weight_midway_lt settings needs midway
      | some answer =>
          rw [move_access_of_known settings free store needs midway started now]
          exact weight_told_lt settings store needs now answer

/-- A call that has begun and not returned holds its lock. -/
theorem holdsLock_of_running {call : SharedCall} (stands : c.call = some call)
    (running : ∀ result, call ≠ .done result) : c.holdsLock = true := by
  cases call with
  | done result => exact absurd rfl (running result)
  | looking => simp only [holdsLock, stands]
  | refreshing state => simp only [holdsLock, stands]
  | rereading round fresh => simp only [holdsLock, stands]
  | writing round fresh edited => simp only [holdsLock, stands]

/-- A call that holds its lock can go on. -/
theorem exists_weight_move_lt (runs : c.holdsLock = true) (now : Instant) (grant : Grant) :
    ∃ m : Move, m.IsPlain now grant ∧
      (c.move location settings free store m).1.weight settings < c.weight settings := by
  have news {state : Refreshing} (stands : c.call = some (.refreshing state))
      {event : RefreshEvent} (expected : state.expects event) :
      (c.move location settings free store (.refresh event)).1.weight settings
        < c.weight settings := by
    simp only [move, stands]
    rw [if_pos expected]
    exact weight_hear_lt settings store stands (SharedCall.weight_refresh_lt settings expected)
  have access {op : Operation} (needs : c.operation? location = some op) : ∃ m : Move,
      m.IsPlain now grant ∧
        (c.move location settings free store m).1.weight settings < c.weight settings :=
    ⟨.access now, rfl, weight_access_lt location settings free store needs now⟩
  -- some move is always open: the access it needs, or the news its refresh expects
  cases stands : c.call with
  | none => simp [holdsLock, stands] at runs
  | some call =>
      cases call with
      | looking => exact access (operation?_of_call stands)
      | rereading round fresh => exact access (operation?_of_call stands)
      | writing round fresh edited => exact access (operation?_of_call stands)
      | done result => simp [holdsLock, stands] at runs
      | refreshing state =>
          cases state with
          | due engine backoff => exact ⟨.refresh (.sent now), rfl, news stands trivial⟩
          | awaiting engine backoff requestedAt =>
              exact ⟨.refresh (.answered (.ok grant)), rfl, news stands trivial⟩
          | pausing engine backoff wait => exact ⟨.refresh .woken, trivial, news stands trivial⟩
          | ended result => exact ⟨.refresh .woken, trivial, news stands trivial⟩

end Caller

/-- The sum of a measure over a list. -/
def total {α : Type} (g : α → Nat) (l : List α) : Nat := l.foldr (fun a n => g a + n) 0

theorem total_eq_zero {α : Type} {g : α → Nat} {l : List α} (zero : ∀ a ∈ l, g a = 0) :
    total g l = 0 := by
  induction l with
  | nil => rfl
  | cons head rest ih =>
      show g head + total g rest = 0
      rw [zero head (List.mem_cons_self ..), ih fun a mem => zero a (List.mem_cons_of_mem _ mem)]

/-- Replacing one item of a list changes a sum over the list by that item. -/
theorem total_set {α : Type} (g : α → Nat) (l : List α) {i : Nat} {a : α} (b : α)
    (h : l[i]? = some a) : total g (l.set i b) + g a = total g l + g b := by
  induction l generalizing i with
  | nil => exact nomatch h
  | cons head rest ih =>
      cases i with
      | zero =>
          rw [Option.some.inj h]
          show g b + total g rest + g a = g a + total g rest + g b
          omega
      | succ i =>
          have tail := ih h
          show g head + total g (rest.set i b) + g a = g head + total g rest + g b
          omega

namespace Fleet

/-- How much the calls of a fleet can still do. -/
def weight (f : Fleet) : Nat := total (fun c => c.weight (f.settings c.replica)) f.callers

/-- A move that lowers the weight of its call lowers that of the fleet. -/
theorem weight_step_move_lt {f : Fleet} {i : Nat} {c : Caller} (present : f.callers[i]? = some c)
    {m : Move} (lower : (c.move f.location (f.settings c.replica) (f.isFree c.replica) f.store
      m).1.weight (f.settings c.replica) < c.weight (f.settings c.replica)) :
    (f.step (.move i m)).weight < f.weight := by
  have sum := total_set (fun c => c.weight (f.settings c.replica)) f.callers
    (c.move f.location (f.settings c.replica) (f.isFree c.replica) f.store m).1 present
  have replica := Caller.replica_move f.location (f.settings c.replica) (f.isFree c.replica)
    f.store c m
  rw [replica] at sum
  have moved : (f.step (.move i m)).weight = total (fun c => c.weight (f.settings c.replica))
      (f.callers.set i
        (c.move f.location (f.settings c.replica) (f.isFree c.replica) f.store m).1) := by
    simp only [step, present, weight]
  rw [moved]
  rw [weight]
  omega

/-- A call that takes a free lock lowers the weight. -/
theorem weight_step_enter_lt {f : Fleet} {i : Nat} {c : Caller} (present : f.callers[i]? = some c)
    (waits : c.call = none) (free : f.isFree c.replica = true) :
    (f.step (.move i .enter)).weight < f.weight := by
  refine weight_step_move_lt present ?_
  simp only [Caller.move, waits, free, Option.isNone_none, Bool.and_self, if_true]
  exact Caller.weight_enter_lt (f.settings c.replica) waits

/-- **EVERY ACT COUNTS**: an act leaves all calls as they are, or lowers the weight. -/
theorem weight_step (f : Fleet) (act : Act) :
    (f.step act).callers = f.callers ∨ (f.step act).weight < f.weight := by
  cases act with
  | foreign op => exact Or.inl rfl
  | move i m =>
      cases present : f.callers[i]? with
      | none =>
          refine Or.inl ?_
          simp only [step, present]
      | some c =>
          rcases Caller.weight_move_lt f.location (f.settings c.replica) (f.isFree c.replica)
            f.store (c := c) m with same | lower
          · refine Or.inl ?_
            simp only [step, present, same]
            obtain ⟨inside, item⟩ := List.getElem?_eq_some_iff.mp present
            rw [← item, List.set_getElem_self inside]
          · exact Or.inr (weight_step_move_lt present lower)

/-- **NO FLEET IS STUCK**: while a call has not returned, some act lowers the weight, whatever the
    clock of each call reads and whatever the issuer would grant each replica. -/
theorem exists_weight_step_lt {f : Fleet} {c : Caller} (mem : c ∈ f.callers)
    (running : ∀ result, c.call ≠ some (.done result)) (readings : Nat → Instant)
    (grants : Nat → Grant) :
    ∃ i c m, f.callers[i]? = some c ∧ Move.IsPlain (readings i) (grants c.replica) m ∧
      (f.step (.move i m)).weight < f.weight := by
  -- whoever holds a lock can go on
  have going {c : Caller} (mem : c ∈ f.callers) (holds : c.holdsLock = true) :
      ∃ i c m, f.callers[i]? = some c ∧ Move.IsPlain (readings i) (grants c.replica) m ∧
        (f.step (.move i m)).weight < f.weight := by
    obtain ⟨i, present⟩ := List.mem_iff_getElem?.mp mem
    obtain ⟨m, plain, lower⟩ := Caller.exists_weight_move_lt f.location (f.settings c.replica)
      (f.isFree c.replica) f.store holds (readings i) (grants c.replica)
    exact ⟨i, c, m, present, plain, weight_step_move_lt present lower⟩
  cases stands : c.call with
  | some call => exact going mem (Caller.holdsLock_of_running stands fun result ended =>
      running result (stands.trans (congrArg some ended)))
  | none =>
      -- the lock is free, or whoever holds it can go on
      cases free : f.isFree c.replica with
      | true =>
          obtain ⟨i, present⟩ := List.mem_iff_getElem?.mp mem
          exact ⟨i, c, .enter, present, trivial, weight_step_enter_lt present stands free⟩
      | false =>
          obtain ⟨holder, there, holds⟩ := List.all_eq_false.mp free
          refine going there ?_
          cases lock : holder.holdsLock with
          | true => rfl
          | false =>
              rw [lock, Bool.and_false] at holds
              exact absurd rfl holds

/-- A fleet that can go on by acts of a kind until it gets where it should gets there by a schedule
    of such acts. -/
theorem exists_run_of_goesOn {P Q : Fleet → Prop} {R : Act → Prop}
    (goesOn : ∀ f, P f → Q f ∨ ∃ act, R act ∧ P (f.step act) ∧ (f.step act).weight < f.weight)
    (f : Fleet) (h : P f) :
    ∃ schedule, (∀ act ∈ schedule, R act) ∧ P (f.run schedule) ∧ Q (f.run schedule) := by
  induction bound : f.weight using Nat.strongRecOn generalizing f with
  | ind n ih =>
      subst bound
      rcases goesOn f h with there | ⟨act, allowed, after, lower⟩
      · exact ⟨[], List.forall_mem_nil _, h, there⟩
      · obtain ⟨schedule, rules, ends⟩ := ih _ lower (f.step act) after rfl
        exact ⟨act :: schedule, List.forall_mem_cons.mpr ⟨allowed, rules⟩, ends⟩

/-- **ALL CALLS CAN RETURN**: from every state some schedule leads to where all calls have returned,
    whatever the clock of each call reads and whatever the issuer grants. -/
theorem exists_run_all_returned (f : Fleet) (readings : Nat → Instant) (grant : Grant) :
    ∃ schedule, (∀ act ∈ schedule, ∃ i m, act = .move i m ∧ m.IsPlain (readings i) grant) ∧
      ∀ c ∈ (f.run schedule).callers, ∃ result, c.call = some (.done result) := by
  have goesOn (g : Fleet) (_ : True) :
      (∀ c ∈ g.callers, ∃ result, c.call = some (.done result)) ∨
      ∃ act : Act, (∃ i m, act = .move i m ∧ m.IsPlain (readings i) grant) ∧ True ∧
        (g.step act).weight < g.weight := by
    by_cases returned : ∀ c ∈ g.callers, ∃ result, c.call = some (.done result)
    · exact Or.inl returned
    · simp only [not_forall, not_exists] at returned
      obtain ⟨c, mem, running⟩ := returned
      obtain ⟨i, d, m, -, plain, lower⟩ :=
        exists_weight_step_lt mem running readings fun _ => grant
      exact Or.inr ⟨.move i m, ⟨i, m, rfl, plain⟩, trivial, lower⟩
  obtain ⟨schedule, plain, -, returned⟩ := exists_run_of_goesOn goesOn f trivial
  exact ⟨schedule, plain, returned⟩

end Fleet

end Courier
