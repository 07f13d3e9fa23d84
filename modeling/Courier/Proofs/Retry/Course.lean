import Courier.Retry.Run
import Mathlib.Data.Nat.Find

/-! # The course of a run — when calls start, and which waits come between them

    The calls and waits of a run follow one course as long as it goes on: each
    wait is chosen by the engine that the earlier waits left behind, and each
    call starts when the wait before it ends.  The budget, the outcomes and
    the cancellation only decide where on that course the run stops.

    A run goes on behind a call (`GoesOn`) if the call asks for another
    attempt, the budget has one left, and the token is not cancelled by the
    end of the wait.  Everything about a run follows from where it stops first
    (`run_eq_of_stop`), and it does stop (`exists_stop`). -/

namespace Courier

variable {α ε : Type}

namespace Attempt

/-- What a run comes to with an attempt that does not ask for another one. -/
def outcome? (name : String) : Attempt α ε → Option (Except (RetryError ε) α)
  | success value => some (.ok value)
  | fatal cause => some (.error (.fatal name cause))
  | retry _ => none

/-- The wait that an attempt asks for. -/
def hint? : Attempt α ε → Option Span
  | retry hint => hint
  | _ => none

/-- An attempt that decides nothing is a passing failure. -/
theorem eq_retry {name : String} {attempt : Attempt α ε} (h : attempt.outcome? name = none) :
    attempt = .retry attempt.hint? := by
  cases attempt with
  | success value => exact nomatch h
  | fatal cause => exact nomatch h
  | retry hint => rfl

theorem outcome?_of_retry {name : String} {attempt : Attempt α ε} {hint : Option Span}
    (h : attempt = .retry hint) : attempt.outcome? name = none := by
  rw [h]
  rfl

end Attempt

/-- What the list of the first `n` values of a function has at an index. -/
theorem getElem?_map_range_eq_some {β : Type} {f : Nat → β} {n i : Nat} {b : β} :
    ((List.range n).map f)[i]? = some b ↔ i < n ∧ f i = b := by
  rw [List.getElem?_map, Option.map_eq_some_iff]
  constructor
  · rintro ⟨k, there, rfl⟩
    obtain ⟨below, rfl⟩ := List.getElem?_eq_some_iff.mp there
    rw [List.length_range] at below
    rw [List.getElem_range]
    exact ⟨below, rfl⟩
  · rintro ⟨below, rfl⟩
    exact ⟨i, List.getElem?_range below, rfl⟩

namespace RetryEngine

/-! ## The course -/

/-- Choosing a wait leaves the policy alone. -/
theorem policy_chooseWait (e : RetryEngine) (hint : Option Span) (computed : Span) :
    (e.chooseWait hint computed).2.policy = e.policy := by
  obtain ⟨policy, override⟩ := e
  cases hint <;> cases override <;> rfl

variable (e : RetryEngine) (script : Nat → Call α ε)

/-- The engine before the call with the given index. -/
def engineBefore : Nat → RetryEngine
  | 0 => e
  | i + 1 =>
    ((engineBefore i).chooseWait (script i).attempt.hint? (e.policy.delays.delay i)).2

/-- The wait behind the call with the given index. -/
def waitAfter (i : Nat) : Span :=
  ((e.engineBefore script i).chooseWait (script i).attempt.hint? (e.policy.delays.delay i)).1

/-- The moment at which the call with the given index starts. -/
def startOf : Nat → Nat
  | 0 => 0
  | i + 1 => startOf i + (script i).takes + (e.waitAfter script i).timerMillis

/-- The moment at which the call with the given index ends. -/
def finishOf (i : Nat) : Nat := e.startOf script i + (script i).takes

/-- The moment of cancellation, if any, as it stands before the call with the given index. -/
def cancelBefore (cancelAt : Option Nat) : Nat → Option Nat
  | 0 => cancelAt
  | i + 1 =>
    if (script i).cancels then some (earliest (cancelBefore cancelAt i) (e.finishOf script i))
    else cancelBefore cancelAt i

theorem policy_engineBefore (i : Nat) : (e.engineBefore script i).policy = e.policy := by
  induction i with
  | zero => rfl
  | succ i ih => exact (policy_chooseWait ..).trans ih

/-- A call starts when the wait behind the one before it is over. -/
theorem finishOf_le_startOf_succ (i : Nat) :
    e.finishOf script i ≤ e.startOf script (i + 1) := Nat.le_add_right ..

/-- Calls start no earlier than all calls before them have ended. -/
theorem finishOf_le_startOf {i j : Nat} (h : i < j) :
    e.finishOf script i ≤ e.startOf script j := by
  induction j with
  | zero => exact absurd h (Nat.not_lt_zero i)
  | succ j ih =>
      rcases Nat.lt_succ_iff_lt_or_eq.mp h with earlier | rfl
      · calc e.finishOf script i
            ≤ e.startOf script j := ih earlier
          _ ≤ e.finishOf script j := Nat.le_add_right ..
          _ ≤ e.startOf script (j + 1) := e.finishOf_le_startOf_succ script j
      · exact e.finishOf_le_startOf_succ script i

/-- The earlier one of two moments is reached when one of them is. -/
theorem any_earliest {moment : Option Nat} {t limit : Nat} :
    (some (earliest moment t)).any (· ≤ limit) = true ↔
      moment.any (· ≤ limit) = true ∨ t ≤ limit := by
  cases moment with
  | none => simp [earliest]
  | some s => simp only [earliest, Option.any_some, decide_eq_true_eq]; omega

/-- When a call starts, the token is cancelled if its own moment has come, or if a call made before
    cancelled it at its end. -/
theorem any_cancelBefore (cancelAt : Option Nat) {i j : Nat} (h : i ≤ j) :
    (e.cancelBefore script cancelAt i).any (· ≤ e.startOf script j) = true ↔
      cancelAt.any (· ≤ e.startOf script j) = true ∨ ∃ k < i, (script k).cancels = true := by
  induction i with
  | zero => simp [cancelBefore]
  | succ i ih =>
      have earlier := ih (Nat.le_of_succ_le h)
      have ended := e.finishOf_le_startOf script h
      rw [cancelBefore]
      -- the call before either cancels, which is in time for every later start, or changes nothing
      cases cancels : (script i).cancels with
      | true =>
          rw [if_pos rfl, any_earliest]
          constructor
          · intro _
            exact Or.inr ⟨i, Nat.lt_succ_self i, cancels⟩
          · intro _
            exact Or.inr ended
      | false =>
          rw [if_neg Bool.false_ne_true, earlier]
          constructor
          · rintro (moment | ⟨k, before, cancels'⟩)
            · exact Or.inl moment
            · exact Or.inr ⟨k, Nat.lt_succ_of_lt before, cancels'⟩
          · rintro (moment | ⟨k, before, cancels'⟩)
            · exact Or.inl moment
            · rcases Nat.lt_succ_iff_lt_or_eq.mp before with before | rfl
              · exact Or.inr ⟨k, before, cancels'⟩
              · exact absurd (cancels.symm.trans cancels') Bool.false_ne_true

/-! ## Where a run stops -/

/-- The number of calls that the budget allows. -/
def budget : Nat := e.policy.budget.toNat

theorem budget_pos : 0 < e.budget := UInt32.lt_iff_toNat_lt.mp e.policy.budget_pos

/-- Whether the token is cancelled at a moment behind the call with the given index: its own moment
    of cancellation has come, or that call or an earlier one cancelled it at its end. -/
def IsCancelledBy (script : Nat → Call α ε) (cancelAt : Option Nat) (i moment : Nat) : Prop :=
  cancelAt.any (· ≤ moment) = true ∨ ∃ k ≤ i, (script k).cancels = true

/-- Whether a run that makes a call makes the next one too. -/
structure GoesOn (cancelAt : Option Nat) (i : Nat) : Prop where
  retries : (script i).attempt.outcome? e.policy.name = none
  left : i + 1 < e.budget
  calm : ¬IsCancelledBy script cancelAt i (e.startOf script (i + 1))

/-- The account of a run that ends with a call. -/
def endedLog (i : Nat) : RunLog α ε where
  starts := (List.range (i + 1)).map (e.startOf script)
  waits := (List.range i).map (e.waitAfter script)
  result := ((script i).attempt.outcome? e.policy.name).getD
    (.error (.exhausted e.policy.name e.policy.budget))
  ended := e.finishOf script i
  engine := e.engineBefore script i

/-- The account of a run that is cancelled during the wait behind a call. -/
def cancelledLog (cancelAt : Option Nat) (i : Nat) : RunLog α ε where
  starts := (List.range (i + 1)).map (e.startOf script)
  waits := (List.range (i + 1)).map (e.waitAfter script)
  result := .error (.cancelled e.policy.name)
  ended := max (e.finishOf script i)
    ((e.cancelBefore script cancelAt (i + 1)).getD (e.finishOf script i))
  engine := e.engineBefore script (i + 1)

/-- The rest of a run from the call with the given index on. -/
def rest (cancelAt : Option Nat) (i : Nat) : RunLog α ε :=
  runFrom script (e.budget - 1 - i) i (e.startOf script i) (e.cancelBefore script cancelAt i)
    (e.engineBefore script i)

/-- The wait that is left in the budget behind a call. -/
theorem next?_eq (i : Nat) : (Backoff.next? ⟨e.policy.delays, i, e.budget - 1 - i⟩).map Prod.fst
    = if i + 1 < e.budget then some (e.policy.delays.delay i) else none := by
  by_cases left : i + 1 < e.budget
  · have remaining : e.budget - 1 - i = (e.budget - 2 - i) + 1 := by omega
    rw [remaining, if_pos left]
    rfl
  · have none : e.budget - 1 - i = 0 := by omega
    rw [none, if_neg left]
    rfl

/-- What follows a call of the course: its own outcome, the end of the budget, or its wait. -/
theorem settle_eq (i : Nat) : (e.engineBefore script i).settle
      ((Backoff.next? ⟨(e.engineBefore script i).policy.delays, i, e.budget - 1 - i⟩).map Prod.fst)
      (script i).attempt
    = match (script i).attempt.outcome? e.policy.name with
      | some result => (.done result, e.engineBefore script i)
      | none =>
        if i + 1 < e.budget then (.pause (e.waitAfter script i), e.engineBefore script (i + 1))
        else
          (.done (.error (.exhausted e.policy.name e.policy.budget)), e.engineBefore script i) := by
  have policy := e.policy_engineBefore script i
  rw [policy, next?_eq]
  cases attempt : (script i).attempt with
  | success value => rfl
  | fatal cause => simp only [settle, Attempt.outcome?, policy]
  | retry hint =>
      have asked : (script i).attempt.hint? = hint := by rw [attempt]; rfl
      by_cases left : i + 1 < e.budget
      · simp only [settle, Attempt.outcome?, if_pos left, waitAfter, engineBefore, asked]
      · simp only [settle, Attempt.outcome?, if_neg left, policy]

variable {e script} {cancelAt : Option Nat} {i : Nat}

/-- Whether the token is cancelled by the end of a wait, as the run sees it then. -/
theorem any_cancelBefore_succ (i : Nat) :
    (e.cancelBefore script cancelAt (i + 1)).any (· ≤ e.startOf script (i + 1)) = true ↔
      IsCancelledBy script cancelAt i (e.startOf script (i + 1)) := by
  rw [any_cancelBefore e script cancelAt (Nat.le_refl _), IsCancelledBy]
  simp only [Nat.lt_succ_iff]

/-- Where a run goes on, it makes its call and takes its wait, and then the rest. -/
theorem rest_of_goesOn (h : e.GoesOn script cancelAt i) :
    e.rest script cancelAt i = { e.rest script cancelAt (i + 1) with
      starts := e.startOf script i :: (e.rest script cancelAt (i + 1)).starts
      waits := e.waitAfter script i :: (e.rest script cancelAt (i + 1)).waits } := by
  have remaining : e.budget - 1 - i = (e.budget - 1 - (i + 1)) + 1 := by
    have := h.left
    omega
  have calm : ¬(e.cancelBefore script cancelAt (i + 1)).any (· ≤ e.startOf script (i + 1)) = true :=
    fun seen => h.calm ((any_cancelBefore_succ i).mp seen)
  have settled := settle_eq e script i
  rw [h.retries] at settled
  simp only [if_pos h.left] at settled
  rw [rest, runFrom, settled]
  refine (if_neg calm).trans ?_
  rw [remaining]
  rfl

/-- Where a run ends with a call, that call is all that is left of it. -/
theorem rest_of_ended
    (ended : (script i).attempt.outcome? e.policy.name = none → ¬i + 1 < e.budget) :
    e.rest script cancelAt i =
      { e.endedLog script i with starts := [e.startOf script i], waits := [] } := by
  have settled := settle_eq e script i
  rw [rest, runFrom]
  cases attempt : (script i).attempt.outcome? e.policy.name with
  | some result =>
      simp only [attempt] at settled
      rw [settled, endedLog, attempt]
      rfl
  | none =>
      simp only [attempt, if_neg (ended attempt)] at settled
      rw [settled, endedLog, attempt]
      rfl

/-- Where a run is cancelled, one call and its wait are left of it. -/
theorem rest_of_cancelled (retries : (script i).attempt.outcome? e.policy.name = none)
    (left : i + 1 < e.budget)
    (cancelled : IsCancelledBy script cancelAt i (e.startOf script (i + 1))) :
    e.rest script cancelAt i = { e.cancelledLog script cancelAt i with
      starts := [e.startOf script i], waits := [e.waitAfter script i] } := by
  have settled := settle_eq e script i
  simp only [retries, if_pos left] at settled
  rw [rest, runFrom, settled]
  refine (if_pos ((any_cancelBefore_succ i).mpr cancelled)).trans ?_
  rw [policy_engineBefore]
  rfl

/-- A run that goes on behind all calls before one is these calls with their waits, and the rest. -/
theorem run_eq_rest (goesOn : ∀ k < i, e.GoesOn script cancelAt k) :
    e.run script cancelAt = { e.rest script cancelAt i with
      starts := (List.range i).map (e.startOf script) ++ (e.rest script cancelAt i).starts
      waits := (List.range i).map (e.waitAfter script) ++ (e.rest script cancelAt i).waits } := by
  induction i with
  | zero => rfl
  | succ i ih =>
      rw [ih fun k before => goesOn k (Nat.lt_succ_of_lt before),
        rest_of_goesOn (goesOn i (Nat.lt_succ_self i)), List.range_succ]
      simp only [List.map_append, List.map_cons, List.map_nil, List.append_assoc,
        List.cons_append, List.nil_append]

/-- **A RUN IS WHERE IT STOPS**: a run that goes on as far as a call and not behind it ends with
    that call, or is cancelled during the wait behind it. -/
theorem run_eq_of_stop (goesOn : ∀ k < i, e.GoesOn script cancelAt k)
    (stops : ¬e.GoesOn script cancelAt i) :
    (((script i).attempt.outcome? e.policy.name = none → ¬i + 1 < e.budget) ∧
      e.run script cancelAt = e.endedLog script i) ∨
    ((script i).attempt.outcome? e.policy.name = none ∧ i + 1 < e.budget ∧
      IsCancelledBy script cancelAt i (e.startOf script (i + 1)) ∧
      e.run script cancelAt = e.cancelledLog script cancelAt i) := by
  by_cases ended : (script i).attempt.outcome? e.policy.name = none → ¬i + 1 < e.budget
  · refine Or.inl ⟨ended, ?_⟩
    rw [run_eq_rest goesOn, rest_of_ended ended, List.append_nil]
    simp only [endedLog, List.range_succ, List.map_append, List.map_cons, List.map_nil]
  · -- another call could have followed, so the token was cancelled during the wait
    obtain ⟨retries, left⟩ := Classical.not_imp.mp ended
    have left := not_not.mp left
    have cancelled : IsCancelledBy script cancelAt i (e.startOf script (i + 1)) := by
      by_contra calm
      exact stops ⟨retries, left, calm⟩
    refine Or.inr ⟨retries, left, cancelled, ?_⟩
    rw [run_eq_rest goesOn, rest_of_cancelled retries left cancelled]
    simp only [cancelledLog, List.range_succ, List.map_append, List.map_cons, List.map_nil]

/-- Every run stops, at the latest behind the last call of the budget. -/
theorem exists_stop (e : RetryEngine) (script : Nat → Call α ε) (cancelAt : Option Nat) :
    ∃ i < e.budget, (∀ k < i, e.GoesOn script cancelAt k) ∧ ¬e.GoesOn script cancelAt i := by
  classical
  have last : ¬e.GoesOn script cancelAt (e.budget - 1) := by
    intro goesOn
    have := goesOn.left
    omega
  have stops : ∃ i, ¬e.GoesOn script cancelAt i := ⟨_, last⟩
  refine ⟨Nat.find stops, ?_, fun k before => ?_, Nat.find_spec stops⟩
  · have := Nat.find_min' stops last
    have := e.budget_pos
    omega
  · exact not_not.mp (Nat.find_min stops before)

end RetryEngine

end Courier
