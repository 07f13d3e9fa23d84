import Courier.Proofs.Retry.Course

/-! # The law of a run — how many calls are made, and how long the waits are

    With a token that is never cancelled, the first outcome that is no passing
    failure ends the run if the budget reaches it, and the budget ends the run
    otherwise.  With no override pending, the wait behind a call is its hint or
    else the policy's own wait with the index of that call: a hint takes the
    place of one wait and leaves the later ones where they are. -/

namespace Courier.RetryEngine

variable {α ε : Type} {e : RetryEngine} {script : Nat → Call α ε}

/-- Without an override, a wait is its hint or that of the policy, and nothing changes. -/
theorem chooseWait_of_plain (plain : e.override = none) (hint : Option Span) (computed : Span) :
    e.chooseWait hint computed = (hint.getD computed, e) := by
  obtain ⟨policy, override⟩ := e
  subst plain
  cases hint <;> rfl

/-- Without an override, waiting never changes the engine. -/
theorem engineBefore_of_plain (plain : e.override = none) (i : Nat) :
    e.engineBefore script i = e := by
  induction i with
  | zero => rfl
  | succ i ih => rw [engineBefore, ih, chooseWait_of_plain plain]

/-- Without an override, a wait is the hint of the call before it, or the policy's own. -/
theorem waitAfter_of_plain (plain : e.override = none) (i : Nat) :
    e.waitAfter script i = (script i).attempt.hint?.getD (e.policy.delays.delay i) := by
  rw [waitAfter, engineBefore_of_plain plain, chooseWait_of_plain plain]

/-- A token that nobody cancels is not cancelled by any moment. -/
theorem not_isCancelledBy (calm : ∀ i, (script i).cancels = false) (i moment : Nat) :
    ¬IsCancelledBy script none i moment := by
  rintro (moment | ⟨k, -, cancels⟩)
  · exact nomatch moment
  · exact absurd ((calm k).symm.trans cancels) Bool.false_ne_true

/-- A run with a token that nobody cancels ends with the first outcome that is no passing failure,
    or with the last call of the budget. -/
theorem exists_run_eq (e : RetryEngine) (calm : ∀ i, (script i).cancels = false) :
    ∃ i < e.budget, (∀ k < i, (script k).attempt.outcome? e.policy.name = none) ∧
      ((script i).attempt.outcome? e.policy.name = none → ¬i + 1 < e.budget) ∧
      e.run script none = e.endedLog script i := by
  obtain ⟨i, inBudget, goesOn, stops⟩ := exists_stop e script none
  rcases run_eq_of_stop goesOn stops with ⟨ended, run⟩ | ⟨-, -, cancelled, -⟩
  · exact ⟨i, inBudget, fun k before => (goesOn k before).retries, ended, run⟩
  · exact absurd cancelled (not_isCancelledBy calm i _)

/-- **THE LAW OF A RUN**: let no override be pending and the token never be cancelled.  If the
    first outcome that is no passing failure has an index below the budget, the run makes the
    calls up to that index and returns that outcome; if there is none, it makes as many calls as
    the budget has, and says that the budget is exhausted.  There is one wait between any two calls
    and none behind the last: the hint of the call before it, of whatever length, or else the
    policy's wait with the index of that call.  Each call starts when the wait before it ends, the
    run ends with its last call, and leaves the engine as it was. -/
theorem run_law (plain : e.override = none) (calm : ∀ i, (script i).cancels = false) :
    let log := e.run script none
    (∀ j result, j < e.budget → (∀ i < j, ∃ hint, (script i).attempt = .retry hint) →
        (script j).attempt.outcome? e.policy.name = some result →
        log.starts.length = j + 1 ∧ log.result = result) ∧
      ((∀ i < e.budget, ∃ hint, (script i).attempt = .retry hint) →
        log.starts.length = e.budget ∧
        log.result = .error (.exhausted e.policy.name e.policy.budget)) ∧
      log.waits = (List.range (log.starts.length - 1)).map (fun i =>
        (script i).attempt.hint?.getD (e.policy.delays.delay i)) ∧
      log.starts.head? = some 0 ∧
      (∀ i start wait, log.starts[i]? = some start → log.waits[i]? = some wait →
        log.starts[i + 1]? = some (start + (script i).takes + wait.timerMillis)) ∧
      log.starts.getLast?.map (· + (script (log.starts.length - 1)).takes) = some log.ended ∧
      log.engine = e := by
  intro log
  obtain ⟨last, inBudget, retries, ended, run⟩ := exists_run_eq e calm
  have starts : log.starts = (List.range (last + 1)).map (e.startOf script) :=
    congrArg RunLog.starts run
  have waits : log.waits = (List.range last).map (e.waitAfter script) := congrArg RunLog.waits run
  have result : log.result = ((script last).attempt.outcome? e.policy.name).getD _ :=
    congrArg RunLog.result run
  have length : log.starts.length = last + 1 := by rw [starts, List.length_map, List.length_range]
  refine ⟨?_, ?_, ?_, ?_, ?_, ?_, ?_⟩
  · intro j outcome below earlier ends
    -- both `j` and `last` are the first index whose outcome is no passing failure
    have same : last = j := by
      rcases Nat.lt_trichotomy last j with before | same | behind
      · obtain ⟨hint, retry⟩ := earlier last before
        have spent := ended (Attempt.outcome?_of_retry retry)
        omega
      · exact same
      · exact nomatch (retries j behind).symm.trans ends
    subst same
    exact ⟨length, by rw [result, ends]; rfl⟩
  · intro all
    obtain ⟨hint, retry⟩ := all last inBudget
    have spent := ended (Attempt.outcome?_of_retry retry)
    rw [result, Attempt.outcome?_of_retry retry]
    exact ⟨length.trans (by omega), rfl⟩
  · rw [length, waits]
    exact List.map_congr_left fun i _ => waitAfter_of_plain plain i
  · rw [starts, List.range_succ_eq_map]
    rfl
  · intro i start wait started waited
    rw [starts, getElem?_map_range_eq_some] at started ⊢
    rw [waits, getElem?_map_range_eq_some] at waited
    obtain ⟨-, rfl⟩ := started
    obtain ⟨below, rfl⟩ := waited
    exact ⟨Nat.succ_lt_succ below, rfl⟩
  · have final : log.starts.getLast? = some (e.startOf script last) := by
      rw [List.getLast?_eq_getElem?, length, starts, getElem?_map_range_eq_some]
      exact ⟨Nat.lt_succ_self last, rfl⟩
    rw [final, length, show log.ended = _ from congrArg RunLog.ended run]
    rfl
  · rw [show log.engine = _ from congrArg RunLog.engine run]
    exact engineBefore_of_plain plain last

/-- An operation that fails twice in passing, the second time with a hint, and then succeeds. -/
def flaky : Nat → Call Nat String
  | 0 => { attempt := .retry none }
  | 1 => { attempt := .retry (some .zero), takes := 5 }
  | n => { attempt := .success n }

/-- Two passing failures, one with a hint of no time at all, and then a success. -/
theorem run_law_flaky :
    let e : RetryEngine := ⟨.make "flaky" 5 (.increment (.ofSeconds 1) (.ofSeconds 1)), none⟩
    e.override = none ∧ (∀ i, (flaky i).cancels = false) ∧
      (e.run flaky none).starts.length = 3 ∧ (e.run flaky none).result = .ok 2 ∧
      (e.run flaky none).waits = [.ofSeconds 1, .zero] := by
  intro e
  have calm : ∀ i, (flaky i).cancels = false
    | 0 => rfl
    | 1 => rfl
    | _ + 2 => rfl
  obtain ⟨ends, -, waits, -⟩ := run_law (e := e) rfl calm
  have retries : ∀ i < 2, ∃ hint, (flaky i).attempt = .retry hint := by
    intro i below
    match i, below with
    | 0, _ => exact ⟨none, rfl⟩
    | 1, _ => exact ⟨some .zero, rfl⟩
  obtain ⟨calls, result⟩ := ends 2 (.ok 2) (by decide) retries rfl
  refine ⟨rfl, calm, calls, result, waits.trans ?_⟩
  rw [calls]
  decide

end Courier.RetryEngine
