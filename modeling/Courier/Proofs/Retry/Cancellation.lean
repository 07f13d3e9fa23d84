import Courier.Proofs.Retry.Law

/-! # Cancellation — a cancelled run is cut short, and not otherwise changed

    A run is compared with the same run under a token that is never cancelled.
    The course of calls and waits is the same, so the cancelled run can only
    stop earlier on it: during the first wait by whose end the token is
    cancelled (`run_cases`).  A call that is under way is never cut off, and
    what ends a run with a call ends it whatever the token says by then. -/

namespace Courier.RetryEngine

variable {α ε : Type}

/-- The same script with calls that leave the token alone. -/
def undisturbed (script : Nat → Call α ε) (i : Nat) : Call α ε :=
  { script i with cancels := false }

variable (e : RetryEngine) (script : Nat → Call α ε)

/-- Whether calls cancel has no part in what is pending behind them. -/
theorem engineBefore_undisturbed (i : Nat) :
    e.engineBefore (undisturbed script) i = e.engineBefore script i := by
  induction i with
  | zero => rfl
  | succ i ih =>
      rw [engineBefore, ih]
      rfl

theorem waitAfter_undisturbed (i : Nat) :
    e.waitAfter (undisturbed script) i = e.waitAfter script i := by
  rw [waitAfter, engineBefore_undisturbed]
  rfl

theorem startOf_undisturbed (i : Nat) :
    e.startOf (undisturbed script) i = e.startOf script i := by
  induction i with
  | zero => rfl
  | succ i ih =>
      rw [startOf, ih, waitAfter_undisturbed]
      rfl

theorem endedLog_undisturbed (i : Nat) :
    e.endedLog (undisturbed script) i = e.endedLog script i := by
  have starts : e.startOf (undisturbed script) = e.startOf script :=
    funext (e.startOf_undisturbed script)
  have waits : e.waitAfter (undisturbed script) = e.waitAfter script :=
    funext (e.waitAfter_undisturbed script)
  simp only [endedLog, finishOf, starts, waits, engineBefore_undisturbed]
  rfl

/-- **TWO RUNS**: a run ends where the undisturbed one does, and then no wait of it saw the token
    cancelled; or it is cut short during the first wait of the undisturbed one that does. -/
theorem run_cases (cancelAt : Option Nat) : ∃ last < e.budget,
    (∀ k < last, (script k).attempt.outcome? e.policy.name = none) ∧
    e.run (undisturbed script) none = e.endedLog script last ∧
    ((e.run script cancelAt = e.endedLog script last ∧
        ∀ k < last, ¬IsCancelledBy script cancelAt k (e.startOf script (k + 1))) ∨
      ∃ i < last, e.run script cancelAt = e.cancelledLog script cancelAt i ∧
        IsCancelledBy script cancelAt i (e.startOf script (i + 1)) ∧
        ∀ k < i, ¬IsCancelledBy script cancelAt k (e.startOf script (k + 1))) := by
  have quiet : ∀ i, (undisturbed script i).cancels = false := fun _ => rfl
  obtain ⟨last, inBudget, retries, ended, free⟩ := exists_run_eq e quiet
  refine ⟨last, inBudget, retries, free.trans (e.endedLog_undisturbed script last), ?_⟩
  obtain ⟨i, below, goesOn, stops⟩ := exists_stop e script cancelAt
  have calm : ∀ k < i, ¬IsCancelledBy script cancelAt k (e.startOf script (k + 1)) :=
    fun k before => (goesOn k before).calm
  rcases run_eq_of_stop goesOn stops with ⟨final, run⟩ | ⟨retry, left, cancelled, run⟩
  · -- nothing but the script and the budget stops the run, so both stop at once
    have same : i = last := by
      rcases Nat.lt_trichotomy i last with before | same | behind
      · have spent := final (retries i before)
        omega
      · exact same
      · have spent := ended (goesOn last behind).retries
        omega
    subst same
    exact Or.inl ⟨run, calm⟩
  · have before : i < last := by
      rcases Nat.lt_trichotomy i last with before | same | behind
      · exact before
      · subst same
        exact absurd left (ended retry)
      · have spent := ended (goesOn last behind).retries
        omega
    exact Or.inr ⟨i, before, run, cancelled, calm⟩

theorem prefix_map_range {β : Type} (f : Nat → β) {m n : Nat} (h : m ≤ n) :
    (List.range m).map f <+: (List.range n).map f := by
  refine List.IsPrefix.map f ?_
  rw [← Nat.min_eq_left h, ← List.take_range]
  exact List.take_prefix m _

variable {e script} {cancelAt : Option Nat}

/-- A run that ends with a call does not say that it was cancelled. -/
theorem endedLog_ne_cancelled (i : Nat) :
    (e.endedLog script i).result ≠ .error (.cancelled e.policy.name) := by
  intro same
  rw [endedLog] at same
  cases attempt : (script i).attempt with
  | success value => simp [attempt, Attempt.outcome?] at same
  | fatal cause => simp [attempt, Attempt.outcome?] at same
  | retry hint => simp [attempt, Attempt.outcome?] at same

/-- A run makes its first call at once, even if the token is cancelled before. -/
theorem head?_starts (e : RetryEngine) (script : Nat → Call α ε) (cancelAt : Option Nat) :
    (e.run script cancelAt).starts.head? = some 0 := by
  obtain ⟨last, -, -, -, ⟨same, -⟩ | ⟨i, -, short, -, -⟩⟩ := e.run_cases script cancelAt
  · rw [same, endedLog, List.range_succ_eq_map]
    rfl
  · rw [short, cancelledLog, List.range_succ_eq_map]
    rfl

/-- The calls and the waits of a run are the first ones of the undisturbed run. -/
theorem run_begins_alike (e : RetryEngine) (script : Nat → Call α ε) (cancelAt : Option Nat) :
    (e.run script cancelAt).starts <+: (e.run (undisturbed script) none).starts ∧
      (e.run script cancelAt).waits <+: (e.run (undisturbed script) none).waits ∧
      (e.run script cancelAt).starts.length ≤ (e.run script cancelAt).waits.length + 1 := by
  obtain ⟨last, -, -, whole, ⟨same, -⟩ | ⟨i, before, short, -, -⟩⟩ := e.run_cases script cancelAt
  · rw [same, whole]
    refine ⟨List.prefix_refl _, List.prefix_refl _, ?_⟩
    simp only [endedLog, List.length_map, List.length_range]
    exact Nat.le_refl _
  · rw [short, whole]
    refine ⟨prefix_map_range _ (by omega), prefix_map_range _ before, ?_⟩
    simp only [cancelledLog, List.length_map, List.length_range]
    exact Nat.le_succ _

/-- No call but the first starts once the token is cancelled. -/
theorem not_isCancelledBy_of_start {i start : Nat}
    (starts : (e.run script cancelAt).starts[i + 1]? = some start) :
    ¬IsCancelledBy script cancelAt i start := by
  obtain ⟨last, -, -, -, ⟨same, calm⟩ | ⟨stop, -, short, -, calm⟩⟩ := e.run_cases script cancelAt
  · rw [same, endedLog, getElem?_map_range_eq_some] at starts
    obtain ⟨below, rfl⟩ := starts
    exact calm i (Nat.lt_of_succ_lt_succ below)
  · rw [short, cancelledLog, getElem?_map_range_eq_some] at starts
    obtain ⟨below, rfl⟩ := starts
    exact calm i (Nat.lt_of_succ_lt_succ below)

/-- A run says that it was cancelled just if the token was cancelled by the end of a wait. -/
theorem result_eq_cancelled_iff :
    (e.run script cancelAt).result = .error (.cancelled e.policy.name) ↔
      ∃ i hint start wait, i + 1 < e.budget ∧ (script i).attempt = .retry hint ∧
        (e.run script cancelAt).starts[i]? = some start ∧
        (e.run (undisturbed script) none).waits[i]? = some wait ∧
        IsCancelledBy script cancelAt i (start + (script i).takes + wait.timerMillis) := by
  obtain ⟨last, inBudget, retries, whole, ⟨same, calm⟩ | ⟨stop, before, short, cancelled, calm⟩⟩ :=
    e.run_cases script cancelAt
  -- the run ends by itself, so nobody has cancelled it where the claim could say so
  · rw [same, whole]
    constructor
    · intro claimed
      exact absurd claimed (endedLog_ne_cancelled last)
    · rintro ⟨i, hint, start, wait, -, -, starts, waits, seen⟩
      rw [endedLog, getElem?_map_range_eq_some] at starts waits
      obtain ⟨-, rfl⟩ := starts
      obtain ⟨below, rfl⟩ := waits
      exact absurd seen (calm i below)
  -- the run is cut short, and the wait it is cut short behind bears that out
  · rw [short, whole]
    constructor
    · intro _
      refine ⟨stop, _, e.startOf script stop, e.waitAfter script stop, by omega,
        Attempt.eq_retry (retries stop before), ?_, ?_, cancelled⟩
      · rw [cancelledLog, getElem?_map_range_eq_some]
        exact ⟨Nat.lt_succ_self stop, rfl⟩
      · rw [endedLog, getElem?_map_range_eq_some]
        exact ⟨before, rfl⟩
    · intro _
      rfl

/-- The last call of a run that has no attempt left, or asks for none, decides its result. -/
theorem result_of_last {i : Nat} (calls : (e.run script cancelAt).starts.length = i + 1)
    (ends : (script i).attempt.outcome? e.policy.name = none → i + 1 = e.budget) :
    (e.run script cancelAt).result = ((script i).attempt.outcome? e.policy.name).getD
      (.error (.exhausted e.policy.name e.policy.budget)) := by
  obtain ⟨last, inBudget, retries, -, ⟨same, -⟩ | ⟨stop, before, short, -, -⟩⟩ :=
    e.run_cases script cancelAt
  · rw [same, endedLog, List.length_map, List.length_range] at calls
    obtain rfl := Nat.succ.inj calls
    rw [same]
    rfl
  · rw [short, cancelledLog, List.length_map, List.length_range] at calls
    obtain rfl := Nat.succ.inj calls
    have spent := ends (retries stop before)
    omega

/-- A run that does not say that it was cancelled is the undisturbed one. -/
theorem run_eq_undisturbed
    (other : (e.run script cancelAt).result ≠ .error (.cancelled e.policy.name)) :
    e.run script cancelAt = e.run (undisturbed script) none := by
  obtain ⟨last, -, -, whole, ⟨same, -⟩ | ⟨stop, -, short, -, -⟩⟩ := e.run_cases script cancelAt
  · rw [same, whole]
  · rw [short] at other
    exact absurd rfl other

/-- **CANCELLATION IS SAFE**: whatever moment the token is cancelled at, and whichever calls cancel
    it at their end, a run makes its first call at once, and its calls are the first ones of the
    undisturbed run, with the same waits in between.  No call but the first starts when the token is
    cancelled by then.  The run says that it was cancelled just if the token was cancelled by the
    end of a wait, one behind a passing failure with an attempt left.  The outcome of the last call
    counts whatever the token says: a success, a failure, and the end of the budget are returned as
    such.  And a run that does not say that it was cancelled is the undisturbed one. -/
theorem cancellation_is_safe (e : RetryEngine) (script : Nat → Call α ε) (cancelAt : Option Nat) :
    let free := e.run (undisturbed script) none
    let log := e.run script cancelAt
    (log.starts.head? = some 0 ∧ log.starts <+: free.starts ∧ log.waits <+: free.waits ∧
        log.starts.length ≤ log.waits.length + 1) ∧
      (∀ i start, log.starts[i + 1]? = some start → ¬IsCancelledBy script cancelAt i start) ∧
      (log.result = .error (.cancelled e.policy.name) ↔
        ∃ i hint start wait, i + 1 < e.budget ∧ (script i).attempt = .retry hint ∧
          log.starts[i]? = some start ∧ free.waits[i]? = some wait ∧
          IsCancelledBy script cancelAt i (start + (script i).takes + wait.timerMillis)) ∧
      (∀ i, log.starts.length = i + 1 →
        (∀ value, (script i).attempt = .success value → log.result = .ok value) ∧
        (∀ cause, (script i).attempt = .fatal cause →
          log.result = .error (.fatal e.policy.name cause)) ∧
        (∀ hint, (script i).attempt = .retry hint → i + 1 = e.budget →
          log.result = .error (.exhausted e.policy.name e.policy.budget))) ∧
      (log.result ≠ .error (.cancelled e.policy.name) → log = free) := by
  intro free log
  refine ⟨⟨head?_starts e script cancelAt, run_begins_alike e script cancelAt⟩,
    fun i start => not_isCancelledBy_of_start, result_eq_cancelled_iff,
    fun i calls => ⟨fun value success => ?_, fun cause fatal => ?_, fun hint retry spent => ?_⟩,
    run_eq_undisturbed⟩
  · have result := result_of_last calls fun none => by rw [success] at none; exact nomatch none
    rw [success] at result
    exact result
  · have result := result_of_last calls fun none => by rw [fatal] at none; exact nomatch none
    rw [fatal] at result
    exact result
  · have result := result_of_last calls fun _ => spent
    rw [retry] at result
    exact result

/-- A token that is cancelled during the first wait cuts the run short there. -/
example :
    let e : RetryEngine := ⟨.make "calm" 3 (.fixed (.ofSeconds 60)), none⟩
    let log := e.run (fun _ => ({ attempt := .retry none } : Call Unit Unit)) (some 1000)
    (log.starts, log.waits, log.ended) = ([0], [.ofSeconds 60], 1000) := by
  decide +kernel

end Courier.RetryEngine
