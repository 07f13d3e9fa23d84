import Courier.Retry.Delay

/-! # Retry policies — a name, a budget of attempts and a delay policy

    The budget counts calls of the operation, so a policy with a budget of
    three waits at most twice.  The budget is at least one by type. -/

namespace Courier

/-- A named retry policy with a positive budget of attempts. -/
structure RetryPolicy where
  name : String
  budget : UInt32
  delays : DelayPolicy
  budget_pos : 0 < budget
  deriving DecidableEq

/-- The larger of a requested budget and one. -/
def atLeastOneAttempt (n : UInt32) : UInt32 := if n = 0 then 1 else n

theorem atLeastOneAttempt_pos (n : UInt32) : 0 < atLeastOneAttempt n := by
  unfold atLeastOneAttempt
  split
  · decide
  · exact UInt32.pos_iff_ne_zero.mpr ‹_›

namespace RetryPolicy

/-- The policy used where none is given. -/
def standard : RetryPolicy := ⟨"retryable function", 3, .standard, by decide⟩

instance : Inhabited RetryPolicy := ⟨standard⟩

/-- The same policy under another name. -/
def withName (p : RetryPolicy) (name : String) : RetryPolicy := { p with name }

/-- The same policy with another budget; zero counts as one. -/
def withBudget (p : RetryPolicy) (n : UInt32) : RetryPolicy :=
  { p with budget := atLeastOneAttempt n, budget_pos := atLeastOneAttempt_pos n }

/-- The same policy with other delays. -/
def withDelays (p : RetryPolicy) (delays : DelayPolicy) : RetryPolicy := { p with delays }

/-- The policy with a name, a budget and delays. -/
def make (name : String) (budget : UInt32) (delays : DelayPolicy) : RetryPolicy :=
  ((standard.withName name).withBudget budget).withDelays delays

end RetryPolicy

/-- The waits still ahead in one run. -/
structure Backoff where
  delays : DelayPolicy
  index : Nat
  remaining : Nat

namespace Backoff

/-- The next wait and the waits after it; none once the budget is used up. -/
def next? (b : Backoff) : Option (Span × Backoff) :=
  match b.remaining with
  | 0 => none
  | n + 1 => some (b.delays.delay b.index, { b with index := b.index + 1, remaining := n })

/-- The first `count` waits, fewer where the budget ends earlier, and what is left after them. -/
def take : Nat → Backoff → List Span × Backoff
  | 0, b => ([], b)
  | count + 1, b =>
    match b.next? with
    | none => ([], b)
    | some (wait, rest) => ((wait :: (take count rest).1), (take count rest).2)

end Backoff

/-- One wait fewer than the budget, in order. -/
def RetryPolicy.backoff (p : RetryPolicy) : Backoff := ⟨p.delays, 0, p.budget.toNat - 1⟩

end Courier
