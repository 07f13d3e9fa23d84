import Courier.Proofs.Span
import Courier.Retry.Policy

/-! # Backoffs — exact increments, and one wait fewer than the budget

    The wait of an increment is exact in whole nanoseconds up to the longest
    span.  Cutting the multiple before the sum costs nothing, since a multiple
    that is cut puts the sum past the end as well.  A backoff counts its index
    up and what is left down, so the two always add up to the waits of its
    policy (`asked_eq`), whose budget is the one that was asked for last. -/

namespace Courier

namespace DelayPolicy

/-- The steps that an increment counts, as a word. -/
theorem toNat_steps (n : Nat) : (UInt32.ofNat (min n stepLimit)).toNat = min n stepLimit :=
  UInt32.toNat_ofNat_of_lt' (Nat.lt_of_le_of_lt (Nat.min_le_right _ _) (by decide))

/-- **EXACT INCREMENTS**: base and steps add up in whole nanoseconds, up to the longest span. -/
theorem toNanos_increment (base step : Span) (n : Nat) :
    ((increment base step).delay n).toNanos
      = min (base.toNanos + step.toNanos * min n stepLimit) Span.longest.toNanos := by
  have cut := Span.toNanos_addCapped base (step.scaleCapped (.ofNat (min n stepLimit)))
  rw [Span.toNanos_scaleCapped, toNat_steps] at cut
  rw [delay, cut]
  omega

/-- Incremental waits never get shorter. -/
theorem increment_mono (base step : Span) {m n : Nat} (le : m ≤ n) :
    (increment base step).delay m ≤ (increment base step).delay n := by
  have steps : step.toNanos * min m stepLimit ≤ step.toNanos * min n stepLimit :=
    Nat.mul_le_mul_left _ (by omega)
  rw [Span.le_def, toNanos_increment, toNanos_increment]
  omega

/-- The wait of an increment, computed in words; nothing where a number on the way does not fit its
    word. -/
def incrementInWords? (base step : Span) (n : Nat) : Option Span :=
  (step.scaleInWords? (.ofNat (min n stepLimit))).bind fun multiple =>
    (base.addInWords? (multiple.getD .longest)).map fun sum => sum.getD .longest

/-- Counting in words, with a limit at each step, comes to the exact wait. -/
theorem incrementInWords?_eq (base step : Span) (n : Nat) :
    incrementInWords? base step n = some ((increment base step).delay n) := by
  rw [incrementInWords?, Span.scaleInWords?_eq, Option.bind_some, Span.addInWords?_eq]
  rfl

end DelayPolicy

theorem toNat_atLeastOneAttempt (n : UInt32) : (atLeastOneAttempt n).toNat = max 1 n.toNat := by
  unfold atLeastOneAttempt
  split
  · next zero =>
      rw [zero]
      rfl
  · next nonzero =>
      have pos : 0 < n.toNat := UInt32.lt_iff_toNat_lt.mp (UInt32.pos_iff_ne_zero.mpr nonzero)
      omega

namespace RetryPolicy

/-- How a policy is built: from nothing or from all its parts, and then with one part after the
    other replaced. -/
inductive Recipe where
  | standard
  | make (name : String) (budget : UInt32) (delays : DelayPolicy)
  | withName (recipe : Recipe) (name : String)
  | withBudget (recipe : Recipe) (budget : UInt32)
  | withDelays (recipe : Recipe) (delays : DelayPolicy)

namespace Recipe

/-- The policy that is built. -/
def policy : Recipe → RetryPolicy
  | standard => RetryPolicy.standard
  | make name budget delays => RetryPolicy.make name budget delays
  | withName recipe name => recipe.policy.withName name
  | withBudget recipe budget => recipe.policy.withBudget budget
  | withDelays recipe delays => recipe.policy.withDelays delays

/-- The budget that was asked for last; that of the standard policy where none was. -/
def requested : Recipe → UInt32
  | standard => RetryPolicy.standard.budget
  | make _ budget _ => budget
  | withName recipe _ => recipe.requested
  | withBudget _ budget => budget
  | withDelays recipe _ => recipe.requested

/-- A policy has the budget that was asked for last, and at least one attempt. -/
theorem toNat_budget (recipe : Recipe) :
    recipe.policy.budget.toNat = max 1 recipe.requested.toNat := by
  induction recipe with
  | standard => rfl
  | make name budget delays => exact toNat_atLeastOneAttempt budget
  | withName recipe name ih => exact ih
  | withBudget recipe budget ih => exact toNat_atLeastOneAttempt budget
  | withDelays recipe delays ih => exact ih

end Recipe

end RetryPolicy

namespace Backoff

/-- What is left after a number of waits were asked for; to ask where none is left changes
    nothing. -/
def asked (b : Backoff) : Nat → Backoff
  | 0 => b
  | i + 1 => ((b.asked i).next?.map Prod.snd).getD (b.asked i)

/-- The answer to the request with index `i`. -/
def answer? (b : Backoff) (i : Nat) : Option Span := (b.asked i).next?.map Prod.fst

/-- With attempts left there is a next wait, that of the policy. -/
theorem next?_of_pos {b : Backoff} (pos : 0 < b.remaining) :
    b.next? = some (b.delays.delay b.index,
      { b with index := b.index + 1, remaining := b.remaining - 1 }) := by
  obtain ⟨delays, index, remaining⟩ := b
  cases remaining with
  | zero => exact absurd pos (Nat.lt_irrefl 0)
  | succ n => rfl

theorem next?_of_zero {b : Backoff} (zero : b.remaining = 0) : b.next? = none := by
  rw [next?, zero]

/-- **BOTH COUNTERS STAY IN STEP**: as many waits as the index has gone up are no longer left. -/
theorem asked_eq (b : Backoff) (i : Nat) :
    b.asked i = ⟨b.delays, b.index + min i b.remaining, b.remaining - i⟩ := by
  induction i with
  | zero => rw [asked, Nat.zero_min, Nat.add_zero, Nat.sub_zero]
  | succ i ih =>
      rw [asked, ih]
      by_cases left : 0 < b.remaining - i
      · have index : b.index + min i b.remaining + 1 = b.index + min (i + 1) b.remaining := by omega
        rw [next?_of_pos left, Option.map_some, Option.getD_some, index, Nat.sub_sub]
      · have index : min i b.remaining = min (i + 1) b.remaining := by omega
        have remaining : b.remaining - i = b.remaining - (i + 1) := by omega
        rw [next?_of_zero (Nat.eq_zero_of_not_pos left), Option.map_none, Option.getD_none, index,
          remaining]

/-- The answers of a backoff are the waits of its policy, as many as there are attempts left. -/
theorem answer?_eq (b : Backoff) (i : Nat) :
    b.answer? i = if i < b.remaining then some (b.delays.delay (b.index + i)) else none := by
  rw [answer?, asked_eq]
  split
  · next left =>
      rw [next?_of_pos (Nat.sub_pos_of_lt left), Nat.min_eq_left (Nat.le_of_lt left)]
      rfl
  · next used =>
      rw [next?_of_zero (Nat.sub_eq_zero_of_le (Nat.le_of_not_lt used))]
      rfl

end Backoff

/-- **EXACT BACKOFFS**: the wait of an increment has base and steps in whole nanoseconds, up to the
    longest span, without a number on the way that does not fit its word, and never decreases.  The
    backoff of a policy, however built, answers as many requests as the budget that was asked for
    last has attempts, less one, or none if that is zero: each with the policy's wait of that index,
    and none ever after.  Its counters stay in step all along. -/
theorem backoff_is_exact :
    (∀ base step n,
        let wait := (DelayPolicy.increment base step).delay n
        wait.toNanos = min (base.toNanos + step.toNanos * min n (UInt32.size - 1)) Span.longest.toNanos ∧
          DelayPolicy.incrementInWords? base step n = some wait) ∧
      (∀ base step m n, m ≤ n →
        (DelayPolicy.increment base step).delay m ≤ (DelayPolicy.increment base step).delay n) ∧
      ∀ recipe : RetryPolicy.Recipe,
        let waits := max 1 recipe.requested.toNat - 1
        let backoff := recipe.policy.backoff
        waits ≤ UInt32.size - 2 ∧
          (∀ i, backoff.answer? i =
            if i < waits then some (recipe.policy.delays.delay i) else none) ∧
          ∀ i, (backoff.asked i).index = min i waits ∧ (backoff.asked i).remaining = waits - i := by
  refine ⟨fun base step n => ⟨?_, ?_⟩,
    fun base step m n => DelayPolicy.increment_mono base step, ?_⟩
  · exact DelayPolicy.toNanos_increment base step n
  · exact DelayPolicy.incrementInWords?_eq base step n
  · intro recipe waits backoff
    have remaining : backoff.remaining = waits := congrArg (· - 1) recipe.toNat_budget
    refine ⟨?_, fun i => ?_, fun i => ?_⟩
    · have word : recipe.requested.toNat < UInt32.size := recipe.requested.toNat_lt
      have two : 2 ≤ UInt32.size := by decide
      omega
    · rw [Backoff.answer?_eq, remaining, show backoff.index = 0 from rfl, Nat.zero_add]
      rfl
    · rw [Backoff.asked_eq, remaining, show backoff.index = 0 from rfl, Nat.zero_add]
      exact ⟨rfl, rfl⟩

end Courier
