import Courier.Proofs.Shared.Fleet
import Mathlib.Data.List.Induction

/-! # Locks — one call of a replica at a time

    A call takes the lock of its replica before anything else, and only if
    nobody holds it; it gives the lock back when it ends.  So at most one call
    of a replica is under way, and as long as it is, no other call of that
    replica is told anything. -/

namespace Courier

namespace Caller

variable {location : Location} {settings : RefreshSettings} {free : Bool} {store : Store}
variable {c : Caller}

/-- A caller that needs an operation holds its lock. -/
theorem holdsLock_of_operation? {op : Operation} (needs : c.operation? location = some op) :
    c.holdsLock = true := by
  rcases operation?_eq_some needs with
    ⟨-, looking | ⟨round, fresh, rereading⟩⟩ | ⟨round, fresh, edited, -, writing⟩
  · rw [holdsLock, looking]
  · rw [holdsLock, rereading]
  · rw [holdsLock, writing]

/-- A call that holds the lock behind a move held it before, or found it free. -/
theorem holdsLock_of_move {m : Move}
    (holds : (c.move location settings free store m).1.holdsLock = true) :
    c.holdsLock = true ∨ free = true := by
  have moved := moved_move location settings free store c m
  generalize c.move location settings free store m = next at moved holds
  cases moved with
  | idle | opened => exact Or.inl holds
  | begun waits unlocked => exact Or.inr unlocked
  | answered needs | finished needs | failed needs =>
      exact Or.inl (holdsLock_of_operation? needs)
  | heard stands => exact Or.inl (by rw [holdsLock, stands])

/-- A call without the lock is told nothing. -/
theorem past_move_of_not_holdsLock (holds : c.holdsLock = false) (m : Move) :
    (c.move location settings free store m).1.past = c.past := by
  have moved := moved_move location settings free store c m
  generalize c.move location settings free store m = next at moved ⊢
  cases moved with
  | idle | begun | opened => rfl
  | answered needs | finished needs | failed needs =>
      rw [holdsLock_of_operation? needs] at holds
      exact nomatch holds
  | heard stands =>
      rw [holdsLock, stands] at holds
      exact nomatch holds

end Caller

namespace Fleet

/-- Whether no two calls hold the lock of one replica. -/
def Exclusive (f : Fleet) : Prop :=
  ∀ (i j : Nat) (c d : Caller), i ≠ j → f.callers[i]? = some c → f.callers[j]? = some d →
    c.replica = d.replica → c.holdsLock = true → d.holdsLock = false

/-- Where a lock is free, no caller of that replica holds it. -/
theorem holdsLock_of_isFree {f : Fleet} {j : Nat} {d : Caller} (there : f.callers[j]? = some d)
    (free : f.isFree d.replica = true) : d.holdsLock = false := by
  have unlocked := List.all_eq_true.mp free d (List.mem_of_getElem? there)
  simpa using unlocked

/-- **ONE ACT**: whoever takes a lock finds it free. -/
theorem exclusive_step {f : Fleet} (h : f.Exclusive) (act : Act) : (f.step act).Exclusive := by
  cases act with
  | foreign op => exact h
  | move k m =>
      rcases step_move_cases f k m with idle | ⟨e, there, -⟩
      · rw [idle]
        exact h
      have moved := callers_step_self there m
      -- the call that moves holds the lock by then only if no other call does
      have apart : ∀ (j : Nat) (d e' : Caller), k ≠ j → f.callers[j]? = some d →
          (f.step (.move k m)).callers[k]? = some e' → e'.replica = d.replica →
          e'.holdsLock = true → d.holdsLock = false := by
        intro j d e' ne present moved' same holds
        obtain rfl := Option.some.inj (moved.symm.trans moved')
        rw [Caller.replica_move] at same
        rcases Caller.holdsLock_of_move holds with held | free
        · exact h k j e d ne there present same held
        · rw [same] at free
          exact holdsLock_of_isFree present free
      intro i j c d ne present present' same holds
      by_cases hi : k = i
      · subst hi
        rw [callers_step_of_ne f fun m' eq => ne (Act.move.inj eq).1] at present'
        exact apart j d c ne present' present same holds
      · rw [callers_step_of_ne f fun m' eq => hi (Act.move.inj eq).1] at present
        by_cases hj : k = j
        · subst hj
          cases holds' : d.holdsLock with
          | false => rfl
          | true => exact holds.symm.trans (apart i c d hi present present' same.symm holds')
        · rw [callers_step_of_ne f fun m' eq => hj (Act.move.inj eq).1] at present'
          exact h i j c d ne present present' same holds

/-- **MUTUAL EXCLUSION**: no schedule gives the lock of a replica to two of its calls. -/
theorem exclusive_run {f : Fleet} (fresh : f.IsFresh) (schedule : List Act) :
    (f.run schedule).Exclusive := by
  induction schedule using List.reverseRecOn with
  | nil =>
      intro i j c d ne present present' same holds
      rw [fresh c (List.mem_of_getElem? present)] at holds
      exact nomatch holds
  | append_singleton schedule act ih =>
      rw [run_concat]
      exact exclusive_step ih act

end Fleet

end Courier
