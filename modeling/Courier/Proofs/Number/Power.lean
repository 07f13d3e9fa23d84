import Courier.Proofs.Number.Rounding
import Mathlib.Data.Nat.EvenOddRec
import Mathlib.Order.Monotone.Basic

/-! # Powers — repeated squaring with rounding never decreases in the exponent

    Different exponents multiply different squares in a different order, and
    every product is rounded, so the order of the powers is not that of the
    real ones.  It comes from the digits of the exponent.  One more turns a
    run of ones at the bottom into a single one behind it: where the smaller
    exponent has multiplied the squares up to some place, the larger one has
    only the square of that place, which is no smaller
    (`powFrom_le_powFrom_succ`).  From there both take the same factors, and
    rounded products keep the order. -/

namespace Courier.Magnitude

/-! ## Products -/

/-- The product of finite magnitudes is the rounded product of their units. -/
theorem mul_finite (units times : Nat) :
    (finite units).mul (finite times) = round (units * times) unitsPerOne := by rw [mul]

theorem mul_mono {a a' b b' : Magnitude} (left : a ≤ a') (right : b ≤ b') :
    a.mul b ≤ a'.mul b' := by
  obtain rfl | ⟨units, units', fewer, rfl, rfl⟩ := le_cases left
  · exact le_infinite _
  obtain rfl | ⟨times, times', less, rfl, rfl⟩ := le_cases right
  · exact le_infinite _
  rw [mul_finite, mul_finite]
  exact round_mono unitsPerOne_pos (Nat.mul_le_mul fewer less)

theorem isDouble_mul (a b : Magnitude) : IsDouble (a.mul b) := by
  cases a with
  | infinite => exact .infinite
  | finite units =>
      cases b with
      | infinite => exact .infinite
      | finite times =>
          rw [mul_finite]
          exact isDouble_round unitsPerOne_pos

theorem one_mul {a : Magnitude} (double : IsDouble a) : one.mul a = a := by
  cases a with
  | infinite => rfl
  | finite units =>
      rw [one, mul_finite, Nat.mul_comm]
      exact round_of_isDouble unitsPerOne_pos double

/-! ## Digits of the exponent -/

theorem powFrom_zero (result square : Magnitude) : powFrom result square 0 = result := by
  rw [powFrom]
  rfl

/-- A digit zero squares. -/
theorem powFrom_even (result square : Magnitude) (n : Nat) :
    powFrom result square (2 * n) = powFrom result (square.mul square) n := by
  cases n with
  | zero => rw [Nat.mul_zero, powFrom_zero, powFrom_zero]
  | succ n =>
      have digit : ¬2 * (n + 1) % 2 = 1 := by omega
      have more : ¬2 * (n + 1) < 2 := by omega
      have half : 2 * (n + 1) / 2 = n + 1 := by omega
      rw [powFrom]
      simp only [if_neg digit, if_neg more, half]

/-- A digit one multiplies and squares. -/
theorem powFrom_odd (result square : Magnitude) (n : Nat) :
    powFrom result square (2 * n + 1) = powFrom (result.mul square) (square.mul square) n := by
  have digit : (2 * n + 1) % 2 = 1 := by omega
  have half : (2 * n + 1) / 2 = n := by omega
  rw [powFrom]
  simp only [if_pos digit, half]
  cases n with
  | zero => exact (powFrom_zero _ _).symm
  | succ n => exact if_neg (by omega)

/-- The same factors keep the order of what they are multiplied with. -/
theorem powFrom_mono (n : Nat) {result result' : Magnitude} (square : Magnitude)
    (h : result ≤ result') : powFrom result square n ≤ powFrom result' square n := by
  induction n using Nat.evenOddRec generalizing result result' square with
  | h0 =>
      rw [powFrom_zero, powFrom_zero]
      exact h
  | h_even n ih =>
      rw [powFrom_even, powFrom_even]
      exact ih _ h
  | h_odd n ih =>
      rw [powFrom_odd, powFrom_odd]
      exact ih _ (mul_mono h le_rfl)

/-- **THE CARRY**: what has multiplied the squares below a place is at most the square of that
    place, so with the digits behind it, it is at most the power with an exponent that is one
    larger. -/
theorem powFrom_le_powFrom_succ (n : Nat) {result square : Magnitude} (double : IsDouble square)
    (h : result ≤ square) : powFrom result square n ≤ powFrom one square (n + 1) := by
  induction n using Nat.evenOddRec generalizing result square with
  | h0 =>
      have next := powFrom_odd one square 0
      rw [powFrom_zero, one_mul double] at next
      rw [powFrom_zero, next]
      exact h
  | h_even n _ =>
      -- the carry ends here, and the digits behind it are the same
      rw [powFrom_even, powFrom_odd, one_mul double]
      exact powFrom_mono n _ h
  | h_odd n ih =>
      have carried : 2 * n + 1 + 1 = 2 * (n + 1) := by omega
      rw [powFrom_odd, carried, powFrom_even]
      exact ih (isDouble_mul square square) (mul_mono h le_rfl)

/-- **POWERS KEEP THE ORDER** of their exponents, from a base of at least one. -/
theorem pow_monotone {a : Magnitude} (double : IsDouble a) (growing : one ≤ a) :
    Monotone a.pow :=
  monotone_nat_of_le_succ fun n => powFrom_le_powFrom_succ n double growing

theorem one_pow (n : Nat) : one.pow n = one := by
  unfold pow
  induction n using Nat.evenOddRec with
  | h0 => exact powFrom_zero one one
  | h_even n ih => rw [powFrom_even, one_mul isDouble_one, ih]
  | h_odd n ih => rw [powFrom_odd, one_mul isDouble_one, ih]

end Courier.Magnitude
