import Courier.Proofs.Number.Power
import Courier.Proofs.Span
import Courier.Retry.Delay

/-! # Growth — exponential waits never decrease

    A scaled wait is a base in seconds times a power of the factor, rounded to
    whole nanoseconds and cut to the longest span.  Every step on the way
    keeps the order: the power does, since a factor counts as at least one
    (`Magnitude.pow_monotone`), and so do the rounded product, the rounding to
    nanoseconds and the cut. -/

namespace Courier

namespace Span

/-- Where seconds are finite, their span has the nearest whole number of nanoseconds, or as many as
    the longest one. -/
theorem toNanos_ofSecondsCapped (units : Nat) :
    (ofSecondsCapped (.finite units)).toNanos
      = min (Magnitude.nearestEven (units * perSecond) Magnitude.unitsPerOne) longest.toNanos :=
  toNanos_getD_longest _

theorem ofSecondsCapped_mono {a b : Magnitude} (h : a ≤ b) :
    ofSecondsCapped a ≤ ofSecondsCapped b := by
  obtain rfl | ⟨units, units', fewer, rfl, rfl⟩ := Magnitude.le_cases h
  · exact toNanos_le_longest _
  · have scaled : units * perSecond ≤ units' * perSecond := Nat.mul_le_mul_right _ fewer
    have nearest : Magnitude.nearestEven (units * perSecond) Magnitude.unitsPerOne
        ≤ Magnitude.nearestEven (units' * perSecond) Magnitude.unitsPerOne :=
      Magnitude.nearestEven_mono scaled
    rw [le_def, toNanos_ofSecondsCapped, toNanos_ofSecondsCapped]
    omega

end Span

namespace Double

open Magnitude

/-- Whether a double is a number, and at most one. -/
def isAtMostOne : Double → Bool
  | signed false size => size.le one
  | signed true _ => true
  | nan => false

theorem atLeastOne_of_le {size : Magnitude} (h : one ≤ size) :
    (signed false size).atLeastOne = signed false size := if_pos h

theorem atLeastOne_of_not_le {size : Magnitude} (h : ¬one ≤ size) :
    (signed false size).atLeastOne = signed false one := if_neg h

/-- The larger of a double and one is a number of at least one. -/
theorem exists_atLeastOne (d : Double) :
    ∃ size, d.atLeastOne = signed false size ∧ one ≤ size := by
  cases d with
  | nan => exact ⟨one, rfl, le_rfl⟩
  | signed negative size =>
      cases negative with
      | true => exact ⟨one, rfl, le_rfl⟩
      | false =>
          by_cases growing : one ≤ size
          · exact ⟨size, atLeastOne_of_le growing, growing⟩
          · exact ⟨one, atLeastOne_of_not_le growing, le_rfl⟩

theorem atLeastOne_atLeastOne (d : Double) : d.atLeastOne.atLeastOne = d.atLeastOne := by
  obtain ⟨size, raised, growing⟩ := d.exists_atLeastOne
  rw [raised, atLeastOne_of_le growing]

theorem one_le_size_atLeastOne (d : Double) : one ≤ d.atLeastOne.size := by
  obtain ⟨size, raised, growing⟩ := d.exists_atLeastOne
  rw [raised]
  exact growing

theorem isDouble_size_atLeastOne {d : Double} (double : IsDouble d.size) :
    IsDouble d.atLeastOne.size := by
  cases d with
  | nan => exact isDouble_one
  | signed negative size =>
      cases negative with
      | true => exact isDouble_one
      | false =>
          by_cases growing : one ≤ size
          · rw [atLeastOne_of_le growing]
            exact double
          · rw [atLeastOne_of_not_le growing]
            exact isDouble_one

/-- What is no number, or at most one, counts as one. -/
theorem size_atLeastOne_of_small {d : Double} (small : d = nan ∨ d.isAtMostOne = true) :
    d.atLeastOne.size = one := by
  cases d with
  | nan => rfl
  | signed negative size =>
      cases negative with
      | true => rfl
      | false =>
          have atMost : size ≤ one := small.resolve_left nofun
          by_cases growing : one ≤ size
          · rw [atLeastOne_of_le growing]
            exact le_antisymm atMost growing
          · rw [atLeastOne_of_not_le growing]
            rfl

end Double

namespace DelayPolicy

/-- Without a base there is no wait, whatever the factor. -/
theorem delay_scaled_of_isZero {base : Span} (zero : base.isZero = true) (factor : Double)
    (n : Nat) :
    (scaled base factor).delay n = .zero := if_pos zero

/-- A scaled wait is its base times a power of the factor, with a limit for the exponent. -/
theorem delay_scaled {base : Span} (zero : ¬base.isZero = true) (factor : Double) (n : Nat) :
    (scaled base factor).delay n
      = .ofSecondsCapped (base.toSeconds.mul (factor.atLeastOne.size.pow (min n exponentLimit))) :=
  if_neg zero

/-- With the size of a double for its factor, a scaled wait keeps the order of the indices. -/
theorem scaled_monotone (base : Span) {factor : Double} (double : Magnitude.IsDouble factor.size) :
    Monotone (scaled base factor).delay := by
  intro m n le
  by_cases zero : base.isZero = true
  · rw [delay_scaled_of_isZero zero, delay_scaled_of_isZero zero]
  · have exponents : min m exponentLimit ≤ min n exponentLimit := by omega
    have powers := Magnitude.pow_monotone (Double.isDouble_size_atLeastOne double)
      factor.one_le_size_atLeastOne exponents
    rw [delay_scaled zero, delay_scaled zero]
    exact Span.ofSecondsCapped_mono (Magnitude.mul_mono le_rfl powers)

/-- A factor that counts as one makes all waits equal. -/
theorem scaled_constant (base : Span) {factor : Double}
    (small : factor = .nan ∨ factor.isAtMostOne = true) (m n : Nat) :
    (scaled base factor).delay m = (scaled base factor).delay n := by
  by_cases zero : base.isZero = true
  · rw [delay_scaled_of_isZero zero, delay_scaled_of_isZero zero]
  · rw [delay_scaled zero, delay_scaled zero, Double.size_atLeastOne_of_small small,
      Magnitude.one_pow, Magnitude.one_pow]

/-- Raising the factor beforehand changes no wait. -/
theorem delay_exponential (base : Span) (factor : Double) (n : Nat) :
    (exponential base factor).delay n = (scaled base factor).delay n := by
  rw [exponential]
  by_cases zero : base.isZero = true
  · rw [delay_scaled_of_isZero zero, delay_scaled_of_isZero zero]
  · rw [delay_scaled zero, delay_scaled zero, Double.atLeastOne_atLeastOne]

/-- **EXPONENTIAL WAITS NEVER DECREASE**, from any first wait and with the double of any 64 bits for
    a factor.  They are all equal if the factor is no number or at most one, they are all empty if
    the first one is, and the longest span is followed by nothing else.  Raising the factor to one
    beforehand makes no difference. -/
theorem exponential_waits_never_decrease (base : Span) (bits : UInt64) :
    let factor := Double.ofBits bits
    let policy := scaled base factor
    (∀ m n, m ≤ n → policy.delay m ≤ policy.delay n) ∧
      (factor = .nan ∨ factor.isAtMostOne = true → ∀ m n, policy.delay m = policy.delay n) ∧
      (base = .zero → ∀ n, policy.delay n = .zero) ∧
      (∀ m n, m ≤ n → policy.delay m = .longest → policy.delay n = .longest) ∧
      ∀ n, (exponential base factor).delay n = policy.delay n := by
  intro factor policy
  have grows : Monotone policy.delay := scaled_monotone base (Magnitude.isDouble_size_ofBits bits)
  refine ⟨fun m n le => grows le, scaled_constant base, ?_, ?_, delay_exponential base factor⟩
  · rintro rfl n
    exact delay_scaled_of_isZero rfl factor n
  · intro m n le reached
    refine le_antisymm (policy.delay n).toNanos_le_longest ?_
    rw [← reached]
    exact grows le

end DelayPolicy

end Courier
