import Courier.Number.Double
import Mathlib.Data.Nat.Log
import Mathlib.Tactic.SplitIfs

/-! # Rounding — larger sizes never round to smaller doubles

    A size is rounded to a whole number of gaps, where the gap depends on the
    size itself: from 53 bits on it doubles with every further bit.  Between
    two sizes with the same gap the order is that of rounding to whole
    numbers.  Two sizes with different gaps are separated by a power of two
    that is a whole number of either gap, and rounding passes no such number
    (`rounded_le`, `le_rounded`).  The sizes of doubles are what rounding
    leaves alone, and what it leads to. -/

namespace Courier.Magnitude

/-! ## Whole numbers -/

/-- The nearest whole number is the quotient, or the next one where the remainder is at least half
    of the divisor. -/
theorem nearestEven_cases (num den : Nat) :
    nearestEven num den = num / den ∨
      (nearestEven num den = num / den + 1 ∧ den ≤ 2 * (num % den)) := by
  unfold nearestEven
  dsimp only
  split
  · exact Or.inl rfl
  · next half =>
      split
      · exact Or.inr ⟨rfl, Nat.le_of_not_lt half⟩
      · split
        · exact Or.inl rfl
        · exact Or.inr ⟨rfl, Nat.le_of_not_lt half⟩

/-- Rounding to a whole number does not pass a whole number upwards. -/
theorem nearestEven_le {num den k : Nat} (pos : 0 < den) (h : num ≤ k * den) :
    nearestEven num den ≤ k := by
  have parts : den * (num / den) + num % den = num := Nat.div_add_mod num den
  have quotient : num / den ≤ k := Nat.div_le_of_le_mul (by rwa [Nat.mul_comm] at h)
  rcases nearestEven_cases num den with same | ⟨next, half⟩
  · rwa [same]
  · -- there is a remainder, so the quotient is below the bound
    rw [next]
    refine Nat.lt_of_le_of_ne quotient ?_
    rintro rfl
    rw [Nat.mul_comm] at h
    omega

/-- Rounding to a whole number does not pass a whole number downwards. -/
theorem le_nearestEven {num den k : Nat} (pos : 0 < den) (h : k * den ≤ num) :
    k ≤ nearestEven num den := by
  have quotient : k ≤ num / den := (Nat.le_div_iff_mul_le pos).mpr h
  rcases nearestEven_cases num den with same | ⟨next, -⟩
  · rwa [same]
  · rw [next]
    exact Nat.le_succ_of_le quotient

/-- Rounding to the nearest whole is monotone. -/
theorem nearestEven_mono {num num' den : Nat} (h : num ≤ num') :
    nearestEven num den ≤ nearestEven num' den := by
  have quotients : num / den ≤ num' / den := Nat.div_le_div_right h
  rcases Nat.lt_or_eq_of_le quotients with below | same
  · have upper := nearestEven_cases num den
    have lower := nearestEven_cases num' den
    omega
  · -- with the same quotient, the remainders decide
    have parts : den * (num / den) + num % den = num := Nat.div_add_mod num den
    have parts' : den * (num' / den) + num' % den = num' := Nat.div_add_mod num' den
    rw [same] at parts
    have remainders : num % den ≤ num' % den := by omega
    unfold nearestEven
    dsimp only
    rw [same]
    split_ifs <;> omega

/-! ## Gaps -/

theorem unitsPerOne_pos : 0 < unitsPerOne := by decide +kernel

/-- The number of units to which a quotient is rounded, before it is compared with the limit. -/
def rounded (num den : Nat) : Nat :=
  nearestEven num (den * spacing (num / den)) * spacing (num / den)

/-- The number of units from which on a size is infinite. -/
@[irreducible] def limit : Nat := Nat.pow 2 (1024 + 1074)

/-- A rounded ratio is finite below the limit, and infinite from there on. -/
theorem round_eq (num den : Nat) :
    round num den = if rounded num den < limit then finite (rounded num den) else infinite := by
  unfold round rounded limit
  dsimp only

theorem spacing_pos (units : Nat) : 0 < spacing units := Nat.two_pow_pos _

/-- A power of two with an exponent that is large enough is a whole number of gaps. -/
theorem spacing_dvd_two_pow {units exponent : Nat} (h : units.log2 + 1 - 53 ≤ exponent) :
    spacing units ∣ Nat.pow 2 exponent := Nat.pow_dvd_pow 2 h

/-- Gaps of a quotient are, for its numerator, as many gaps times the divisor. -/
theorem mul_gaps (gap k den : Nat) : gap * k * den = k * (den * gap) := by
  rw [Nat.mul_comm gap k, Nat.mul_assoc, Nat.mul_comm gap den]

/-- Rounding passes no whole number of gaps upwards. -/
theorem rounded_le {num den bound : Nat} (pos : 0 < den) (whole : spacing (num / den) ∣ bound)
    (h : num ≤ bound * den) : rounded num den ≤ bound := by
  obtain ⟨k, rfl⟩ := whole
  rw [mul_gaps] at h
  rw [rounded, Nat.mul_comm (spacing _) k]
  exact Nat.mul_le_mul_right _ (nearestEven_le (Nat.mul_pos pos (spacing_pos _)) h)

/-- Rounding passes no whole number of gaps downwards. -/
theorem le_rounded {num den bound : Nat} (pos : 0 < den) (whole : spacing (num / den) ∣ bound)
    (h : bound * den ≤ num) : bound ≤ rounded num den := by
  obtain ⟨k, rfl⟩ := whole
  rw [mul_gaps] at h
  rw [rounded, Nat.mul_comm (spacing _) k]
  exact Nat.mul_le_mul_right _ (le_nearestEven (Nat.mul_pos pos (spacing_pos _)) h)

/-- A whole number of its own gaps is left alone. -/
theorem rounded_of_spacing_dvd {units den : Nat} (pos : 0 < den) (whole : spacing units ∣ units) :
    rounded (units * den) den = units := by
  have whole : spacing (units * den / den) ∣ units := by rwa [Nat.mul_div_cancel units pos]
  exact Nat.le_antisymm (rounded_le pos whole (Nat.le_refl _))
    (le_rounded pos whole (Nat.le_refl _))

theorem log2_mono {m n : Nat} (h : m ≤ n) : m.log2 ≤ n.log2 := by
  rw [Nat.log2_eq_log_two, Nat.log2_eq_log_two]
  exact Nat.log_mono_right h

/-- **ROUNDING KEEPS THE ORDER** of quotients with one divisor. -/
theorem rounded_mono {num num' den : Nat} (pos : 0 < den) (h : num ≤ num') :
    rounded num den ≤ rounded num' den := by
  have quotients : num / den ≤ num' / den := Nat.div_le_div_right h
  rcases Nat.lt_or_eq_of_le (log2_mono quotients) with fewer | same
  · -- the power of two at the top of the larger quotient lies between the two
    have large : num' / den ≠ 0 := by
      intro zero
      rw [zero] at fewer
      exact absurd fewer (Nat.not_lt_zero _)
    refine Nat.le_trans (m := Nat.pow 2 (num' / den).log2)
      (rounded_le pos (spacing_dvd_two_pow (by omega)) ?_)
      (le_rounded pos (spacing_dvd_two_pow (by omega)) ?_)
    · refine Nat.le_of_lt ((Nat.div_lt_iff_lt_mul pos).mp ?_)
      exact Nat.lt_of_lt_of_le Nat.lt_log2_self (Nat.pow_le_pow_right (by decide) fewer)
    · exact (Nat.le_div_iff_mul_le pos).mp (Nat.log2_self_le large)
  · have gaps : spacing (num / den) = spacing (num' / den) := by rw [spacing, spacing, same]
    rw [rounded, rounded, gaps]
    exact Nat.mul_le_mul_right _ (nearestEven_mono h)

/-! ## Sizes of doubles -/

/-- Whether a number of units has at most 53 significant bits. -/
def IsShort (units : Nat) : Prop :=
  ∃ digits exponent, digits < Nat.pow 2 53 ∧ units = digits * Nat.pow 2 exponent

/-- The sizes of doubles. -/
inductive IsDouble : Magnitude → Prop where
  | finite {units : Nat} (short : IsShort units) (below : units < limit) : IsDouble (finite units)
  | infinite : IsDouble infinite

/-- Few digits are fewer than any larger power of two. -/
theorem mul_two_pow_lt {digits exponent top : Nat} (few : digits < Nat.pow 2 53)
    (small : exponent ≤ top) : digits * Nat.pow 2 exponent < Nat.pow 2 (53 + top) :=
  calc digits * Nat.pow 2 exponent < Nat.pow 2 53 * Nat.pow 2 exponent :=
        Nat.mul_lt_mul_of_pos_right few (Nat.two_pow_pos exponent)
    _ ≤ Nat.pow 2 53 * Nat.pow 2 top :=
        Nat.mul_le_mul_left _ (Nat.pow_le_pow_right (by decide) small)
    _ = Nat.pow 2 (53 + top) := (Nat.pow_add 2 53 top).symm

theorem spacing_dvd_of_isShort {units : Nat} (short : IsShort units) : spacing units ∣ units := by
  obtain ⟨digits, exponent, few, form⟩ := short
  by_cases zero : units = 0
  · rw [zero]
    exact Nat.dvd_zero _
  · have bits : units.log2 < 53 + exponent := by
      rw [Nat.log2_lt zero, form]
      exact mul_two_pow_lt few (Nat.le_refl exponent)
    have gaps : spacing units ∣ Nat.pow 2 exponent := spacing_dvd_two_pow (by omega)
    rw [form] at gaps ⊢
    exact Nat.dvd_mul_left_of_dvd gaps digits

theorem isShort_rounded {num den : Nat} (pos : 0 < den) : IsShort (rounded num den) := by
  have digits : nearestEven num (den * spacing (num / den)) ≤ Nat.pow 2 53 := by
    refine nearestEven_le (Nat.mul_pos pos (spacing_pos _)) (Nat.le_of_lt ?_)
    have below : num < Nat.pow 2 ((num / den).log2 + 1) * den :=
      (Nat.div_lt_iff_lt_mul pos).mp Nat.lt_log2_self
    have top : Nat.pow 2 ((num / den).log2 + 1) ≤ Nat.pow 2 53 * spacing (num / den) :=
      calc Nat.pow 2 ((num / den).log2 + 1) ≤ Nat.pow 2 (53 + ((num / den).log2 + 1 - 53)) :=
            Nat.pow_le_pow_right (by decide) (by omega)
        _ = Nat.pow 2 53 * spacing (num / den) := Nat.pow_add 2 53 _
    calc num < Nat.pow 2 ((num / den).log2 + 1) * den := below
      _ ≤ Nat.pow 2 53 * spacing (num / den) * den := Nat.mul_le_mul_right _ top
      _ = Nat.pow 2 53 * (den * spacing (num / den)) := by
        rw [Nat.mul_assoc, Nat.mul_comm den]
  rcases Nat.lt_or_eq_of_le digits with few | full
  · exact ⟨_, _, few, rfl⟩
  · -- rounding up to the next power of two needs one digit only
    refine ⟨1, 53 + ((num / den).log2 + 1 - 53), by decide, ?_⟩
    rw [rounded, full, spacing, Nat.one_mul]
    exact (Nat.pow_add 2 53 _).symm

theorem isDouble_round {num den : Nat} (pos : 0 < den) : IsDouble (round num den) := by
  rw [round_eq]
  split
  · next below => exact .finite (isShort_rounded pos) below
  · exact .infinite

/-- The size of a double is rounded to itself. -/
theorem round_of_isDouble {units den : Nat} (pos : 0 < den) (double : IsDouble (finite units)) :
    round (units * den) den = finite units := by
  cases double with
  | finite short below =>
      rw [round_eq, rounded_of_spacing_dvd pos (spacing_dvd_of_isShort short), if_pos below]

theorem isDouble_one : IsDouble one := by
  have short : IsShort unitsPerOne := ⟨1, 1074, by decide, by decide +kernel⟩
  have below : unitsPerOne < limit := by decide +kernel
  exact .finite short below

/-- The largest finite doubles are below the limit. -/
theorem lt_limit {digits exponent : Nat} (few : digits < Nat.pow 2 53) (small : exponent ≤ 2045) :
    digits * Nat.pow 2 exponent < limit :=
  Nat.lt_of_lt_of_le (mul_two_pow_lt few small) (by decide +kernel)

/-- Every double has the size of one. -/
theorem isDouble_size_ofBits (bits : UInt64) : IsDouble (Double.ofBits bits).size := by
  have fraction : bits.toNat % Nat.pow 2 52 < Nat.pow 2 52 := Nat.mod_lt _ (by decide)
  have exponent : bits.toNat / Nat.pow 2 52 % Nat.pow 2 11 < Nat.pow 2 11 :=
    Nat.mod_lt _ (by decide)
  have isDouble {digits exponent : Nat} (few : digits < Nat.pow 2 53) (small : exponent ≤ 2045) :
      IsDouble (finite (digits * Nat.pow 2 exponent)) :=
    .finite ⟨_, _, few, rfl⟩ (lt_limit few small)
  unfold Double.ofBits
  dsimp only
  split
  · split <;> exact .infinite
  · split
    · -- without an exponent, the fraction is the whole size
      have few : bits.toNat % Nat.pow 2 52 < Nat.pow 2 53 := Nat.lt_trans fraction (by decide)
      exact .finite ⟨_, 0, few, (Nat.mul_one _).symm⟩ (Nat.lt_trans fraction (by decide +kernel))
    · have twice : Nat.pow 2 53 = Nat.pow 2 52 + Nat.pow 2 52 := by decide
      have largest : Nat.pow 2 11 = 2048 := by decide
      exact isDouble (by omega) (by omega)

/-! ## The order of sizes -/

instance : LE Magnitude := ⟨fun a b => a.le b = true⟩

theorem finite_le_finite {a b : Nat} : finite a ≤ finite b ↔ a ≤ b := decide_eq_true_iff

theorem le_infinite (a : Magnitude) : a ≤ infinite := by cases a <;> exact rfl

theorem not_infinite_le (units : Nat) : ¬infinite ≤ finite units := Bool.false_ne_true

/-- Below a size are all of them, if it is infinite, and else those with no more units. -/
theorem le_cases {a b : Magnitude} (h : a ≤ b) :
    b = infinite ∨ ∃ units units', units ≤ units' ∧ a = finite units ∧ b = finite units' := by
  cases b with
  | infinite => exact Or.inl rfl
  | finite units' =>
      cases a with
      | infinite => exact absurd h (not_infinite_le units')
      | finite units => exact Or.inr ⟨units, units', finite_le_finite.mp h, rfl, rfl⟩

theorem eq_infinite_of_le {a : Magnitude} (h : infinite ≤ a) : a = infinite := by
  cases a with
  | finite units => exact absurd h (not_infinite_le units)
  | infinite => rfl

instance : PartialOrder Magnitude where
  le_refl a := by
    cases a with
    | finite units => exact finite_le_finite.mpr (Nat.le_refl _)
    | infinite => exact le_infinite _
  le_trans a b c h h' := by
    obtain rfl | ⟨more, most, second, rfl, rfl⟩ := le_cases h'
    · exact le_infinite a
    · cases a with
      | infinite => exact absurd h (not_infinite_le more)
      | finite units => exact finite_le_finite.mpr (Nat.le_trans (finite_le_finite.mp h) second)
  le_antisymm a b h h' := by
    obtain rfl | ⟨units, more, first, rfl, rfl⟩ := le_cases h
    · exact eq_infinite_of_le h'
    · exact congrArg finite (Nat.le_antisymm first (finite_le_finite.mp h'))

/-- Rounding is monotone. -/
theorem round_mono {num num' den : Nat} (pos : 0 < den) (h : num ≤ num') :
    round num den ≤ round num' den := by
  have order := rounded_mono pos h
  rw [round_eq, round_eq]
  split
  · split
    · exact finite_le_finite.mpr order
    · exact le_infinite _
  · next past =>
      rw [if_neg fun below => past (Nat.lt_of_le_of_lt order below)]

end Courier.Magnitude
