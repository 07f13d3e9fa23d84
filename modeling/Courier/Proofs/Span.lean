import Courier.Span
import Mathlib.Order.Defs.PartialOrder

/-! # Exact spans — carrying agrees with whole nanoseconds

    Sums and multiples are computed from the seconds and the nanoseconds
    apart, with a carry between them, and are cut where they leave the range.
    Counted in nanoseconds they are what they should be (`add?_eq`,
    `scale?_eq`).  The same computations are written down once more on words
    of 64 and 32 bits, where each number on the way has to fit its word: none
    ever fails to. -/

namespace Courier.Span

instance : PartialOrder Span where
  le_refl a := Nat.le_refl a.toNanos
  le_trans _ _ _ h h' := Nat.le_trans h h'
  le_antisymm _ _ h h' := toNanos_injective (Nat.le_antisymm h h')
  lt_iff_le_not_ge _ _ := Nat.lt_iff_le_and_not_ge

theorem le_def {a b : Span} : a ≤ b ↔ a.toNanos ≤ b.toNanos := Iff.rfl

/-! ## Whole nanoseconds -/

/-- Parts are those of the number of nanoseconds that they add up to. -/
theorem ofParts?_eq_ofNanos? {secs nanos : Nat} (below : nanos < perSecond) :
    ofParts? secs nanos = ofNanos? (secs * perSecond + nanos) := by
  have quotient : (secs * perSecond + nanos) / perSecond = secs := by
    unfold perSecond at *
    omega
  have remainder : (secs * perSecond + nanos) % perSecond = nanos := by
    unfold perSecond at *
    omega
  rw [ofNanos?, quotient, remainder]

/-- The span of a number of nanoseconds has that length. -/
theorem toNanos_of_ofNanos? {n : Nat} {s : Span} (h : ofNanos? n = some s) : s.toNanos = n := by
  rw [ofNanos?, ofParts?] at h
  split at h
  · rw [← Option.some.inj h, toNanos]
    exact Nat.div_add_mod' n perSecond
  · cases h

/-- There is no span for more nanoseconds than the longest one has. -/
theorem ofNanos?_eq_none_iff {n : Nat} : ofNanos? n = none ↔ longest.toNanos < n := by
  constructor
  · intro none
    rw [ofNanos?, ofParts?] at none
    split at none
    · cases none
    · next out =>
        have remainder : n % perSecond < perSecond := Nat.mod_lt n (by decide)
        simp only [longest, toNanos, perSecond] at *
        omega
  · intro past
    cases h : ofNanos? n with
    | none => rfl
    | some s =>
        have length := toNanos_of_ofNanos? h
        have most := s.toNanos_le_longest
        omega

/-- Cut to the longest span, a number of nanoseconds is the smaller one of the two. -/
theorem toNanos_getD_longest (n : Nat) :
    ((ofNanos? n).getD longest).toNanos = min n longest.toNanos := by
  cases h : ofNanos? n with
  | none =>
      have past := ofNanos?_eq_none_iff.mp h
      rw [Option.getD_none]
      omega
  | some s =>
      have length := toNanos_of_ofNanos? h
      have most := s.toNanos_le_longest
      rw [Option.getD_some]
      omega

/-! ## Carrying -/

/-- **SUMS ARE EXACT**: carried or not, a sum is the span of the added nanoseconds. -/
theorem add?_eq (a b : Span) : a.add? b = ofNanos? (a.toNanos + b.toNanos) := by
  have ha := a.nanos_lt
  have hb := b.nanos_lt
  rw [add?]
  split
  · next below =>
      have sum : (a.secs + b.secs) * perSecond + (a.nanos + b.nanos) = a.toNanos + b.toNanos := by
        simp only [toNanos, perSecond]
        omega
      rw [ofParts?_eq_ofNanos? below, sum]
  -- the nanoseconds make a second: it is carried, or there is no room for it
  · next carries =>
      split
      · have below : a.nanos + b.nanos - perSecond < perSecond := by
          unfold perSecond at *
          omega
        have sum : (a.secs + b.secs + 1) * perSecond + (a.nanos + b.nanos - perSecond)
            = a.toNanos + b.toNanos := by
          simp only [toNanos, perSecond] at *
          omega
        rw [ofParts?_eq_ofNanos? below, sum]
      · refine (ofNanos?_eq_none_iff.mpr ?_).symm
        simp only [longest, toNanos, perSecond] at *
        omega

/-- **MULTIPLES ARE EXACT**: a multiple is the span of as many times the nanoseconds. -/
theorem scale?_eq (a : Span) (k : UInt32) : a.scale? k = ofNanos? (a.toNanos * k.toNat) := by
  have parts : a.toNanos * k.toNat
      = a.secs * k.toNat * perSecond + a.nanos * k.toNat := by
    rw [toNanos, Nat.add_mul, Nat.mul_right_comm]
  have carry : a.nanos * k.toNat / perSecond * perSecond + a.nanos * k.toNat % perSecond
      = a.nanos * k.toNat := Nat.div_add_mod' _ _
  have below : a.nanos * k.toNat % perSecond < perSecond := Nat.mod_lt _ (by decide)
  rw [scale?, parts]
  split
  · rw [ofParts?_eq_ofNanos? below, Nat.add_mul, Nat.add_assoc, carry]
  · refine (ofNanos?_eq_none_iff.mpr ?_).symm
    simp only [longest, toNanos, perSecond] at *
    omega

/-- A sum of times is exact, up to the longest time. -/
theorem toNanos_addCapped (a b : Span) :
    (a.addCapped b).toNanos = min (a.toNanos + b.toNanos) longest.toNanos := by
  rw [addCapped, add?_eq, toNanos_getD_longest]

/-- A multiple of a time is exact, up to the longest time. -/
theorem toNanos_scaleCapped (a : Span) (k : UInt32) :
    (a.scaleCapped k).toNanos = min (a.toNanos * k.toNat) longest.toNanos := by
  rw [scaleCapped, scale?_eq, toNanos_getD_longest]

/-! ## Words -/

/-- A number that has to fit a word with so many values. -/
def inWord? (size n : Nat) : Option Nat := if n < size then some n else none

theorem inWord?_of_lt {size n : Nat} (h : n < size) : inWord? size n = some n := if_pos h

theorem inWord?_of_not_lt {size n : Nat} (h : ¬n < size) : inWord? size n = none := if_neg h

/-- The sum, with seconds in words of 64 bits and nanoseconds in words of 32.  Seconds that do not
    fit their word are looked for, and put the sum out of range (`some none`); any other number that
    does not fit its word, or a remainder of a whole second, leaves no result at all (`none`). -/
def addInWords? (a b : Span) : Option (Option Span) :=
  match inWord? UInt64.size (a.secs + b.secs) with
  | none => some none
  | some secs =>
    (inWord? UInt32.size (a.nanos + b.nanos)).bind fun nanos =>
      if nanos < perSecond then (ofParts? secs nanos).map some
      else
        match inWord? UInt64.size (secs + 1) with
        | none => some none
        | some secs => (ofParts? secs (nanos - perSecond)).map some

/-- The multiple by a word of 32 bits, with seconds in words of 64 bits, nanoseconds in words of 32,
    and their product in one of 64; `some none` and `none` as for the sum. -/
def scaleInWords? (a : Span) (k : UInt32) : Option (Option Span) :=
  (inWord? UInt64.size (a.nanos * k.toNat)).bind fun product =>
    (inWord? UInt32.size (product % perSecond)).bind fun nanos =>
      match inWord? UInt64.size (a.secs * k.toNat) with
      | none => some none
      | some secs =>
        match inWord? UInt64.size (secs + product / perSecond) with
        | none => some none
        | some secs => (ofParts? secs nanos).map some

theorem ofParts?_of_lt {secs nanos : Nat} (h : secs < UInt64.size) (below : nanos < perSecond) :
    (ofParts? secs nanos).map some = some (ofParts? secs nanos) := by
  rw [ofParts?, dif_pos ⟨h, below⟩]
  rfl

theorem ofParts?_of_not_lt {secs nanos : Nat} (h : ¬secs < UInt64.size) :
    ofParts? secs nanos = none :=
  dif_neg fun both => h both.1

/-- Every number on the way to a sum fits its word. -/
theorem addInWords?_eq (a b : Span) : a.addInWords? b = some (a.add? b) := by
  have ha := a.nanos_lt
  have hb := b.nanos_lt
  have nanos : inWord? UInt32.size (a.nanos + b.nanos) = some (a.nanos + b.nanos) :=
    inWord?_of_lt (by unfold UInt32.size; omega)
  rw [addInWords?, add?]
  by_cases secs : a.secs + b.secs < UInt64.size
  · rw [inWord?_of_lt secs, nanos]
    dsimp only [Option.bind_some]
    split
    · next below => exact ofParts?_of_lt secs below
    · by_cases carried : a.secs + b.secs + 1 < UInt64.size
      · rw [inWord?_of_lt carried]
        refine ofParts?_of_lt carried ?_
        unfold perSecond
        omega
      · rw [inWord?_of_not_lt carried, ofParts?_of_not_lt carried]
  · rw [inWord?_of_not_lt secs, if_neg secs, ofParts?_of_not_lt secs, ite_self]

/-- Every number on the way to a multiple fits its word. -/
theorem scaleInWords?_eq (a : Span) (k : UInt32) : a.scaleInWords? k = some (a.scale? k) := by
  have below : a.nanos * k.toNat % perSecond < perSecond := Nat.mod_lt _ (by decide)
  have product : a.nanos * k.toNat < UInt64.size :=
    calc a.nanos * k.toNat ≤ 1000000000 * UInt32.size :=
          Nat.mul_le_mul (Nat.le_of_lt a.nanos_lt) (Nat.le_of_lt k.toNat_lt)
      _ < UInt64.size := by decide
  have nanos : inWord? UInt32.size (a.nanos * k.toNat % perSecond)
      = some (a.nanos * k.toNat % perSecond) :=
    inWord?_of_lt (Nat.lt_trans below (by decide))
  rw [scaleInWords?, scale?, inWord?_of_lt product]
  dsimp only [Option.bind_some]
  rw [nanos]
  dsimp only [Option.bind_some]
  by_cases secs : a.secs * k.toNat < UInt64.size
  · rw [inWord?_of_lt secs, if_pos secs]
    dsimp only
    by_cases carried : a.secs * k.toNat + a.nanos * k.toNat / perSecond < UInt64.size
    · rw [inWord?_of_lt carried]
      exact ofParts?_of_lt carried below
    · rw [inWord?_of_not_lt carried, ofParts?_of_not_lt carried]
  · rw [inWord?_of_not_lt secs, if_neg secs]

end Courier.Span
