/-! # Spans — lengths of time in whole nanoseconds

    A span has a count of seconds below 2^64 and a remainder below one
    second.  Sums and multiples either fit that range exactly or are cut
    to the longest span; the carry between the two parts is explicit, so
    that every intermediate value stays in the range of a machine word. -/

namespace Courier

/-- A length of time: whole seconds and a remainder in nanoseconds. -/
structure Span where
  secs : Nat
  nanos : Nat
  secs_lt : secs < 18446744073709551616 := by decide
  nanos_lt : nanos < 1000000000 := by decide
  deriving DecidableEq, Repr

namespace Span

/-- The number of nanoseconds in a second. -/
abbrev perSecond : Nat := 1000000000

/-- No time at all. -/
def zero : Span := ⟨0, 0, by decide, by decide⟩

/-- The longest time there is. -/
def longest : Span := ⟨18446744073709551615, 999999999, by decide, by decide⟩

/-- The span of `secs` seconds and `nanos` nanoseconds, where both parts are in range. -/
def ofParts? (secs nanos : Nat) : Option Span :=
  if h : secs < 18446744073709551616 ∧ nanos < perSecond then some ⟨secs, nanos, h.1, h.2⟩ else none

/-- A whole number of seconds. -/
def ofSeconds (n : UInt64) : Span := ⟨n.toNat, 0, n.toNat_lt, by decide⟩

/-- The whole length in nanoseconds. -/
def toNanos (s : Span) : Nat := s.secs * perSecond + s.nanos

/-- The span of a number of nanoseconds, where it is in range. -/
def ofNanos? (n : Nat) : Option Span := ofParts? (n / perSecond) (n % perSecond)

/-- Whether the time is none at all. -/
def isZero (s : Span) : Bool := s.secs == 0 && s.nanos == 0

/-- The sum, with the overflow of the nanoseconds carried into the seconds. -/
def add? (a b : Span) : Option Span :=
  if a.nanos + b.nanos < perSecond then ofParts? (a.secs + b.secs) (a.nanos + b.nanos)
  else if a.secs + b.secs < 18446744073709551616 then
    ofParts? (a.secs + b.secs + 1) (a.nanos + b.nanos - perSecond)
  else none

/-- The multiple by `k`, with the overflow of the nanoseconds carried into the seconds. -/
def scale? (a : Span) (k : UInt32) : Option Span :=
  let nanos := a.nanos * k.toNat
  if a.secs * k.toNat < 18446744073709551616 then
    ofParts? (a.secs * k.toNat + nanos / perSecond) (nanos % perSecond)
  else none

/-- The sum, or the longest span where the sum is out of range. -/
def addCapped (a b : Span) : Span := (a.add? b).getD longest

/-- The multiple by `k`, or the longest span where the multiple is out of range. -/
def scaleCapped (a : Span) (k : UInt32) : Span := (a.scale? k).getD longest

instance : LE Span := ⟨fun a b => a.toNanos ≤ b.toNanos⟩

instance : LT Span := ⟨fun a b => a.toNanos < b.toNanos⟩

instance (a b : Span) : Decidable (a ≤ b) := inferInstanceAs (Decidable (a.toNanos ≤ b.toNanos))

instance (a b : Span) : Decidable (a < b) := inferInstanceAs (Decidable (a.toNanos < b.toNanos))

instance : Min Span := ⟨fun a b => if a ≤ b then a else b⟩

/-- Spans of equal length are equal. -/
theorem toNanos_injective {a b : Span} (h : a.toNanos = b.toNanos) : a = b := by
  obtain ⟨s, n, hs, hn⟩ := a
  obtain ⟨t, m, ht, hm⟩ := b
  simp only [toNanos, perSecond] at h
  have h1 : s = t := by omega
  have h2 : n = m := by omega
  subst h1 h2
  rfl

/-- Every span is at most the longest one. -/
theorem toNanos_le_longest (a : Span) : a.toNanos ≤ longest.toNanos := by
  have h1 := a.secs_lt
  have h2 := a.nanos_lt
  simp only [toNanos, longest, perSecond]
  omega

end Span

end Courier
