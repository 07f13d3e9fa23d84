import Courier.Span

/-! # Instants — moments on the time line, to the nanosecond

    An instant is a second, counted from the start of 1970, and a
    remainder in nanoseconds.  A remainder of a second or more stands for
    the leap second behind that second, which is the last of its minute.
    The line has a first and a last second; moving past its end stops at
    the last instant. -/

namespace Courier

/-- A moment: seconds from the start of 1970, and nanoseconds behind the second. -/
structure Instant where
  secs : Int
  nanos : Nat
  secs_ge : -8334601228800 ≤ secs := by decide
  secs_le : secs ≤ 8210266876799 := by decide
  nanos_lt : nanos < 2000000000 := by decide
  leap : 1000000000 ≤ nanos → secs % 60 = 59 := by decide
  deriving DecidableEq, Repr

namespace Instant

/-- The instant with the given parts, where they are in range. -/
def ofParts? (secs : Int) (nanos : Nat) : Option Instant :=
  if h : (-8334601228800 ≤ secs ∧ secs ≤ 8210266876799) ∧ nanos < 2000000000
      ∧ (1000000000 ≤ nanos → secs % 60 = 59) then
    some ⟨secs, nanos, h.1.1, h.1.2, h.2.1, h.2.2⟩
  else none

/-- The last instant outside leap seconds. -/
def latest : Instant := ⟨8210266876799, 999999999, by decide, by decide, by decide, by decide⟩

/-- The start of 1970. -/
def epoch : Instant := ⟨0, 0, by decide, by decide, by decide, by decide⟩

/-- Whether the instant is in a leap second. -/
def inLeapSecond (t : Instant) : Bool := Span.perSecond ≤ t.nanos

/-- Whether `a` is before `b`. -/
def isBefore (a b : Instant) : Bool :=
  a.secs < b.secs || (a.secs == b.secs && a.nanos < b.nanos)

instance : LT Instant := ⟨fun a b => a.isBefore b⟩

instance (a b : Instant) : Decidable (a < b) := inferInstanceAs (Decidable (a.isBefore b = true))

/-- Adds a span to a second and its remainder, where the sum is on the line. -/
def carry? (secs : Int) (nanos : Nat) (s : Span) : Option Instant :=
  if nanos + s.nanos < Span.perSecond then ofParts? (secs + s.secs) (nanos + s.nanos)
  else ofParts? (secs + s.secs + 1) (nanos + s.nanos - Span.perSecond)

/-- The instant a span later, where it is on the line. A leap second is left as if it were the
    second before it; a span that stays inside it keeps it. -/
def later? (t : Instant) (s : Span) : Option Instant :=
  if t.inLeapSecond then
    if 0 < s.secs ∨ 2 * Span.perSecond ≤ t.nanos + s.nanos then
      carry? t.secs (t.nanos - Span.perSecond) s
    else ofParts? t.secs (t.nanos + s.nanos)
  else carry? t.secs t.nanos s

/-- The longest step: a count of milliseconds in a signed word. -/
def longestStep : Span := ⟨9223372036854775, 807000000, by decide, by decide⟩

/-- The instant a span later; the last instant where that is off the line. Spans longer than
    the longest step count as that step. -/
def later (t : Instant) (s : Span) : Instant :=
  (t.later? (min s longestStep)).getD latest

end Instant

end Courier
