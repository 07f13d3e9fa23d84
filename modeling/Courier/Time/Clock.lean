import Courier.Time.Instant

/-! # Clocks that move when told to -/

namespace Courier

/-- A clock that shows an instant until it is moved. -/
structure Clock where
  now : Instant

namespace Clock

/-- A step of a clock. -/
inductive Motion where
  | advance (span : Span)
  | set (moment : Instant)

/-- Moves the clock on; it stops at the last instant. -/
def advance (c : Clock) (s : Span) : Clock := ⟨c.now.later s⟩

/-- The clock after a step. -/
def move (c : Clock) : Motion → Clock
  | .advance s => c.advance s
  | .set moment => ⟨moment⟩

end Clock

end Courier
