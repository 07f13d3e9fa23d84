import Courier.Span
import Courier.Number.Double

/-! # Delays — the wait before each further attempt

    A delay policy maps the index of a wait to its length.  The index
    starts at zero.  Lengths that leave the range of spans are cut to the
    longest span, so no policy ever fails. -/

namespace Courier

namespace Span

/-- The length in seconds as a double: seconds, plus nanoseconds over 10^9, each rounded. -/
def toSeconds (s : Span) : Magnitude :=
  (Magnitude.ofNat s.secs).add ((Magnitude.ofNat s.nanos).div (.ofNat perSecond))

/-- The span nearest to a number of seconds, ties to even; the longest one where it is out of
    range. -/
def ofSecondsCapped : Magnitude → Span
  | .infinite => longest
  | .finite units =>
    (ofNanos? (Magnitude.nearestEven (units * perSecond) Magnitude.unitsPerOne)).getD longest

end Span

/-- How the wait grows from one attempt to the next. -/
inductive DelayPolicy where
  /-- The same wait each time. -/
  | fixed (wait : Span)
  /-- A first wait, and a step added for each further one. -/
  | increment (base step : Span)
  /-- A first wait, multiplied by a factor for each further one; factors below one count as
      one. -/
  | scaled (base : Span) (factor : Double)
  deriving DecidableEq

namespace DelayPolicy

/-- Exponential growth with a factor of at least one. -/
def exponential (base : Span) (factor : Double) : DelayPolicy := scaled base factor.atLeastOne

/-- The largest number of steps that an increment counts. -/
def stepLimit : Nat := 4294967295

/-- The largest exponent of a scaled wait. -/
def exponentLimit : Nat := 2147483647

/-- The wait with index `n`. -/
def delay (p : DelayPolicy) (n : Nat) : Span :=
  match p with
  | fixed wait => wait
  | increment base step => base.addCapped (step.scaleCapped (.ofNat (min n stepLimit)))
  | scaled base factor =>
    if base.isZero then .zero
    else
      let growth := factor.atLeastOne.size.pow (min n exponentLimit)
      .ofSecondsCapped (base.toSeconds.mul growth)

/-- Three seconds each time. -/
def standard : DelayPolicy := fixed (.ofSeconds 3)

end DelayPolicy

end Courier
