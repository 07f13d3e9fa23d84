import Courier.Proofs.Span
import Courier.Proofs.Time.Instant

/-! # Saturation — moving on is addition, cut at the last instant

    Outside leap seconds an instant is a number of nanoseconds, and two
    instants with one number are the same.  A step may be off in two ways: it
    may be longer than the longest step, or lead off the line.  The longest
    step leads off the line from everywhere, so both come to the last instant,
    just as the sum cut there does (`later_of_plain`).  Cut sums add up like
    sums, so two steps are one. -/

namespace Courier.Instant

/-- The nanoseconds from the start of 1970; an instant in a leap second shares its number with one
    outside. -/
def toNanos (t : Instant) : Int := t.secs * 1000000000 + t.nanos

theorem inLeapSecond_eq_false_iff {t : Instant} :
    t.inLeapSecond = false ↔ t.nanos < 1000000000 := by
  rw [inLeapSecond, Span.perSecond, decide_eq_false_iff_not, Nat.not_le]

/-- Outside leap seconds, instants with equal numbers are equal. -/
theorem eq_of_toNanos_eq {a b : Instant} (ha : a.inLeapSecond = false) (hb : b.inLeapSecond = false)
    (h : a.toNanos = b.toNanos) : a = b := by
  obtain ⟨secs, nanos⟩ := a
  obtain ⟨secs', nanos'⟩ := b
  rw [inLeapSecond_eq_false_iff] at ha hb
  simp only [toNanos] at *
  have sameSecs : secs = secs' := by omega
  have sameNanos : nanos = nanos' := by omega
  subst sameSecs sameNanos
  rfl

/-- Outside leap seconds, the order of instants is that of their numbers. -/
theorem isBefore_iff_toNanos_lt {a b : Instant} (ha : a.inLeapSecond = false)
    (hb : b.inLeapSecond = false) : a.isBefore b = true ↔ a.toNanos < b.toNanos := by
  rw [inLeapSecond_eq_false_iff] at ha hb
  rw [isBefore_iff, toNanos, toNanos]
  omega

/-- **STEPS SATURATE**: from outside a leap second, moving on leads outside of one, and adds the
    nanoseconds of the span up to the last instant. -/
theorem later_of_plain {t : Instant} (plain : t.inLeapSecond = false) (s : Span) :
    (t.later s).inLeapSecond = false ∧
      (t.later s).toNanos = min (t.toNanos + s.toNanos) latest.toNanos := by
  have start := t.secs_ge
  have last : latest.toNanos = 8210266876799999999999 := by decide
  have step : (min s longestStep).toNanos = min s.toNanos 9223372036854775807000000 :=
    toNanos_min s longestStep
  rw [inLeapSecond_eq_false_iff] at plain
  rw [inLeapSecond_eq_false_iff, last, later]
  cases moved : t.later? (min s longestStep) with
  | none =>
      have out := later?_eq_none moved
      rw [Option.getD_none, last, toNanos]
      refine ⟨by decide, ?_⟩
      split at out <;> omega
  | some u =>
      have parts := later?_eq_some moved
      have inRange := u.secs_le
      rw [Option.getD_some, toNanos, toNanos]
      split at parts <;> omega

/-- Two steps, one behind the other, are the step of their sum. -/
theorem later_later {t : Instant} (plain : t.inLeapSecond = false) {a b sum : Span}
    (added : a.add? b = some sum) : (t.later a).later b = t.later sum := by
  have length : sum.toNanos = a.toNanos + b.toNanos :=
    Span.toNanos_of_ofNanos? ((Span.add?_eq a b).symm.trans added)
  obtain ⟨plainFirst, first⟩ := later_of_plain plain a
  obtain ⟨plainSecond, second⟩ := later_of_plain plainFirst b
  obtain ⟨plainSum, direct⟩ := later_of_plain plain sum
  refine eq_of_toNanos_eq plainSecond plainSum ?_
  omega

end Courier.Instant
