import Courier.Proofs.Time.Saturation
import Courier.Time.Clock
import Courier.Token.Credential

/-! # Expiry — a credential lasts as long as its lifetime, to the nanosecond

    Credentials are dated and clocks are moved by the same step on the line of
    instants, which adds and stops at the last instant.  So the two meet: a
    clock that is moved on from the grant reaches the expiry when it has been
    moved by the lifetime, or has come to the end of the line. -/

namespace Courier

namespace Clock

/-- Moving on twice is moving on by the sum. -/
theorem advance_advance {c : Clock} (plain : c.now.inLeapSecond = false) {a b sum : Span}
    (added : a.add? b = some sum) : (c.advance a).advance b = c.advance sum :=
  congrArg mk (Instant.later_later plain added)

end Clock

namespace Credential

/-- With a token, a credential is usable before its expiry and no longer. -/
theorem isUsableAt_of_filled {c : Credential} (filled : c.token ≠ "") (now : Instant) :
    c.isUsableAt now = now.isBefore c.expiresAt := by
  have empty : c.token.isEmpty = false := by
    rw [Bool.eq_false_iff, ne_eq, String.isEmpty_iff]
    exact filled
  rw [isUsableAt, empty, Bool.not_false, Bool.true_and]

/-- **EXPIRY IS EXACT AND SATURATING**: let a credential be granted outside of leap seconds.  Its
    expiry is the instant of the grant plus the lifetime, cut to the ceiling, or the last instant if
    that comes first, to the nanosecond.  A clock moves on by the same law, so that two motions are
    one motion by their sum.  With a token, the credential is usable on a clock that has been moved
    on from the grant exactly while that was by less than the lifetime and the clock has not come to
    the last instant. -/
theorem expiry_is_exact (token : String) (lifetime maxAge : Span) {now : Instant}
    (plain : now.inLeapSecond = false) :
    let clock : Clock := ⟨now⟩
    let allowed := min lifetime maxAge
    let c := issued token lifetime maxAge now
    let last := Instant.latest.toNanos
    (c.expiresAt.inLeapSecond = false ∧
        c.expiresAt.toNanos = min (now.toNanos + allowed.toNanos) last) ∧
      (∀ d, (clock.advance d).now.inLeapSecond = false ∧
        (clock.advance d).now.toNanos = min (now.toNanos + d.toNanos) last) ∧
      (∀ a b sum, a.add? b = some sum → (clock.advance a).advance b = clock.advance sum) ∧
      (token ≠ "" → ∀ d,
        c.isUsableAt (clock.advance d).now = true ↔ d < allowed ∧ now.toNanos + d.toNanos < last) := by
  intro clock allowed c last
  obtain ⟨plainExpiry, expiry⟩ := Instant.later_of_plain plain allowed
  refine ⟨⟨plainExpiry, expiry⟩, Instant.later_of_plain plain,
    fun a b sum added => Clock.advance_advance (c := clock) plain added, ?_⟩
  intro filled d
  obtain ⟨plainReading, reading⟩ := Instant.later_of_plain plain d
  have shorter : d < allowed ↔ d.toNanos < allowed.toNanos := Iff.rfl
  have usable : c.isUsableAt (clock.advance d).now = (now.later d).isBefore (now.later allowed) :=
    isUsableAt_of_filled filled _
  rw [usable, shorter, Instant.isBefore_iff_toNanos_lt plainReading plainExpiry, reading, expiry]
  show _ ↔ _ ∧ _ < Instant.latest.toNanos
  omega

/-- Half a second before the end of the line, an endless lifetime lasts as long as the line does. -/
theorem expiry_is_exact_at_the_end :
    let now : Instant := ⟨8210266876799, 500000000, by decide, by decide, by decide, by decide⟩
    let c := issued "tok" .longest .longest now
    now.inLeapSecond = false ∧ c.expiresAt.toNanos = Instant.latest.toNanos ∧
      c.isUsableAt ((⟨now⟩ : Clock).advance ⟨0, 499999998, by decide, by decide⟩).now = true ∧
      c.isUsableAt ((⟨now⟩ : Clock).advance ⟨0, 499999999, by decide, by decide⟩).now = false := by
  intro now c
  have plain : now.inLeapSecond = false := by decide
  obtain ⟨⟨-, expiry⟩, -, -, usable⟩ := expiry_is_exact "tok" .longest .longest plain
  refine ⟨plain, expiry.trans (by decide), ?_, ?_⟩
  · exact (usable (by decide) _).mpr (by decide)
  · exact Bool.eq_false_iff.mpr fun still => absurd ((usable (by decide) _).mp still) (by decide)

end Credential

end Courier
