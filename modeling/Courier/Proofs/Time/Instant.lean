import Courier.Time.Instant

/-! # Moving on — a span that is not empty leads to a later instant

    Seconds and nanoseconds are carried apart, and an instant may stand in
    a leap second, which has nanoseconds of its own.  Neither the carry nor
    leaving the leap second loses ground: only the end of the line of
    instants does. -/

namespace Courier.Instant

/-- The parts of an instant are accepted, and make the same instant. -/
theorem ofParts?_self (t : Instant) : ofParts? t.secs t.nanos = some t := by
  rw [ofParts?, dif_pos ⟨⟨t.secs_ge, t.secs_le⟩, t.nanos_lt, t.leap⟩]

/-- An instant made of parts has them. -/
theorem ofParts?_eq_some {secs : Int} {nanos : Nat} {t : Instant}
    (h : ofParts? secs nanos = some t) : t.secs = secs ∧ t.nanos = nanos := by
  rw [ofParts?] at h
  split at h
  · rw [← Option.some.inj h]
    exact ⟨rfl, rfl⟩
  · exact nomatch h

/-- Parts that make no instant are out of range. -/
theorem not_of_ofParts?_eq_none {secs : Int} {nanos : Nat} (h : ofParts? secs nanos = none) :
    ¬((-8334601228800 ≤ secs ∧ secs ≤ 8210266876799) ∧ nanos < 2000000000 ∧
      (1000000000 ≤ nanos → secs % 60 = 59)) := by
  rw [ofParts?] at h
  split at h
  · exact nomatch h
  · next out => exact out

/-- Instants are compared by their seconds, then their nanoseconds. -/
theorem isBefore_iff {a b : Instant} :
    a.isBefore b = true ↔ a.secs < b.secs ∨ (a.secs = b.secs ∧ a.nanos < b.nanos) := by
  simp only [isBefore, Bool.or_eq_true, Bool.and_eq_true, decide_eq_true_eq, beq_iff_eq]

/-- What comes before an instant comes before everything that does not. -/
theorem isBefore_of_not_isBefore {a b c : Instant} (before : a.isBefore c = true)
    (behind : b.isBefore c = false) : a.isBefore b = true := by
  rw [← Bool.not_eq_true, isBefore_iff] at behind
  rw [isBefore_iff] at *
  omega

/-- Carrying keeps the sum of nanoseconds, and leaves a remainder below one second. -/
theorem carry?_eq_some {secs : Int} {nanos : Nat} {s : Span} {t : Instant}
    (below : nanos < 1000000000) (h : carry? secs nanos s = some t) :
    t.secs * 1000000000 + t.nanos = secs * 1000000000 + nanos + s.toNanos
      ∧ t.nanos < 1000000000 := by
  have hs := s.nanos_lt
  rw [carry?, Span.perSecond] at h
  rw [Span.toNanos, Span.perSecond]
  split at h
  · obtain ⟨h1, h2⟩ := ofParts?_eq_some h
    omega
  · obtain ⟨h1, h2⟩ := ofParts?_eq_some h
    omega

/-- Carrying fails behind the end of the line only. -/
theorem carry?_eq_none {secs : Int} {nanos : Nat} {s : Span} (below : nanos < 1000000000)
    (start : -8334601228800 ≤ secs) (h : carry? secs nanos s = none) :
    8210266876800 * 1000000000 ≤ secs * 1000000000 + nanos + s.toNanos := by
  have hs := s.nanos_lt
  rw [carry?, Span.perSecond] at h
  rw [Span.toNanos, Span.perSecond]
  split at h
  · have out := not_of_ofParts?_eq_none h
    omega
  · have out := not_of_ofParts?_eq_none h
    omega

/-- A leap second is left by a whole second, or by getting past its own nanoseconds; a span that
    stays inside it is one of nanoseconds alone. -/
theorem later?_cases (t : Instant) (s : Span) :
    (t.nanos < 1000000000 ∧ t.later? s = carry? t.secs t.nanos s) ∨
    (1000000000 ≤ t.nanos ∧ 2000000000 ≤ t.nanos + s.toNanos ∧
      t.later? s = carry? t.secs (t.nanos - 1000000000) s) ∨
    (1000000000 ≤ t.nanos ∧ t.nanos + s.toNanos < 2000000000 ∧ s.toNanos = s.nanos ∧
      t.later? s = ofParts? t.secs (t.nanos + s.nanos)) := by
  have hn := t.nanos_lt
  have hs := s.nanos_lt
  rw [later?, inLeapSecond, Span.toNanos, Span.perSecond] at *
  by_cases leap : 1000000000 ≤ t.nanos
  · rw [if_pos (decide_eq_true leap)]
    by_cases leaves : 0 < s.secs ∨ 2 * 1000000000 ≤ t.nanos + s.nanos
    · rw [if_pos leaves]
      exact Or.inr (Or.inl ⟨leap, by omega, rfl⟩)
    · rw [if_neg leaves]
      exact Or.inr (Or.inr ⟨leap, by omega, by omega, rfl⟩)
  · rw [if_neg (by simpa using leap)]
    exact Or.inl ⟨Nat.lt_of_not_le leap, rfl⟩

/-- Moving on keeps the sum of nanoseconds, of which a leap second that is left has a second too
    many; a span that stays inside a leap second is added to its nanoseconds. -/
theorem later?_eq_some {t u : Instant} {s : Span} (h : t.later? s = some u) :
    (u.secs * 1000000000 + u.nanos + (if 1000000000 ≤ t.nanos then 1000000000 else 0)
          = t.secs * 1000000000 + t.nanos + s.toNanos ∧
        u.nanos < 1000000000 ∧ (1000000000 ≤ t.nanos → 2000000000 ≤ t.nanos + s.toNanos)) ∨
      (1000000000 ≤ t.nanos ∧ t.nanos + s.toNanos < 2000000000 ∧ u.secs = t.secs ∧
        u.nanos = t.nanos + s.toNanos) := by
  have hn := t.nanos_lt
  rcases later?_cases t s with ⟨plain, same⟩ | ⟨leap, leaves, same⟩ | ⟨leap, stays, few, same⟩
  · rw [same] at h
    obtain ⟨sum, below⟩ := carry?_eq_some plain h
    rw [if_neg (Nat.not_le.mpr plain)]
    omega
  · rw [same] at h
    obtain ⟨sum, below⟩ := carry?_eq_some (by omega) h
    rw [if_pos leap]
    omega
  · rw [same] at h
    obtain ⟨secs, nanos⟩ := ofParts?_eq_some h
    exact Or.inr ⟨leap, stays, secs, few.symm ▸ nanos⟩

/-- Moving on fails behind the end of the line only. -/
theorem later?_eq_none {t : Instant} {s : Span} (h : t.later? s = none) :
    8210266876800 * 1000000000 + (if 1000000000 ≤ t.nanos then 1000000000 else 0)
        ≤ t.secs * 1000000000 + t.nanos + s.toNanos ∧
      (1000000000 ≤ t.nanos → 2000000000 ≤ t.nanos + s.toNanos) := by
  have hn := t.nanos_lt
  rcases later?_cases t s with ⟨plain, same⟩ | ⟨leap, leaves, same⟩ | ⟨leap, stays, few, same⟩
  · rw [same] at h
    have out := carry?_eq_none plain t.secs_ge h
    rw [if_neg (Nat.not_le.mpr plain)]
    omega
  · rw [same] at h
    have out := carry?_eq_none (by omega) t.secs_ge h
    rw [if_pos leap]
    omega
  · -- inside a leap second every sum of nanoseconds is an instant
    rw [same] at h
    have out := not_of_ofParts?_eq_none h
    have start := t.secs_ge
    have inRange := t.secs_le
    have minute := t.leap leap
    omega

/-- Moving on by a span that is not empty leads to a later instant, in leap seconds too. -/
theorem isBefore_of_later? {t u : Instant} {s : Span} (h : t.later? s = some u)
    (pos : 0 < s.toNanos) : t.isBefore u = true := by
  have parts := later?_eq_some h
  have hn := t.nanos_lt
  rw [isBefore_iff]
  split at parts <;> omega

/-- Moving on further does not lead to an earlier instant. -/
theorem isBefore_of_later?_le {t u v now : Instant} {s s' : Span} (h : t.later? s = some u)
    (h' : t.later? s' = some v) (le : s.toNanos ≤ s'.toNanos) (before : now.isBefore u = true) :
    now.isBefore v = true := by
  have parts := later?_eq_some h
  have parts' := later?_eq_some h'
  rw [isBefore_iff] at before ⊢
  split at parts <;> split at parts' <;> omega

theorem toNanos_min (a b : Span) : (min a b).toNanos = min a.toNanos b.toNanos := by
  show (if a.toNanos ≤ b.toNanos then a else b).toNanos = _
  split <;> omega

/-- Unless it stops at the end of the line, moving on leads to a later instant. -/
theorem isBefore_later {t : Instant} {s : Span} (pos : 0 < s.toNanos)
    (inside : t.later s ≠ latest) : t.isBefore (t.later s) = true := by
  rw [later] at inside ⊢
  cases h : t.later? (min s longestStep) with
  | none =>
      rw [h] at inside
      exact absurd rfl inside
  | some u =>
      refine isBefore_of_later? h ?_
      rw [toNanos_min]
      exact Nat.lt_min.mpr ⟨pos, by decide⟩

/-- What is before an instant some span later is before one a longer span later, unless the first is
    in the leap second at the very end of the line. -/
theorem isBefore_later_of_le {t now : Instant} {s s' : Span} (le : s.toNanos ≤ s'.toNanos)
    (before : now.isBefore (t.later s) = true) (inside : latest.isBefore (t.later s) = false) :
    now.isBefore (t.later s') = true := by
  have shorter : (min s longestStep).toNanos ≤ (min s' longestStep).toNanos := by
    rw [toNanos_min, toNanos_min]
    omega
  rw [later] at before inside ⊢
  cases h' : t.later? (min s' longestStep) with
  | none =>
      -- the longer span leads off the line, so to its end
      rw [Option.getD_none]
      cases behind : now.isBefore latest with
      | true => rfl
      | false =>
          have past := isBefore_of_not_isBefore before inside
          exact absurd past (by rw [behind]; exact nofun)
  | some v =>
      rw [Option.getD_some]
      cases h : t.later? (min s longestStep) with
      | none =>
          -- where a shorter span leads off the line, a longer one does not stay on it
          have out := later?_eq_none h
          have parts := later?_eq_some h'
          have inRange := v.secs_le
          split at out <;> split at parts <;> omega
      | some u =>
          rw [h] at before
          exact isBefore_of_later?_le h h' shorter before

end Courier.Instant
