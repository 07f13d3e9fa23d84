import Courier.Proofs.Local.Window

/-! # Lifetimes — what is in the cache was granted, and is dated from its request

    A grant comes to a credential from the reading of the clock just before
    the request that it answers: not from an earlier attempt of the same
    refresh, and not from the time of the answer.  So a call that finds a
    usable credential in the cache reads the clock before that reading plus
    the lifetime, cut to the ceiling (`Covers`), whatever the clock does. -/

namespace Courier

namespace RefreshEvent

/-- Whether a request that was sent at a reading of the clock was answered with a grant. -/
def Grants (requestedAt : Instant) (grant : Grant) (course : List RefreshEvent) : Prop :=
  [.sent requestedAt, .answered (.ok grant)] <:+: course

/-- Whether a token was granted in the course of a refresh, and a reading of the clock is before the
    end of its lifetime, cut to a ceiling and counted from the reading just before the request. -/
def Covers (ceiling : Span) (course : List RefreshEvent) (token : String) (now : Instant) : Prop :=
  ∃ requestedAt grant, Grants requestedAt grant course ∧ grant.token = token ∧
    now.isBefore (requestedAt.later (min grant.lifetime ceiling)) = true

end RefreshEvent

/-- What a note tells about the refresh of a call. -/
def Note.heardBy? (i : Nat) : Note → Option RefreshEvent
  | heard j event => if j = i then some event else none
  | _ => none

/-- The course of the refresh of a call, as far as a log tells. -/
def Note.courseOf (i : Nat) (log : List Note) : List RefreshEvent := log.filterMap (heardBy? i)

namespace Note

/-- The course of a call goes on with the log. -/
theorem courseOf_append (i : Nat) (log notes : List Note) :
    courseOf i (log ++ notes) = courseOf i log ++ courseOf i notes :=
  List.filterMap_append

theorem courseOf_heard (i : Nat) (event : RefreshEvent) :
    courseOf i [.heard i event] = [event] := by
  simp only [courseOf, List.filterMap_cons, List.filterMap_nil, heardBy?, if_true]

/-- The course of a call has nothing of other calls. -/
theorem courseOf_concat (log : List Note) {i : Nat} {note : Note} (other : heardBy? i note = none) :
    courseOf i (log ++ [note]) = courseOf i log := by
  rw [courseOf_append, courseOf, courseOf, List.filterMap_cons_none other]
  exact List.append_nil _

/-- A log that does not tell of the refresh of a call. -/
theorem courseOf_eq_nil {i : Nat} {log : List Note} (unheard : ∀ event, .heard i event ∉ log) :
    courseOf i log = [] := by
  refine List.filterMap_eq_nil_iff.mpr fun note mem => ?_
  cases note with
  | heard j event =>
      refine if_neg ?_
      rintro rfl
      exact unheard event mem
  | arrived j => rfl
  | took j now => rfl
  | refreshed j c => rfl
  | returned j result => rfl
  | left j => rfl

end Note

namespace Tally

variable {maxAge : Span} {log : List Note} {c : Credential}

/-- Whether a credential is what a grant to a call has come to. -/
def Issued (maxAge : Span) (log : List Note) (i : Nat) (c : Credential) : Prop :=
  ∃ requestedAt grant, RefreshEvent.Grants requestedAt grant (Note.courseOf i log) ∧
    c = .issued grant.token grant.lifetime maxAge requestedAt

/-- A credential issued to a call is issued to it in a longer log. -/
theorem Issued.append {i : Nat} (h : Issued maxAge log i c) (more : List Note) :
    Issued maxAge (log ++ more) i c := by
  obtain ⟨requestedAt, grant, granted, made⟩ := h
  refine ⟨requestedAt, grant, ?_, made⟩
  rw [Note.courseOf_append]
  exact granted.trans (List.infix_append' [] _ _)

/-- A usable credential that was issued covers its token. -/
theorem Issued.covers {i : Nat} {now : Instant} (h : Issued maxAge log i c)
    (usable : c.isUsableAt now = true) :
    RefreshEvent.Covers maxAge (Note.courseOf i log) c.token now := by
  obtain ⟨requestedAt, grant, granted, rfl⟩ := h
  exact ⟨requestedAt, grant, granted, rfl, (Bool.and_eq_true_iff.mp usable).2⟩

/-- A log tells the whole course of the refresh that is under way. -/
theorem courseOf_of_refreshing (lawful : History.Lawful after (Admits maxAge) {} log) {i : Nat}
    {now : Instant} {heard : List RefreshEvent}
    (inside : (ofLog log).inside = .refreshing i now heard) : Note.courseOf i log = heard := by
  induction log using List.reverseRecOn generalizing heard with
  | nil => exact nomatch inside
  | append_singleton log note ih =>
      obtain ⟨earlier, admits, -⟩ := History.lawful_append.mp lawful
      rw [ofLog_append] at inside
      cases note with
      | heard j event =>
          obtain ⟨reading, course, refreshing⟩ := admits
          have told : (ofLog log).inside.hear event = .refreshing i now heard := inside
          rw [show (ofLog log).inside = .refreshing j reading course from refreshing] at told
          obtain ⟨rfl, rfl, rfl⟩ := Inside.refreshing.inj told
          rw [Note.courseOf_append, Note.courseOf_heard, ih earlier refreshing]
      | took j reading =>
          refine (Note.courseOf_concat log rfl).trans ?_
          rcases (ofLog log).enter_cases j reading with ⟨c, -, -, answers⟩ | ⟨-, refreshes⟩
          · exact nomatch answers.symm.trans inside
          · obtain ⟨rfl, -, rfl⟩ := Inside.refreshing.inj (refreshes.symm.trans inside)
            -- whoever has heard of a refresh has taken the lock already
            exact Note.courseOf_eq_nil fun event mem => admits.2 (taken_of_heard earlier mem)
      | arrived j =>
          exact (Note.courseOf_concat log rfl).trans (ih earlier inside)
      | refreshed j d => exact nomatch inside
      | returned j result => exact nomatch inside
      | left j =>
          exact (Note.courseOf_concat log rfl).trans
            (ih earlier (Inside.refreshing_of_leave inside))

/-- A credential that a refresh succeeds with was issued to its call. -/
theorem issued_of_admits (lawful : History.Lawful after (Admits maxAge) {} log) {i : Nat}
    (admits : (ofLog log).Admits maxAge (.refreshed i c)) : Issued maxAge log i c := by
  obtain ⟨now, earlier, requestedAt, grant, refreshing, made⟩ := admits
  refine ⟨requestedAt, grant, ?_, made⟩
  rw [courseOf_of_refreshing lawful refreshing]
  exact (List.suffix_append _ _).isInfix

/-- The credential in the cache was issued to a call. -/
theorem exists_issued_of_latest (lawful : History.Lawful after (Admits maxAge) {} log)
    (latest : (ofLog log).latest = some c) : ∃ i, Issued maxAge log i c := by
  induction log using List.reverseRecOn with
  | nil => exact nomatch latest
  | append_singleton log note ih =>
      obtain ⟨earlier, admits, -⟩ := History.lawful_append.mp lawful
      rw [ofLog_append] at latest
      by_cases success : ∃ i d, note = .refreshed i d
      · obtain ⟨i, d, rfl⟩ := success
        obtain rfl : d = c := Option.some.inj latest
        exact ⟨i, (issued_of_admits earlier admits).append _⟩
      · have quiet : ∀ i d, note ≠ .refreshed i d := fun i d same => success ⟨i, d, same⟩
        obtain ⟨i, issued⟩ := ih earlier ((latest_after quiet).symm.trans latest)
        exact ⟨i, issued.append _⟩

/-- A call that is about to return a token has just been granted it, or has just found it in the
    cache, in a usable credential that was issued to a call. -/
theorem answering_cases (lawful : History.Lawful after (Admits maxAge) {} log) {j : Nat}
    (inside : (ofLog log).inside = .answering j c) :
    (∃ before, log = before ++ [.refreshed j c] ∧ Issued maxAge before j c) ∨
    ∃ before now i, log = before ++ [.took j now] ∧ Issued maxAge before i c ∧
      c.isUsableAt now = true := by
  induction log using List.reverseRecOn with
  | nil => exact nomatch inside
  | append_singleton log note _ =>
      obtain ⟨earlier, admits, -⟩ := History.lawful_append.mp lawful
      rw [ofLog_append] at inside
      rcases answering_of_after inside with answering | ⟨now, rfl, latest, usable⟩ | rfl
      · -- it returns the token next, and then nobody is inside
        rw [eq_returned_of_admits answering admits] at inside
        exact nomatch inside
      · obtain ⟨i, issued⟩ := exists_issued_of_latest earlier latest
        exact Or.inr ⟨log, now, i, rfl, issued, usable⟩
      · exact Or.inl ⟨log, rfl, issued_of_admits earlier admits⟩

end Tally

namespace Crowd

/-- Whoever returns a token was granted it just before, or found it in the cache as it took the
    lock; the grant of the token that it found covers the reading of the clock by then. -/
theorem returned_cases {settings : RefreshSettings} {acts : List Act} {earlier later : List Note}
    {j : Nat} {token : String}
    (log : ((new settings).run acts).log = earlier ++ .returned j (.ok token) :: later) :
    (∃ requestedAt grant, RefreshEvent.Grants requestedAt grant (Note.courseOf j earlier) ∧
      grant.token = token) ∨
    ∃ before now i, earlier = before ++ [.took j now] ∧
      RefreshEvent.Covers settings.maxAge (Note.courseOf i before) token now := by
  have obeyed := obeyed_run settings acts
  rw [log] at obeyed
  obtain ⟨c, answering, rfl⟩ := obeyed.split.1
  rcases Tally.answering_cases (History.lawful_append.mp obeyed).1 answering with
    ⟨before, rfl, issued⟩ | ⟨before, now, i, rfl, issued, usable⟩
  · obtain ⟨requestedAt, grant, granted, rfl⟩ := issued.append [.refreshed j c]
    exact Or.inl ⟨requestedAt, grant, granted, rfl⟩
  · exact Or.inr ⟨before, now, i, rfl, issued.covers usable⟩

end Crowd

end Courier
