import Courier.Proofs.Local.Log
import Courier.Proofs.Token.Credential

/-! # Windows — one refresh as long as a credential is usable

    Calls of one provider take the lock one behind the other, and whoever takes
    it finds what the last success has left.  So a success settles every call
    that takes the lock while its credential is usable, whenever that call
    arrived; the next success takes a reading of the clock under the lock at
    which the credential was not usable.

    The cache holds one credential.  Where a later success has replaced it and
    the clock goes back, an earlier credential may be usable again, but it is
    gone (`replaced_credential_is_gone`). -/

namespace Courier

namespace Tally

variable {maxAge : Span} {t : Tally} {c : Credential} {note : Note} {notes : List Note} {j : Nat}

/-! ## Between two successes -/

theorem latest_after (quiet : ∀ i d, note ≠ .refreshed i d) : (t.after note).latest = t.latest := by
  cases note with
  | refreshed i d => exact absurd rfl (quiet i d)
  | arrived i => rfl
  | took i now => rfl
  | heard i event => rfl
  | returned i result => rfl
  | left i => rfl

/-- Only a success replaces the credential of the last one. -/
theorem latest_foldl (quiet : ∀ i d, .refreshed i d ∉ notes) :
    (notes.foldl after t).latest = t.latest := by
  induction notes generalizing t with
  | nil => rfl
  | cons note later ih =>
      refine (ih fun i d mem => quiet i d (.tail _ mem)).trans (latest_after fun i d same => ?_)
      exact quiet i d (same ▸ .head _)

/-- Whoever refreshes behind a success, without another one in between, has taken the lock since,
    at a reading at which the credential of that success was not usable. -/
theorem missed_of_refreshing (latest : t.latest = some c)
    (away : ∀ i now heard, t.inside ≠ .refreshing i now heard)
    (quiet : ∀ i d, .refreshed i d ∉ notes) {now : Instant} {heard : List RefreshEvent}
    (inside : (notes.foldl after t).inside = .refreshing j now heard) :
    .took j now ∈ notes ∧ c.isUsableAt now = false := by
  induction notes using List.reverseRecOn generalizing heard with
  | nil => exact absurd inside (away j now heard)
  | append_singleton notes note ih =>
      have quiet' : ∀ i d, .refreshed i d ∉ notes := fun i d mem =>
        quiet i d (List.mem_append_left _ mem)
      rw [List.foldl_append] at inside
      rcases refreshing_of_after inside with ⟨earlier, stood⟩ | ⟨rfl, unusable⟩
      · exact (ih quiet' stood).imp_left (List.mem_append_left _)
      · exact ⟨List.mem_append_right _ (.head _),
          unusable c ((latest_foldl quiet').trans latest)⟩

/-! ## Who hears of a refresh -/

/-- A call that is about to return the token of a credential does so next. -/
theorem eq_returned_of_admits (inside : t.inside = .answering j c)
    (admits : t.Admits maxAge note) : note = .returned j (.ok c.token) := by
  cases note with
  | arrived i =>
      rw [Admits, inside] at admits
      exact absurd admits id
  | took i now => exact nomatch inside.symm.trans admits.1
  | heard i event =>
      obtain ⟨now, heard, refreshing⟩ := admits
      exact nomatch inside.symm.trans refreshing
  | refreshed i d =>
      obtain ⟨now, earlier, requestedAt, grant, refreshing, -⟩ := admits
      exact nomatch inside.symm.trans refreshing
  | returned i result =>
      cases result with
      | error cause =>
          obtain ⟨now, heard, refreshing⟩ := admits
          exact nomatch inside.symm.trans refreshing
      | ok token =>
          obtain ⟨d, answering, rfl⟩ := admits
          obtain ⟨rfl, rfl⟩ := Inside.answering.inj (inside.symm.trans answering)
          rfl
  | left i =>
      rw [Admits, inside] at admits
      exact absurd admits id

/-- Whether a call has taken the lock and does not refresh, so that it never will. -/
def IsPast (t : Tally) (j : Nat) : Prop :=
  j ∈ t.taken ∧ ∀ now heard, t.inside ≠ .refreshing j now heard

theorem mem_taken_after (taken : j ∈ t.taken) (note : Note) : j ∈ (t.after note).taken := by
  cases note with
  | took i now => exact .tail _ taken
  | arrived i => exact taken
  | heard i event => exact taken
  | refreshed i d => exact taken
  | returned i result => exact taken
  | left i => exact taken

theorem IsPast.after (past : t.IsPast j) (admits : t.Admits maxAge note) :
    (t.after note).IsPast j := by
  obtain ⟨taken, away⟩ := past
  refine ⟨mem_taken_after taken note, fun now heard inside => ?_⟩
  rcases refreshing_of_after inside with ⟨earlier, stood⟩ | ⟨rfl, -⟩
  · exact away now earlier stood
  · -- nobody takes the lock twice
    exact admits.2 taken

/-- A call that does not refresh any more hears nothing of a refresh. -/
theorem not_heard_of_isPast (lawful : History.Lawful after (Admits maxAge) t notes)
    (past : t.IsPast j) (event : RefreshEvent) : .heard j event ∉ notes := by
  intro mem
  obtain ⟨earlier, later, rfl⟩ := List.append_of_mem mem
  have there := (History.lawful_append.mp lawful).1.keeps (P := fun t => t.IsPast j) past
    fun t note _ past admits => past.after admits
  obtain ⟨now, heard, refreshing⟩ := lawful.split.1
  exact there.2 now heard refreshing

theorem mem_taken_foldl (taken : j ∈ t.taken) (notes : List Note) :
    j ∈ (notes.foldl after t).taken := by
  induction notes generalizing t with
  | nil => exact taken
  | cons note later ih => exact ih (mem_taken_after taken note)

/-- Whoever refreshes has taken the lock. -/
theorem taken_of_refreshing (log : List Note) {now : Instant} {heard : List RefreshEvent}
    (inside : (ofLog log).inside = .refreshing j now heard) : j ∈ (ofLog log).taken := by
  induction log using List.reverseRecOn generalizing heard with
  | nil => exact nomatch inside
  | append_singleton log note ih =>
      rw [ofLog_append] at inside ⊢
      rcases refreshing_of_after inside with ⟨earlier, stood⟩ | ⟨rfl, -⟩
      · exact mem_taken_after (ih stood) note
      · exact .head _

/-- Whoever has heard of a refresh has taken the lock before. -/
theorem taken_of_heard (lawful : History.Lawful after (Admits maxAge) {} notes)
    {event : RefreshEvent} (mem : .heard j event ∈ notes) : j ∈ (ofLog notes).taken := by
  obtain ⟨earlier, later, rfl⟩ := List.append_of_mem mem
  obtain ⟨now, heard, refreshing⟩ := lawful.split.1
  rw [ofLog_append]
  exact mem_taken_foldl (taken_of_refreshing earlier refreshing) _

/-! ## Behind a success that stays usable -/

/-- Whether a credential is the one in the cache, and nobody refreshes. -/
def Settled (c : Credential) (t : Tally) : Prop :=
  t.latest = some c ∧ (t.inside = .nobody ∨ ∃ i, t.inside = .answering i c)

/-- After a refresh its credential is settled. -/
theorem settled_refreshed (t : Tally) (i : Nat) (c : Credential) :
    (t.after (.refreshed i c)).Settled c :=
  ⟨rfl, Or.inr ⟨i, rfl⟩⟩

/-- While a credential is settled, nobody refreshes. -/
theorem Settled.ne_refreshing (settled : t.Settled c) (j : Nat) (now : Instant)
    (heard : List RefreshEvent) : t.inside ≠ .refreshing j now heard := by
  intro refreshing
  rcases settled.2 with nobody | ⟨i, answering⟩
  · exact nomatch nobody.symm.trans refreshing
  · exact nomatch answering.symm.trans refreshing

/-- What may happen behind a success is no refresh, and no answer but its token. -/
theorem Settled.of_admits (settled : t.Settled c) (admits : t.Admits maxAge note) :
    (∀ i event, note ≠ .heard i event) ∧ (∀ i d, note ≠ .refreshed i d) ∧
      ∀ i result, note = .returned i result → result = .ok c.token := by
  refine ⟨?_, ?_, ?_⟩
  · rintro i event rfl
    obtain ⟨now, heard, refreshing⟩ := admits
    exact settled.ne_refreshing i now heard refreshing
  · rintro i d rfl
    obtain ⟨now, earlier, requestedAt, grant, refreshing, -⟩ := admits
    exact settled.ne_refreshing i now _ refreshing
  · rintro i result rfl
    cases result with
    | error cause =>
        obtain ⟨now, heard, refreshing⟩ := admits
        exact absurd refreshing (settled.ne_refreshing i now heard)
    | ok token =>
        obtain ⟨d, answering, rfl⟩ := admits
        rcases settled.2 with nobody | ⟨j, answering'⟩
        · exact nomatch nobody.symm.trans answering
        · obtain ⟨-, rfl⟩ := Inside.answering.inj (answering.symm.trans answering')
          rfl

/-- A success settles the crowd as long as whoever takes the lock finds its credential usable. -/
theorem Settled.after (settled : t.Settled c) (admits : t.Admits maxAge note)
    (usable : ∀ i now, note = .took i now → c.isUsableAt now = true) :
    (t.after note).Settled c := by
  obtain ⟨unheard, unrefreshed, -⟩ := settled.of_admits admits
  obtain ⟨latest, inside⟩ := settled
  cases note with
  | arrived i => exact ⟨latest, inside⟩
  | took i now => exact ⟨latest, Or.inr ⟨i, enter_of_usable latest (usable i now rfl) i⟩⟩
  | heard i event => exact absurd rfl (unheard i event)
  | refreshed i d => exact absurd rfl (unrefreshed i d)
  | returned i result => exact ⟨latest, Or.inl rfl⟩
  | left i =>
      refine ⟨latest, ?_⟩
      rcases inside with nobody | ⟨j, answering⟩
      · exact Or.inl (congrArg (Inside.leave i) nobody)
      · exact Or.inr ⟨j, congrArg (Inside.leave i) answering⟩

/-- Where everybody who takes the lock finds the credential of a success usable, there are no
    refreshes behind it, and no answers but its token. -/
theorem Settled.of_lawful (settled : t.Settled c)
    (lawful : History.Lawful Tally.after (Admits maxAge) t notes)
    (usable : ∀ i now, .took i now ∈ notes → c.isUsableAt now = true) :
    (∀ i event, .heard i event ∉ notes) ∧ (∀ i d, .refreshed i d ∉ notes) ∧
      ∀ i result, .returned i result ∈ notes → result = .ok c.token := by
  -- every entry stands where the crowd is settled
  have each : ∀ note ∈ notes, ∃ t : Tally, t.Settled c ∧ t.Admits maxAge note := by
    intro note mem
    obtain ⟨earlier, later, rfl⟩ := List.append_of_mem mem
    refine ⟨_, (History.lawful_append.mp lawful).1.keeps settled ?_, lawful.split.1⟩
    intro t note mem settled admits
    exact settled.after admits fun i now same =>
      usable i now (List.mem_append_left _ (same ▸ mem))
  refine ⟨fun i event mem => ?_, fun i d mem => ?_, fun i result mem => ?_⟩
  · obtain ⟨t, settled, admits⟩ := each _ mem
    exact (settled.of_admits admits).1 i event rfl
  · obtain ⟨t, settled, admits⟩ := each _ mem
    exact (settled.of_admits admits).2.1 i d rfl
  · obtain ⟨t, settled, admits⟩ := each _ mem
    exact (settled.of_admits admits).2.2 i result rfl

/-- Between two successes somebody takes the lock at a reading at which the credential of the first
    is not usable. -/
theorem missed_of_refreshed {t : Tally} {i j : Nat} {d : Credential} {later : List Note}
    (lawful : History.Lawful Tally.after (Admits maxAge) t
      (.refreshed i c :: (notes ++ .refreshed j d :: later)))
    (quiet : ∀ k e, .refreshed k e ∉ notes) :
    ∃ now, .took j now ∈ notes ∧ c.isUsableAt now = false := by
  obtain ⟨now, earlier, requestedAt, grant, refreshing, -⟩ := lawful.2.split.1
  have settled := t.settled_refreshed i c
  exact ⟨now, missed_of_refreshing settled.1 settled.ne_refreshing quiet refreshing⟩

end Tally

/-- Of several successes one is the first. -/
theorem Note.exists_first_refreshed {notes : List Note} {i : Nat} {c : Credential}
    (mem : .refreshed i c ∈ notes) : ∃ earlier j d later,
      notes = earlier ++ .refreshed j d :: later ∧ ∀ k e, .refreshed k e ∉ earlier := by
  induction notes with
  | nil => exact nomatch mem
  | cons note notes ih =>
      by_cases success : ∃ j d, note = .refreshed j d
      · obtain ⟨j, d, rfl⟩ := success
        exact ⟨[], j, d, notes, rfl, fun k e mem => nomatch mem⟩
      · rcases List.mem_cons.mp mem with same | mem
        · exact absurd ⟨i, c, same.symm⟩ success
        · obtain ⟨earlier, j, d, later, rfl, quiet⟩ := ih mem
          refine ⟨note :: earlier, j, d, later, rfl, fun k e mem => ?_⟩
          rcases List.mem_cons.mp mem with same | mem
          · exact success ⟨k, e, same.symm⟩
          · exact quiet k e mem

/-- A credential that is usable at one reading of the clock, and not at another, has expired in
    between. -/
theorem Credential.isBefore_of_isUsableAt {c : Credential} {now reading : Instant}
    (usable : c.isUsableAt now = true) (expired : c.isUsableAt reading = false) :
    now.isBefore reading = true := by
  obtain ⟨token, inTime⟩ := Bool.and_eq_true_iff.mp usable
  refine Instant.isBefore_of_not_isBefore inTime ?_
  rw [isUsableAt, token] at expired
  exact expired

namespace Crowd

variable {settings : RefreshSettings} {acts : List Act} {earlier between later : List Note}
variable {i j : Nat} {c d : Credential} {now : Instant}

/-- The log of every run is lawful. -/
theorem obeyed_run (settings : RefreshSettings) (acts : List Act) :
    Note.Obeyed settings.maxAge ((new settings).run acts).log :=
  (agrees_run settings acts).obeyed

/-- A call that takes the lock while the credential of the last success is usable returns its token
    next, and never hears of a refresh. -/
theorem answers_of_quiet
    (log : ((new settings).run acts).log
      = earlier ++ .refreshed i c :: (between ++ .took j now :: later))
    (usable : c.isUsableAt now = true) (quiet : ∀ k d, .refreshed k d ∉ between) :
    (∃ rest, later = .returned j (.ok c.token) :: rest) ∧
      ∀ event, .heard j event ∉ ((new settings).run acts).log := by
  have agrees := agrees_run settings acts
  have obeyed := agrees.obeyed
  have isOpen := agrees.isOpen
  have split : earlier ++ .refreshed i c :: (between ++ .took j now :: later)
      = (earlier ++ .refreshed i c :: between) ++ .took j now :: later := by
    rw [List.append_assoc]
    rfl
  rw [log, split] at obeyed isOpen ⊢
  obtain ⟨⟨-, untaken⟩, lawful⟩ := obeyed.split
  have latest : (Tally.ofLog (earlier ++ .refreshed i c :: between)).latest = some c := by
    rw [Tally.ofLog_append]
    exact Tally.latest_foldl quiet
  rw [List.foldl_append] at lawful
  -- the call finds that credential, so nothing can happen before it returns the token
  have answers : ((Tally.ofLog (earlier ++ .refreshed i c :: between)).after (.took j now)).inside
      = .answering j c := Tally.enter_of_usable latest usable j
  refine ⟨?_, fun event mem => ?_⟩
  · cases later with
    | nil =>
        rw [Tally.ofLog_append, List.foldl_cons, List.foldl_nil, answers] at isOpen
        exact absurd isOpen id
    | cons note rest =>
        have next := Tally.eq_returned_of_admits answers lawful.1
        exact ⟨rest, by rw [next]⟩
  · rcases List.mem_append.mp mem with mem | mem
    · -- whoever hears of a refresh has taken the lock already
      exact untaken (Tally.taken_of_heard (History.lawful_append.mp obeyed).1 mem)
    · rcases List.mem_cons.mp mem with same | mem
      · exact nomatch same
      · exact Tally.not_heard_of_isPast lawful ⟨.head _, fun reading heard refreshing =>
          nomatch answers.symm.trans refreshing⟩ event mem

/-- Between a success and the next one somebody takes the lock at a reading at which the credential
    of the first is not usable. -/
theorem missed_between
    (log : ((new settings).run acts).log
      = earlier ++ .refreshed i c :: (between ++ .refreshed j d :: later))
    (quiet : ∀ k e, .refreshed k e ∉ between) :
    ∃ now, .took j now ∈ between ∧ c.isUsableAt now = false := by
  have obeyed := obeyed_run settings acts
  rw [log] at obeyed
  exact Tally.missed_of_refreshed (History.lawful_append.mp obeyed).2 quiet

/-- Nobody replaces a credential that is usable at a reading of the clock as long as no reading
    under the lock is later. -/
theorem quiet_of_steady
    (log : ((new settings).run acts).log = earlier ++ .refreshed i c :: (between ++ later))
    (usable : c.isUsableAt now = true)
    (steady : ∀ k reading, .took k reading ∈ between → now.isBefore reading = false) :
    ∀ k d, .refreshed k d ∉ between := by
  intro k d mem
  obtain ⟨first, j, e, rest, rfl, quiet⟩ := Note.exists_first_refreshed mem
  rw [List.append_assoc] at log
  -- the first to replace it has found it expired, at a later reading
  obtain ⟨reading, took, expired⟩ := missed_between log quiet
  have later := steady j reading (List.mem_append_left _ took)
  rw [Credential.isBefore_of_isUsableAt usable expired] at later
  exact nomatch later

/-- **ONE REFRESH PER WINDOW**: a call that takes the lock behind a success, at a reading of the
    clock at which the credential of that success is usable, returns its token and makes no request,
    unless another refresh has succeeded since; and none has where no reading under the lock since
    was a later one.  Between two successes somebody takes the lock at a reading at which the first
    credential is not usable.  Where everybody behind a success finds its credential usable, nobody
    makes another request, and every answer is its token. -/
theorem one_refresh_per_window (settings : RefreshSettings) (acts : List Act) :
    let log := ((new settings).run acts).log
    (∀ earlier i c between j now later,
      log = earlier ++ .refreshed i c :: (between ++ .took j now :: later) →
      c.isUsableAt now = true →
      (∀ k d, .refreshed k d ∉ between) ∨
        (∀ k reading, .took k reading ∈ between → now.isBefore reading = false) →
      (∃ rest, later = .returned j (.ok c.token) :: rest) ∧ ∀ event, .heard j event ∉ log) ∧
    (∀ earlier i c between j d later,
      log = earlier ++ .refreshed i c :: (between ++ .refreshed j d :: later) →
      (∀ k e, .refreshed k e ∉ between) →
      ∃ now, .took j now ∈ between ∧ c.isUsableAt now = false) ∧
    ∀ earlier i c later, log = earlier ++ .refreshed i c :: later →
      (∀ j now, .took j now ∈ later → c.isUsableAt now = true) →
      (∀ j event, .heard j event ∉ later) ∧
        ∀ j result, .returned j result ∈ later → result = .ok c.token := by
  refine ⟨?_, ?_, ?_⟩
  · rintro earlier i c between j now later log usable (quiet | steady)
    · exact answers_of_quiet log usable quiet
    · exact answers_of_quiet log usable (quiet_of_steady log usable steady)
  · intro earlier i c between j d later log quiet
    exact missed_between log quiet
  · intro earlier i c later log usable
    have obeyed := obeyed_run settings acts
    rw [log] at obeyed
    have settled := (Tally.ofLog earlier).settled_refreshed i c
    obtain ⟨unheard, -, answers⟩ :=
      settled.of_lawful (History.lawful_append.mp obeyed).2.2 usable
    exact ⟨unheard, answers⟩

/-- Half a minute into 1970. -/
def halfMinutePast : Instant := Instant.epoch.later (.ofSeconds 30)

/-- A minute and a second into 1970. -/
def minutePast : Instant := Instant.epoch.later (.ofSeconds 61)

/-- Two calls race: the second waits for the lock while the first refreshes, and takes it half a
    minute later. -/
def race : List Act :=
  [.arrive, .arrive, .enter .epoch, .refresh (.sent .epoch),
    .refresh (.answered (.ok ⟨"tok-1", 60⟩)), .enter halfMinutePast]

/-- Two callers half a minute apart: the second finds the credential of the first. -/
theorem one_refresh_per_window_race :
    let log := ((new .standard).run race).log
    let c : Credential := .issued "tok-1" (.ofSeconds 60) (.ofSeconds 600) .epoch
    ∃ earlier between later,
      log = earlier ++ .refreshed 0 c :: (between ++ .took 1 halfMinutePast :: later) ∧
      (∀ k d, .refreshed k d ∉ between) ∧ c.isUsableAt halfMinutePast = true ∧
      (∃ rest, later = .returned 1 (.ok c.token) :: rest) ∧ ∀ event, .heard 1 event ∉ log := by
  intro log c
  have split : log = [.arrived 0, .arrived 1, .took 0 .epoch, .heard 0 (.sent .epoch),
        .heard 0 (.answered (.ok ⟨"tok-1", 60⟩))] ++ .refreshed 0 c ::
      ([.returned 0 (.ok "tok-1")] ++ .took 1 halfMinutePast :: [.returned 1 (.ok "tok-1")]) := rfl
  have quiet : ∀ k d, .refreshed k d ∉ [Note.returned 0 (.ok "tok-1")] :=
    fun k d mem => nomatch List.mem_singleton.mp mem
  have usable : c.isUsableAt halfMinutePast = true := by decide
  obtain ⟨served, -, -⟩ := one_refresh_per_window .standard race
  exact ⟨_, _, _, split, quiet, usable,
    served _ 0 c _ 1 halfMinutePast _ split usable (Or.inl quiet)⟩

/-- The second call finds the credential of the first expired and refreshes, and the clock is set
    back before the third. -/
def setBack : List Act :=
  [.arrive, .enter .epoch, .refresh (.sent .epoch), .refresh (.answered (.ok ⟨"tok-1", 60⟩)),
    .arrive, .enter minutePast, .refresh (.sent minutePast),
    .refresh (.answered (.ok ⟨"tok-2", 60⟩)), .arrive, .enter halfMinutePast]

/-- Behind a second success the credential of the first is gone: the third call takes the lock at a
    reading of the clock at which it would be usable again, and returns the other token. -/
theorem replaced_credential_is_gone :
    let c : Credential := .issued "tok-1" (.ofSeconds 60) (.ofSeconds 600) .epoch
    ∃ earlier between, ((new .standard).run setBack).log = earlier ++ .refreshed 0 c ::
        (between ++ .took 2 halfMinutePast :: [.returned 2 (.ok "tok-2")]) ∧
      c.isUsableAt halfMinutePast = true ∧ c.token = "tok-1" := by
  intro c
  exact ⟨[_, _, _, _], [_, _, _, _, _, _, _, _], rfl, by decide, rfl⟩

end Crowd

end Courier
