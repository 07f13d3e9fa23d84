import Courier.Proofs.History
import Courier.Proofs.Local.Crowd
import Mathlib.Data.List.Induction

/-! # Logs — what may follow what in the log of a crowd

    A log tells who is inside the lock, and which credential the last success
    has left in the cache (`Tally`).  Only whoever is inside hears of a
    refresh, and only a call that found no usable credential does; a call that
    found one, or was just granted one, returns its token before anything else
    happens.  That is all that a log has to obey (`Admits`), and the log of
    every crowd does: whatever the crowd does next, its tally goes on agreeing
    with it (`Agrees.becomes`).  The theorems about logs need nothing else. -/

namespace Courier

/-- Who is inside the lock, as a log tells. -/
inductive Inside where
  | nobody
  /-- A call that is about to return the token of a credential. -/
  | answering (i : Nat) (c : Credential)
  /-- A call that found no usable credential at a reading of the clock, and refreshes since; it has
      been told of the given events. -/
  | refreshing (i : Nat) (now : Instant) (heard : List RefreshEvent)

namespace Inside

/-- Whether whoever is inside can be overtaken by other things that happen. -/
def IsOpen : Inside → Prop
  | answering .. => False
  | _ => True

/-- What is inside after an event of its refresh. -/
def hear (event : RefreshEvent) : Inside → Inside
  | refreshing i now heard => refreshing i now (heard ++ [event])
  | inside => inside

/-- What is inside after a call has left. -/
def leave (i : Nat) : Inside → Inside
  | refreshing j now heard => if j = i then nobody else refreshing j now heard
  | inside => inside

variable {inside : Inside} {j : Nat} {now : Instant} {heard : List RefreshEvent}

/-- Who refreshes after an event did so before it. -/
theorem refreshing_of_hear {event : RefreshEvent}
    (h : inside.hear event = .refreshing j now heard) :
    ∃ earlier, inside = .refreshing j now earlier := by
  cases inside with
  | nobody => exact nomatch h
  | answering i c => exact nomatch h
  | refreshing i reading earlier =>
      obtain ⟨rfl, rfl, -⟩ := refreshing.inj h
      exact ⟨earlier, rfl⟩

/-- Who refreshes after a call left did so before it, with the same course. -/
theorem refreshing_of_leave {i : Nat} (h : inside.leave i = .refreshing j now heard) :
    inside = .refreshing j now heard := by
  cases inside with
  | nobody => exact nomatch h
  | answering k c => exact nomatch h
  | refreshing k reading earlier =>
      rw [leave] at h
      split at h
      · exact nomatch h
      · exact h

/-- Who answers after an event answered before it. -/
theorem hear_answering {event : RefreshEvent} {c : Credential}
    (h : inside.hear event = .answering j c) : inside = .answering j c := by
  cases inside <;> first | exact h | exact nomatch h

/-- Who answers after a call left answered before it. -/
theorem leave_answering {i : Nat} {c : Credential} (h : inside.leave i = .answering j c) :
    inside = .answering j c := by
  cases inside with
  | nobody => exact nomatch h
  | answering k d => exact h
  | refreshing k reading earlier =>
      rw [leave] at h
      split at h <;> exact nomatch h

end Inside

/-- What a log tells so far. -/
structure Tally where
  /-- The credential of the last success. -/
  latest : Option Credential := none
  inside : Inside := .nobody
  /-- Who has ever taken the lock. -/
  taken : List Nat := []

namespace Tally

/-- Where a call stands that takes the lock at a reading of the clock. -/
def enter (t : Tally) (i : Nat) (now : Instant) : Inside :=
  match t.latest.filter fun c => c.isUsableAt now with
  | some c => .answering i c
  | none => .refreshing i now []

/-- The tally after one more note. -/
def after (t : Tally) : Note → Tally
  | .arrived _ => t
  | .took i now => { t with inside := t.enter i now, taken := i :: t.taken }
  | .heard _ event => { t with inside := t.inside.hear event }
  | .refreshed i c => { t with latest := some c, inside := .answering i c }
  | .returned .. => { t with inside := .nobody }
  | .left i => { t with inside := t.inside.leave i }

/-- What may happen next, under a ceiling for lifetimes. -/
def Admits (maxAge : Span) (t : Tally) : Note → Prop
  | .arrived _ => t.inside.IsOpen
  | .took i _ => t.inside = .nobody ∧ i ∉ t.taken
  | .heard i _ => ∃ now heard, t.inside = .refreshing i now heard
  | .refreshed i c => ∃ now earlier requestedAt grant, t.inside
        = .refreshing i now (earlier ++ [.sent requestedAt, .answered (.ok grant)]) ∧
      c = .issued grant.token grant.lifetime maxAge requestedAt
  | .returned i (.ok token) => ∃ c, t.inside = .answering i c ∧ token = c.token
  | .returned i (.error _) => ∃ now heard, t.inside = .refreshing i now heard
  | .left _ => t.inside.IsOpen

/-- What a log tells in the end. -/
def ofLog (log : List Note) : Tally := log.foldl after {}

theorem ofLog_append (log notes : List Note) :
    ofLog (log ++ notes) = notes.foldl after (ofLog log) :=
  List.foldl_append

variable {t : Tally} {now : Instant}

/-- A call that finds the credential of the last success usable is about to return its token. -/
theorem enter_of_usable {c : Credential} (latest : t.latest = some c)
    (usable : c.isUsableAt now = true) (i : Nat) : t.enter i now = .answering i c := by
  simp only [enter, latest, Option.filter_some, usable, if_true]

/-- Where nothing usable is cached, the call that enters starts to refresh. -/
theorem enter_of_unusable (unusable : ∀ c, t.latest = some c → c.isUsableAt now = false)
    (i : Nat) : t.enter i now = .refreshing i now [] := by
  have none : t.latest.filter (fun c => c.isUsableAt now) = none := by
    cases latest : t.latest with
    | none => rfl
    | some c => rw [Option.filter_some, unusable c latest]; rfl
  simp only [enter, none]

/-- A call that takes the lock finds a usable credential, or none. -/
theorem enter_cases (t : Tally) (i : Nat) (now : Instant) :
    (∃ c, t.latest = some c ∧ c.isUsableAt now = true ∧ t.enter i now = .answering i c) ∨
    ((∀ c, t.latest = some c → c.isUsableAt now = false) ∧
      t.enter i now = .refreshing i now []) := by
  by_cases finds : ∃ c, t.latest = some c ∧ c.isUsableAt now = true
  · obtain ⟨c, latest, usable⟩ := finds
    exact Or.inl ⟨c, latest, usable, enter_of_usable latest usable i⟩
  · have unusable : ∀ c, t.latest = some c → c.isUsableAt now = false := fun c latest =>
      Bool.eq_false_iff.mpr fun usable => finds ⟨c, latest, usable⟩
    exact Or.inr ⟨unusable, enter_of_unusable unusable i⟩

/-- Whoever refreshes did so before, or has just taken the lock and found no usable credential. -/
theorem refreshing_of_after {note : Note} {j : Nat} {heard : List RefreshEvent}
    (inside : (t.after note).inside = .refreshing j now heard) :
    (∃ earlier, t.inside = .refreshing j now earlier) ∨
    (note = .took j now ∧ ∀ c, t.latest = some c → c.isUsableAt now = false) := by
  cases note with
  | arrived i => exact Or.inl ⟨heard, inside⟩
  | took i reading =>
      rcases t.enter_cases i reading with ⟨c, -, -, answers⟩ | ⟨unusable, refreshes⟩
      · exact nomatch answers.symm.trans inside
      · obtain ⟨rfl, rfl, -⟩ := Inside.refreshing.inj (refreshes.symm.trans inside)
        exact Or.inr ⟨rfl, unusable⟩
  | heard i event => exact Or.inl (Inside.refreshing_of_hear inside)
  | refreshed i c => exact nomatch inside
  | returned i result => exact nomatch inside
  | left i => exact Or.inl ⟨heard, Inside.refreshing_of_leave inside⟩

/-- Whoever is about to return a token was so before, or has just found its credential usable, or
    was just granted it. -/
theorem answering_of_after {note : Note} {j : Nat} {c : Credential}
    (inside : (t.after note).inside = .answering j c) :
    t.inside = .answering j c ∨
    (∃ now, note = .took j now ∧ t.latest = some c ∧ c.isUsableAt now = true) ∨
    note = .refreshed j c := by
  cases note with
  | arrived i => exact Or.inl inside
  | took i reading =>
      rcases t.enter_cases i reading with ⟨d, latest, usable, answers⟩ | ⟨-, refreshes⟩
      · obtain ⟨rfl, rfl⟩ := Inside.answering.inj (answers.symm.trans inside)
        exact Or.inr (Or.inl ⟨reading, rfl, latest, usable⟩)
      · exact nomatch refreshes.symm.trans inside
  | heard i event => exact Or.inl (Inside.hear_answering inside)
  | refreshed i d =>
      obtain ⟨rfl, rfl⟩ := Inside.answering.inj inside
      exact Or.inr (Or.inr rfl)
  | returned i result => exact nomatch inside
  | left i => exact Or.inl (Inside.leave_answering inside)

end Tally

/-- Whether a log obeys, under a ceiling for lifetimes. -/
def Note.Obeyed (maxAge : Span) (log : List Note) : Prop :=
  History.Lawful Tally.after (Tally.Admits maxAge) {} log

namespace Crowd

/-- Whether the log of a crowd obeys, and tells where the crowd stands. -/
structure Agrees (settings : RefreshSettings) (s : Crowd) : Prop where
  kept : s.provider.settings = settings
  obeyed : Note.Obeyed settings.maxAge s.log
  cached : (Tally.ofLog s.log).latest = s.provider.cached
  free : s.holder = none → (Tally.ofLog s.log).inside = .nobody
  busy : ∀ i state, s.holder = some (i, state) → state.IsRunning ∧
    i ∈ (Tally.ofLog s.log).taken ∧
    ∃ now heard, (Tally.ofLog s.log).inside = .refreshing i now heard ∧
      ∀ engine backoff requestedAt, state = .awaiting engine backoff requestedAt →
        ∃ earlier, heard = earlier ++ [.sent requestedAt]
  taken : ∀ i ∈ (Tally.ofLog s.log).taken, i < s.arrivals ∧ i ∉ s.queue
  nodup : s.queue.Nodup
  queued : ∀ i ∈ s.queue, i < s.arrivals

variable {settings : RefreshSettings} {s : Crowd}

theorem Agrees.isRunning (h : s.Agrees settings) : s.IsRunning :=
  fun i state holds => (h.busy i state holds).1

theorem Agrees.isOpen (h : s.Agrees settings) : (Tally.ofLog s.log).inside.IsOpen := by
  cases holds : s.holder with
  | none =>
      rw [h.free holds]
      exact trivial
  | some inside =>
      obtain ⟨-, -, now, heard, refreshing, -⟩ := h.busy inside.1 inside.2 holds
      rw [refreshing]
      exact trivial

/-- Whoever is in the queue has not taken the lock. -/
theorem Agrees.not_taken (h : s.Agrees settings) {i : Nat} (waits : i ∈ s.queue) :
    i ∉ (Tally.ofLog s.log).taken :=
  fun taken => (h.taken i taken).2 waits

theorem agrees_new (settings : RefreshSettings) : (new settings).Agrees settings where
  kept := rfl
  obeyed := trivial
  cached := rfl
  free _ := rfl
  busy _ _ holds := nomatch holds
  taken _ mem := nomatch mem
  nodup := .nil
  queued _ mem := nomatch mem

/-- A call that arrives keeps crowd and tally in agreement. -/
theorem agrees_arrived (h : s.Agrees settings) : Agrees settings
    { s with arrivals := s.arrivals + 1, queue := s.queue ++ [s.arrivals],
             log := s.log ++ [.arrived s.arrivals] } where
  kept := h.kept
  obeyed := History.lawful_append.mpr ⟨h.obeyed, h.isOpen, trivial⟩
  cached := by rw [Tally.ofLog_append]; exact h.cached
  free := by rw [Tally.ofLog_append]; exact h.free
  busy := by rw [Tally.ofLog_append]; exact h.busy
  taken := by
    rw [Tally.ofLog_append]
    intro i mem
    obtain ⟨below, away⟩ := h.taken i mem
    refine ⟨Nat.lt_succ_of_lt below, fun queued => ?_⟩
    rcases List.mem_append.mp queued with old | new
    · exact away old
    · exact absurd (List.mem_singleton.mp new) (Nat.ne_of_lt below)
  nodup := by
    refine List.nodup_append.mpr ⟨h.nodup, List.pairwise_singleton _ _, fun i old j new => ?_⟩
    rw [List.mem_singleton.mp new]
    exact Nat.ne_of_lt (h.queued i old)
  queued := by
    intro i mem
    rcases List.mem_append.mp mem with old | new
    · exact Nat.lt_succ_of_lt (h.queued i old)
    · rw [List.mem_singleton.mp new]
      exact Nat.lt_succ_self _

/-- A call that leaves the queue keeps crowd and tally in agreement. -/
theorem agrees_queueLeft (h : s.Agrees settings) {i : Nat} (waits : i ∈ s.queue) : Agrees settings
    { s with queue := s.queue.erase i, log := s.log ++ [.left i] } := by
  -- whoever leaves the queue is not inside
  have same : (Tally.ofLog s.log).inside.leave i = (Tally.ofLog s.log).inside := by
    cases holds : s.holder with
    | none => rw [h.free holds]; rfl
    | some inside =>
        obtain ⟨-, taken, now, heard, refreshing, -⟩ := h.busy inside.1 inside.2 holds
        rw [refreshing]
        refine if_neg fun own => h.not_taken waits ?_
        rw [← own]
        exact taken
  have tally : Tally.ofLog (s.log ++ [.left i]) = Tally.ofLog s.log := by
    rw [Tally.ofLog_append]
    show { Tally.ofLog s.log with inside := (Tally.ofLog s.log).inside.leave i } = _
    rw [same]
  constructor
  case kept => exact h.kept
  case obeyed => exact History.lawful_append.mpr ⟨h.obeyed, h.isOpen, trivial⟩
  case cached => rw [tally]; exact h.cached
  case free => rw [tally]; exact h.free
  case busy => rw [tally]; exact h.busy
  case taken =>
    rw [tally]
    intro j mem
    obtain ⟨below, away⟩ := h.taken j mem
    exact ⟨below, fun queued => away (List.mem_of_mem_erase queued)⟩
  case nodup => exact h.nodup.erase i
  case queued => exact fun j mem => h.queued j (List.mem_of_mem_erase mem)

/-- A call that leaves with the lock keeps crowd and tally in agreement. -/
theorem agrees_lockLeft (h : s.Agrees settings) {i : Nat} {state : Refreshing}
    (holds : s.holder = some (i, state)) : Agrees settings
    { s with holder := none, log := s.log ++ [.left i] } := by
  obtain ⟨-, -, now, heard, refreshing, -⟩ := h.busy i state holds
  constructor
  case kept => exact h.kept
  case obeyed => exact History.lawful_append.mpr ⟨h.obeyed, h.isOpen, trivial⟩
  case cached => rw [Tally.ofLog_append]; exact h.cached
  case free =>
    intro _
    rw [Tally.ofLog_append]
    show (Tally.ofLog s.log).inside.leave i = .nobody
    rw [refreshing]
    exact if_pos rfl
  case busy => exact fun _ _ holds => nomatch holds
  case taken => rw [Tally.ofLog_append]; exact h.taken
  case nodup => exact h.nodup
  case queued => exact h.queued

/-- Whoever takes the lock leaves the queue for good. -/
theorem Agrees.taken_of_first (h : s.Agrees settings) {i : Nat} {queue : List Nat}
    (first : s.queue = i :: queue) :
    (∀ j ∈ i :: (Tally.ofLog s.log).taken, j < s.arrivals ∧ j ∉ queue) ∧ queue.Nodup ∧
      ∀ j ∈ queue, j < s.arrivals := by
  have nodup := h.nodup
  have queued := h.queued
  rw [first] at nodup queued
  obtain ⟨away, nodup⟩ := List.nodup_cons.mp nodup
  refine ⟨fun j mem => ?_, nodup, fun j mem => queued j (.tail _ mem)⟩
  rcases List.mem_cons.mp mem with rfl | mem
  · exact ⟨queued j (.head _), away⟩
  · obtain ⟨below, away⟩ := h.taken j mem
    rw [first] at away
    exact ⟨below, fun queued => away (.tail _ queued)⟩

/-- A call that finds a usable credential keeps crowd and tally in agreement. -/
theorem agrees_found (h : s.Agrees settings) {i : Nat} {queue : List Nat} {now : Instant}
    {c : Credential} (free : s.holder = none) (first : s.queue = i :: queue)
    (cached : s.provider.cached = some c) (usable : c.isUsableAt now = true) : Agrees settings
    { s with queue, holder := none,
             log := s.log ++ [.took i now, .returned i (.ok c.token)] } := by
  have enters := Tally.enter_of_usable (h.cached.trans cached) usable i
  obtain ⟨taken, nodup, queued⟩ := h.taken_of_first first
  have waits : i ∈ s.queue := first ▸ .head _
  constructor
  case kept => exact h.kept
  case obeyed =>
    exact History.lawful_append.mpr
      ⟨h.obeyed, ⟨h.free free, h.not_taken waits⟩, ⟨c, enters, rfl⟩, trivial⟩
  case cached => rw [Tally.ofLog_append]; exact h.cached
  case free => exact fun _ => by rw [Tally.ofLog_append]; rfl
  case busy => exact fun _ _ holds => nomatch holds
  case taken => rw [Tally.ofLog_append]; exact taken
  case nodup => exact nodup
  case queued => exact queued

/-- A call that finds none, and starts to refresh, keeps crowd and tally in agreement. -/
theorem agrees_missed (h : s.Agrees settings) {i : Nat} {queue : List Nat} {now : Instant}
    (free : s.holder = none) (first : s.queue = i :: queue)
    (unusable : ∀ c, s.provider.cached = some c → c.isUsableAt now = false) : Agrees settings
    { s with queue, holder := some (i, .start s.provider.settings),
             log := s.log ++ [.took i now] } := by
  have enters := Tally.enter_of_unusable
    (fun c latest => unusable c (h.cached.symm.trans latest)) i
  obtain ⟨taken, nodup, queued⟩ := h.taken_of_first first
  have waits : i ∈ s.queue := first ▸ .head _
  constructor
  case kept => exact h.kept
  case obeyed =>
    exact History.lawful_append.mpr ⟨h.obeyed, ⟨h.free free, h.not_taken waits⟩, trivial⟩
  case cached => rw [Tally.ofLog_append]; exact h.cached
  case free => exact fun idle => nomatch idle
  case busy =>
    intro j state holds
    obtain ⟨rfl, rfl⟩ := Prod.mk.inj (Option.some.inj holds)
    rw [Tally.ofLog_append]
    exact ⟨trivial, .head _, now, [], enters, fun _ _ _ due => nomatch due⟩
  case taken => rw [Tally.ofLog_append]; exact taken
  case nodup => exact nodup
  case queued => exact queued

/-- A refresh that goes on keeps crowd and tally in agreement. -/
theorem agrees_wentOn (h : s.Agrees settings) {i : Nat} {state : Refreshing}
    {event : RefreshEvent} (holds : s.holder = some (i, state)) (expected : state.expects event)
    (running : (state.step s.provider.settings.maxAge event).IsRunning) : Agrees settings
    { s with holder := some (i, state.step s.provider.settings.maxAge event),
             log := s.log ++ [.heard i event] } := by
  obtain ⟨-, taken, now, heard, refreshing, -⟩ := h.busy i state holds
  constructor
  case kept => exact h.kept
  case obeyed =>
    exact History.lawful_append.mpr ⟨h.obeyed, ⟨now, heard, refreshing⟩, trivial⟩
  case cached => rw [Tally.ofLog_append]; exact h.cached
  case free => exact fun idle => nomatch idle
  case busy =>
    intro j next holds'
    obtain ⟨rfl, rfl⟩ := Prod.mk.inj (Option.some.inj holds')
    rw [Tally.ofLog_append]
    refine ⟨running, taken, now, heard ++ [event], ?_, fun engine backoff requestedAt waits => ?_⟩
    · show (Tally.ofLog s.log).inside.hear event = _
      rw [refreshing]
      rfl
    · exact ⟨heard, by rw [Refreshing.sent_of_awaiting expected waits]⟩
  case taken => rw [Tally.ofLog_append]; exact h.taken
  case nodup => exact h.nodup
  case queued => exact h.queued

/-- A refresh that succeeds keeps crowd and tally in agreement. -/
theorem agrees_succeeded (h : s.Agrees settings) {i : Nat} {engine : RetryEngine}
    {backoff : Backoff} {requestedAt : Instant} {grant : Grant} {c : Credential}
    (holds : s.holder = some (i, .awaiting engine backoff requestedAt))
    (issued : c = .issued grant.token grant.lifetime s.provider.settings.maxAge requestedAt) :
    Agrees settings
    { s with provider := { s.provider with cached := some c }, holder := none,
             log := s.log ++ [.heard i (.answered (.ok grant)), .refreshed i c,
               .returned i (.ok c.token)] } := by
  obtain ⟨-, taken, now, heard, refreshing, dated⟩ := h.busy i _ holds
  obtain ⟨earlier, rfl⟩ := dated engine backoff requestedAt rfl
  rw [h.kept] at issued
  have told : (Tally.ofLog s.log).inside.hear (.answered (.ok grant))
      = .refreshing i now (earlier ++ [.sent requestedAt, .answered (.ok grant)]) := by
    rw [refreshing]
    exact congrArg (Inside.refreshing i now) (List.append_assoc ..)
  constructor
  case kept => exact h.kept
  case obeyed =>
    exact History.lawful_append.mpr ⟨h.obeyed, ⟨now, _, refreshing⟩,
      ⟨now, earlier, requestedAt, grant, told, issued⟩, ⟨c, rfl, rfl⟩, trivial⟩
  case cached => rw [Tally.ofLog_append]; rfl
  case free => exact fun _ => by rw [Tally.ofLog_append]; rfl
  case busy => exact fun _ _ holds => nomatch holds
  case taken => rw [Tally.ofLog_append]; exact h.taken
  case nodup => exact h.nodup
  case queued => exact h.queued

/-- A refresh that fails keeps crowd and tally in agreement. -/
theorem agrees_failed (h : s.Agrees settings) {i : Nat} {state : Refreshing}
    {event : RefreshEvent} {cause : RetryError IssuerError}
    (holds : s.holder = some (i, state)) : Agrees settings
    { s with holder := none,
             log := s.log ++ [.heard i event, .returned i (.error (.refresh cause))] } := by
  obtain ⟨-, taken, now, heard, refreshing, -⟩ := h.busy i state holds
  have told : (Tally.ofLog s.log).inside.hear event = .refreshing i now (heard ++ [event]) := by
    rw [refreshing]
    rfl
  constructor
  case kept => exact h.kept
  case obeyed =>
    exact History.lawful_append.mpr
      ⟨h.obeyed, ⟨now, heard, refreshing⟩, ⟨now, heard ++ [event], told⟩, trivial⟩
  case cached => rw [Tally.ofLog_append]; exact h.cached
  case free => exact fun _ => by rw [Tally.ofLog_append]; rfl
  case busy => exact fun _ _ holds => nomatch holds
  case taken => rw [Tally.ofLog_append]; exact h.taken
  case nodup => exact h.nodup
  case queued => exact h.queued

/-- **ONE ACT**: whatever becomes of a crowd, its log goes on obeying and telling where it
    stands. -/
theorem Agrees.becomes {s' : Crowd} (h : s.Agrees settings) (becomes : s.Becomes s') :
    s'.Agrees settings := by
  cases becomes with
  | same => exact h
  | arrived => exact agrees_arrived h
  | queueLeft i waits => exact agrees_queueLeft h waits
  | lockLeft i state inside => exact agrees_lockLeft h inside
  | found i queue now c free first cached usable => exact agrees_found h free first cached usable
  | missed i queue now free first unusable => exact agrees_missed h free first unusable
  | wentOn i state event inside expected running => exact agrees_wentOn h inside expected running
  | succeeded i engine backoff requestedAt grant c inside issued =>
      exact agrees_succeeded h inside issued
  | failed i state event cause inside => exact agrees_failed h inside

/-- **EVERY RUN**: the log of a crowd obeys, and tells where the crowd stands. -/
theorem agrees_run (settings : RefreshSettings) (acts : List Act) :
    ((new settings).run acts).Agrees settings := by
  induction acts using List.reverseRecOn with
  | nil => exact agrees_new settings
  | append_singleton acts act ih =>
      rw [run, List.foldl_append]
      exact ih.becomes (step_becomes ih.isRunning act)

end Crowd

end Courier
