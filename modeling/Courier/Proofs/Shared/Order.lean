import Courier.Proofs.Shared.Call
import Courier.Proofs.Shared.Progress
import Courier.Proofs.Token.Credential

/-! # Order — the first writer wins

    Let the clock stand, let nobody else write the record, let the store not
    fail and every grant last.  Then the record changes at most once, from the
    record at the start to the one that the first writer made of it (`Phase`).
    The invariant (`InOrder`) ties each call to those two records: who is about
    to write has edited the record at the start, and who has lost the race is
    back at reading, where the new record is what it finds.  One move preserves
    it (`goesOn_move`) for the call that moves and for all others. -/

namespace Courier

/-- The record under the next version. -/
def Record.raised (r : Record) : Record := { r with version := r.version + 1 }

/-- Whatever is written on top of a record, its version is another one. -/
theorem Credential.version_raised_ne (c : Credential) (r : Record) :
    r.version ≠ (c.writeTo r).raised.version := by
  intro same
  have sum : r.version + 0 = r.version + 1 := by
    rw [UInt64.add_zero]
    exact same
  exact absurd (UInt64.add_right_inj r.version |>.mp sum) (by decide)

theorem Credential.raised_ne (c : Credential) (r : Record) : (c.writeTo r).raised ≠ r :=
  fun same => c.version_raised_ne r (congrArg Record.version same).symm

namespace Store

/-- Whether a store has a record, under its version. -/
def Has (s : Store) (r : Record) : Prop := s.Holds r.location r.data r.version

/-- Whether reading the location of a record gives the record. -/
def Reads (s : Store) (r : Record) : Prop := s.Shows r.location r.data r.version

/-- An operation that does not update the record leaves it as it reads, and there if it was. -/
theorem Reads.start_of_spared {s : Store} {r : Record} (reads : s.Reads r) {op : Operation}
    (spared : ∀ record, op = .update record → record.location ≠ r.location) :
    (s.start op).2.Reads r ∧ (s.Has r → (s.start op).2.Has r) := by
  by_cases here : r.location = op.location
  · cases op with
    | update record => exact absurd here.symm (spared record rfl)
    | get l =>
        cases show r.location = l from here
        obtain ⟨store', held, started⟩ := reads.start_get
        rw [started.store]
        exact ⟨Or.inl held, fun _ => held⟩
  · have same := s.sameAt_start op here
    exact ⟨same.shows reads, same.holds⟩

end Store

/-- Whether a call was told that its write succeeded. -/
def Moment.isPublication (m : Moment) : Bool :=
  match m.event with
  | .written (.ok _) => true
  | _ => false

/-- Whether a move needs no other reading of the clock than the given one and no failure of the
    store, and brings no grant but a lasting one. -/
def Move.IsCalm (maxAge : Span) (now : Instant) : Move → Prop
  | .enter => True
  | .access reading => reading = now
  | .fail .. => False
  | .refresh (.sent reading) => reading = now
  | .refresh (.answered (.ok grant)) => grant.IsLasting maxAge now
  | .refresh _ => True

/-- A plain move is calm where its grant lasts. -/
theorem Move.IsPlain.isCalm {m : Move} {now : Instant} {grant : Grant} {maxAge : Span}
    (plain : m.IsPlain now grant) (lasting : grant.IsLasting maxAge now) : m.IsCalm maxAge now :=
  plain.elim trivial rfl rfl lasting trivial

/-- The record at the start, or once somebody has published, with the number of publications. -/
inductive Phase (start : Record) (now : Instant) : Record → Nat → Prop where
  | untouched : Phase start now start 0
  | published {fresh : Credential} (none : Credential.usableIn? start now = none)
      (lasting : fresh.Lasting now) : Phase start now (fresh.writeTo start).raised 1

namespace Phase

variable {start current : Record} {now : Instant} {n : Nat}

theorem location_eq (h : Phase start now current n) : current.location = start.location := by
  cases h <;> rfl

/-- Where the record holds no usable credential, nobody has published. -/
theorem eq_start (h : Phase start now current n)
    (none : Credential.usableIn? current now = none) : current = start := by
  cases h with
  | untouched => rfl
  | published _ lasting => exact nomatch none.symm.trans (lasting.usableIn?_writeTo start)

/-- A record that was changed has another version. -/
theorem version_ne (h : Phase start now current n) (changed : current ≠ start) :
    start.version ≠ current.version := by
  cases h with
  | untouched => exact absurd rfl changed
  | published _ _ => exact Credential.version_raised_ne _ start

theorem eq_zero (h : Phase start now current n) (same : current = start) : n = 0 := by
  cases h with
  | untouched => rfl
  | published _ _ => exact absurd same (Credential.raised_ne _ start)

/-- How often the record was published by the time that it holds a usable credential. -/
theorem count (h : Phase start now current n) {credential : Credential}
    (usable : Credential.usableIn? current now = some credential) :
    n = if (Credential.usableIn? start now).isSome then 0 else 1 := by
  cases h with
  | untouched =>
      rw [usable]
      rfl
  | published none _ =>
      rw [none]
      rfl

end Phase

namespace Caller

/-- The number of successful writes of a call. -/
def publications (c : Caller) : Nat := c.past.countP Moment.isPublication

/-- Whether the call ended because its refresh failed. -/
def refreshFailed (c : Caller) : Bool :=
  match c.call with
  | some (.done (.error (.refresh _))) => true
  | _ => false

/-- What a call stands for between the record at the start and the current one; `there` says that
    the store has the current one. -/
def InOrder (start current : Record) (there : Prop) (now : Instant) (c : Caller) : Prop :=
  match c.call with
  | none => c.midway = false
  | some .looking => c.midway = true → there
  | some (.refreshing state) => Credential.usableIn? start now = none ∧
      state.IsRunning ∧ state.IsDated now
  | some (.rereading round fresh) => Credential.usableIn? start now = none ∧ fresh.Lasting now ∧
      (round = 1 ∨ (round = 2 ∧ current ≠ start)) ∧ (c.midway = true → there)
  | some (.writing round fresh edited) => Credential.usableIn? start now = none ∧
      fresh.Lasting now ∧ round = 1 ∧ edited = fresh.writeTo start ∧ there ∧
      (c.midway = true → current ≠ start)
  | some (.done (.ok token)) => ∃ credential,
      Credential.usableIn? current now = some credential ∧ credential.token = token
  | some (.done (.error _)) => c.refreshFailed = true

variable {start current : Record} {there there' : Prop} {now : Instant} {n : Nat} {c : Caller}
variable (settings : RefreshSettings) (store : Store)

/-- A caller stays in order when more is known to be in the store. -/
theorem InOrder.mono (h : c.InOrder start current there now) (imp : there → there') :
    c.InOrder start current there' now := by
  rw [InOrder] at h ⊢
  split at h
  · exact h
  · exact fun midway => imp (h midway)
  · exact h
  · exact ⟨h.1, h.2.1, h.2.2.1, fun midway => imp (h.2.2.2 midway)⟩
  · obtain ⟨none, lasting, first, edited, held, midway⟩ := h
    exact ⟨none, lasting, first, edited, imp held, midway⟩
  · exact h
  · exact h

/-- The refresh of a call in order has not ended yet. -/
theorem InOrder.isRunning (h : c.InOrder start current there now) {state : Refreshing}
    (stands : c.call = some (.refreshing state)) : state.IsRunning := by
  simp only [InOrder, stands] at h
  exact h.2.1

/-- Who was in order with the record at the start is in order once somebody has published. -/
theorem InOrder.publish (h : c.InOrder start start there now) {fresh : Credential}
    (none : Credential.usableIn? start now = none) (held : there') :
    c.InOrder start (fresh.writeTo start).raised there' now := by
  rw [InOrder] at h ⊢
  split at h
  · exact h
  · exact fun _ => held
  · exact h
  · obtain ⟨none, lasting, first | ⟨-, same⟩, -⟩ := h
    · exact ⟨none, lasting, Or.inl first, fun _ => held⟩
    · exact absurd rfl same
  · -- whoever is about to write has lost the race
    obtain ⟨none, lasting, first, edited, -, -⟩ := h
    exact ⟨none, lasting, first, edited, held, fun _ => fresh.raised_ne start⟩
  · obtain ⟨credential, usable, -⟩ := h
    exact nomatch none.symm.trans usable
  · exact h

/-! ## What a call hears -/

/-- What a call hears counts, or does not. -/
theorem countP_past_hear (p : Moment → Bool) (event : SharedEvent) :
    (c.hear settings store event).past.countP p
      = c.past.countP p + if p ⟨event, store⟩ then 1 else 0 := by
  show List.countP _ (c.past ++ [_]) = _
  rw [List.countP_append, List.countP_singleton]

/-- A write that is answered well is one publication more. -/
theorem publications_hear (event : SharedEvent) : (c.hear settings store event).publications
    = c.publications + if Moment.isPublication ⟨event, store⟩ then 1 else 0 :=
  countP_past_hear settings store Moment.isPublication event

/-- A call that reads the current record is in order behind the read. -/
theorem inOrder_read (phase : Phase start now current n)
    (reads : c.call = some .looking ∨ ∃ round fresh, c.call = some (.rereading round fresh))
    (ordered : c.InOrder start current there now) (held : there') :
    (c.hear settings store (.read (.ok current) now)).InOrder start current there' now := by
  cases found : Credential.usableIn? current now with
  | some credential =>
      have ended : (c.hear settings store (.read (.ok current) now)).call
          = some (.done (.ok credential.token)) := by
        rcases reads with looking | ⟨round, fresh, rereading⟩
        · exact (call_hear settings store looking _).trans
            (congrArg some (SharedCall.step_looking_of_usable found))
        · exact (call_hear settings store rereading _).trans
            (congrArg some (SharedCall.step_rereading_of_usable round fresh found))
      simp only [InOrder, ended]
      exact ⟨credential, found, rfl⟩
  | none =>
      -- nobody has published yet, so this is still the record at the start
      have same := phase.eq_start found
      subst same
      rcases reads with looking | ⟨round, fresh, rereading⟩
      · have next := call_hear settings store looking (.read (.ok current) now)
        rw [SharedCall.step_looking_of_none found] at next
        simp only [InOrder, next]
        exact ⟨found, trivial, trivial⟩
      · have next := call_hear settings store rereading (.read (.ok current) now)
        rw [SharedCall.step_rereading_of_none round fresh found] at next
        simp only [InOrder, rereading] at ordered
        obtain ⟨-, lasting, first | ⟨-, changed⟩, -⟩ := ordered
        · simp only [InOrder, next]
          exact ⟨found, lasting, first, trivial, held, fun midway => nomatch midway⟩
        · exact absurd rfl changed

/-- A call that is told of a conflict is in order once the record has changed. -/
theorem inOrder_conflict {round : Nat} {fresh : Credential} {edited : Record}
    (writes : c.call = some (.writing round fresh edited))
    (ordered : c.InOrder start current there now) (changed : current ≠ start)
    (l : Location) (version : UInt64) :
    (c.hear settings store (.written (.error (.conflict l version)))).InOrder start current there'
      now := by
  simp only [InOrder, writes] at ordered
  obtain ⟨none, lasting, rfl, -, -, -⟩ := ordered
  have next := call_hear settings store writes (.written (.error (.conflict l version)))
  have again : SharedCall.step settings (.writing 1 fresh edited)
      (.written (.error (.conflict l version))) = .rereading 2 fresh := rfl
  rw [again] at next
  simp only [InOrder, next]
  exact ⟨none, lasting, Or.inr ⟨trivial, changed⟩, fun midway => nomatch midway⟩

/-- News of its refresh leave a call in order, where the clock stands and every grant lasts. -/
theorem inOrder_refresh {state : Refreshing} (stands : c.call = some (.refreshing state))
    (ordered : c.InOrder start current there now) {event : RefreshEvent}
    (calm : Move.IsCalm settings.maxAge now (.refresh event)) :
    (c.hear settings store (.refresh event)).InOrder start current there' now := by
  simp only [InOrder, stands] at ordered
  obtain ⟨none, running, dated⟩ := ordered
  have next := call_hear settings store stands (.refresh event)
  rcases SharedCall.step_refreshing_cases settings running event with
    ⟨goesOn, running'⟩ | ⟨engine, backoff, requestedAt, grant, rfl, rfl, ended⟩ |
      ⟨cause, -, ended⟩
  · rw [goesOn] at next
    have still : ∀ reading, event = .sent reading → reading = now := by
      rintro reading rfl
      exact calm
    simp only [InOrder, next]
    exact ⟨none, running', Refreshing.isDated_step settings.maxAge running dated still⟩
  · rw [ended] at next
    rw [show requestedAt = now from dated] at next
    simp only [InOrder, next]
    exact ⟨none, Credential.lasting_issued calm, Or.inl trivial, fun midway => nomatch midway⟩
  · rw [ended] at next
    simp only [InOrder, next, refreshFailed]

/-! ## What a call does -/

/-- A record goes on as another one, or as itself: how often it was published by then, that it is
    what reading gives, and that whoever was in order still is. -/
structure GoesOn (start : Record) (now : Instant) (s s' : Store) (current current' : Record)
    (n' : Nat) : Prop where
  phase : Phase start now current' n'
  reads : s'.Reads current'
  others : ∀ d : Caller, d.InOrder start current (s.Has current) now →
    d.InOrder start current' (s'.Has current') now

/-- A store that still holds the current record goes on in its phase. -/
theorem GoesOn.keep {s s' : Store} (phase : Phase start now current n) (reads : s'.Reads current)
    (held : s.Has current → s'.Has current) : GoesOn start now s s' current current n :=
  ⟨phase, reads, fun _ ordered => ordered.mono held⟩

/-- The first publication goes on from the start to the record it raised. -/
theorem GoesOn.publish {s s' : Store} {fresh : Credential}
    (none : Credential.usableIn? start now = none) (lasting : fresh.Lasting now)
    (held : s'.Has (fresh.writeTo start).raised) :
    GoesOn start now s s' start (fresh.writeTo start).raised 1 :=
  ⟨.published none lasting, Or.inl held, fun _ ordered => ordered.publish none held⟩

variable {settings store}

/-- An access of a call that reads a record tells it the record, or gets it midway; either way the
    record is there behind the access. -/
theorem move_access_of_reads {location : Location} {record : Record} (reads : store.Reads record)
    (there : c.midway = true → store.Has record)
    (needs : c.operation? location = some (.get record.location)) (free : Bool) (now : Instant) :
    ∃ store', store'.Has record ∧
      (c.move location settings free store (.access now)
          = (c.hear settings store (.read (.ok record) now), store') ∨
        c.move location settings free store (.access now)
          = ({ c with midway := true }, store')) := by
  cases midway : c.midway with
  | true =>
      -- the record was there at the first access, and the selection finds it
      have held := there midway
      refine ⟨store, held, Or.inl ?_⟩
      rw [move_access_of_midway settings free store needs midway now,
        show store.finish (.get record.location) = _ from held.look]
      rfl
  | false =>
      obtain ⟨store', held, started⟩ := reads.start_get
      exact ⟨store', held, move_access_of_starts settings free store needs midway started now⟩

/-- An access of a call that writes on top of what is there, under its version, publishes. -/
theorem move_access_of_writes {location : Location} (edited : Record) {data : Fields}
    (there : store.Holds edited.location data edited.version)
    (room : store.HasRoom edited.version) (needs : c.operation? location = some (.update edited))
    (idle : c.midway = false) (free : Bool) (now : Instant) :
    ∃ store', store'.Has edited.raised ∧ c.move location settings free store (.access now)
      = (c.hear settings store (.written (.ok edited.raised)), store') := by
  obtain ⟨store', written, held⟩ := there.start_update room
  exact ⟨store', held, move_access_of_known settings free store needs idle written now⟩

/-- An access of a call that reads gives it the current record, or gets it midway. -/
theorem goesOn_access_get (phase : Phase start now current n) (reads : store.Reads current)
    (looks : c.call = some .looking ∨ ∃ round fresh, c.call = some (.rereading round fresh))
    (ordered : c.InOrder start current (store.Has current) now) (free : Bool) :
    let moved := c.move start.location settings free store (.access now)
    GoesOn start now store moved.2 current current n ∧
      moved.1.InOrder start current (moved.2.Has current) now ∧
      moved.1.publications = c.publications := by
  intro moved
  have needs : c.operation? start.location = some (.get current.location) := by
    rw [← phase.location_eq]
    rcases looks with looking | ⟨round, fresh, rereading⟩
    · exact operation?_of_call looking
    · exact operation?_of_call rereading
  have there : c.midway = true → store.Has current := by
    rcases looks with looking | ⟨round, fresh, rereading⟩
    · simp only [InOrder, looking] at ordered
      exact ordered
    · simp only [InOrder, rereading] at ordered
      exact ordered.2.2.2
  obtain ⟨store', held, told | opened⟩ := move_access_of_reads reads there needs free now
  · rw [show moved = _ from told]
    refine ⟨.keep phase (Or.inl held) fun _ => held, ?_, publications_hear settings store _⟩
    exact inOrder_read settings store phase looks ordered held
  · rw [show moved = _ from opened]
    refine ⟨.keep phase (Or.inl held) fun _ => held, ?_, rfl⟩
    rcases looks with looking | ⟨round, fresh, rereading⟩
    · simp only [InOrder, looking]
      exact fun _ => held
    · simp only [InOrder, rereading] at ordered ⊢
      exact ⟨ordered.1, ordered.2.1, ordered.2.2.1, fun _ => held⟩

variable {round : Nat} {fresh : Credential} {edited : Record}

/-- An access of a call that writes while the record is still the one at the start publishes: the
    write is against the version that is stored. -/
theorem goesOn_first_write (phase : Phase start now start n)
    (room : store.HasRoom start.version) (writes : c.call = some (.writing round fresh edited))
    (ordered : c.InOrder start start (store.Has start) now) (free : Bool) :
    let moved := c.move start.location settings free store (.access now)
    let current := (fresh.writeTo start).raised
    GoesOn start now store moved.2 start current 1 ∧
      moved.1.InOrder start current (moved.2.Has current) now ∧
      moved.1.publications + n = c.publications + 1 := by
  intro moved current
  simp only [InOrder, writes] at ordered
  obtain ⟨none, lasting, rfl, rfl, there, changed⟩ := ordered
  have needs : c.operation? start.location = some (.update (fresh.writeTo start)) :=
    operation?_of_call writes
  have idle : c.midway = false := Bool.not_eq_true _ ▸ fun midway => changed midway rfl
  obtain ⟨store', held, told⟩ : ∃ store', store'.Has current ∧
      moved = (c.hear settings store (.written (.ok current)), store') :=
    move_access_of_writes (fresh.writeTo start) there room needs idle free now
  have next : moved.1.call = some (.done (.ok fresh.token)) := by
    rw [told]
    exact call_hear settings store writes _
  refine ⟨?_, ?_, ?_⟩
  · rw [told]
    exact .publish none lasting held
  · simp only [InOrder, next]
    exact ⟨fresh, lasting.usableIn?_writeTo start, rfl⟩
  · rw [phase.eq_zero rfl, told]
    exact publications_hear settings store _

/-- An access of a call that writes once somebody else has published leads to a conflict: the
    record has another version by now. -/
theorem goesOn_late_write (phase : Phase start now current n) (reads : store.Reads current)
    (room : store.HasRoom start.version) (writes : c.call = some (.writing round fresh edited))
    (ordered : c.InOrder start current (store.Has current) now) (changed : current ≠ start)
    (free : Bool) :
    let moved := c.move start.location settings free store (.access now)
    GoesOn start now store moved.2 current current n ∧
      moved.1.InOrder start current (moved.2.Has current) now ∧
      moved.1.publications = c.publications := by
  intro moved
  have stands := ordered
  simp only [InOrder, writes] at stands
  obtain ⟨none, lasting, rfl, rfl, there, -⟩ := stands
  have needs : c.operation? start.location = some (.update (fresh.writeTo start)) :=
    operation?_of_call writes
  have held : store.Holds (fresh.writeTo start).location current.data current.version :=
    phase.location_eq ▸ there
  cases midway : c.midway with
  | true =>
      -- the store answers now what it found when it was asked: another version
      rw [show moved = _ from move_access_of_midway settings free store needs midway now,
        show store.finish (.update (fresh.writeTo start)) = _ from
          congrArg Except.error held.refusal]
      refine ⟨.keep phase reads id, ?_, publications_hear settings store _⟩
      exact inOrder_conflict settings store writes ordered changed _ _
  | false =>
      have started := held.start_update_of_ne (Or.inl room) (phase.version_ne changed)
      rcases move_access_of_starts settings free store needs midway started now with told | opened
      · rw [show moved = _ from told]
        refine ⟨.keep phase reads id, ?_, publications_hear settings store _⟩
        exact inOrder_conflict settings store writes ordered changed _ _
      · rw [show moved = _ from opened]
        refine ⟨.keep phase reads id, ?_, rfl⟩
        simp only [InOrder, writes]
        exact ⟨none, lasting, trivial, trivial, there, fun _ => changed⟩

/-- **ONE CALM MOVE**: whatever a call does next, the record goes on and the call is in order. -/
theorem goesOn_move (phase : Phase start now current n) (reads : store.Reads current)
    (room : store.HasRoom start.version) (ordered : c.InOrder start current (store.Has current) now)
    (free : Bool) {m : Move} (calm : m.IsCalm settings.maxAge now) :
    let moved := c.move start.location settings free store m
    ∃ current' n', GoesOn start now store moved.2 current current' n' ∧
      moved.1.InOrder start current' (moved.2.Has current') now ∧
      moved.1.publications + n = c.publications + n' := by
  intro moved
  have idles (idle : moved = (c, store)) : ∃ current' n',
      GoesOn start now store moved.2 current current' n' ∧
      moved.1.InOrder start current' (moved.2.Has current') now ∧
      moved.1.publications + n = c.publications + n' := by
    rw [idle]
    exact ⟨current, n, .keep phase reads id, ordered, rfl⟩
  cases m with
  | enter =>
      rcases move_enter_cases start.location settings free store c with idle | ⟨waiting, -, begun⟩
      · exact idles idle
      · rw [show moved = _ from begun]
        simp only [InOrder, waiting] at ordered
        refine ⟨current, n, .keep phase reads id, ?_, rfl⟩
        exact fun midway => nomatch ordered.symm.trans midway
  | access reading =>
      cases show reading = now from calm
      cases needs : c.operation? start.location with
      | none => exact idles (by simp only [moved, move, needs])
      | some op =>
          rcases operation?_eq_some needs with ⟨-, looks⟩ | ⟨round, fresh, edited, -, writes⟩
          · obtain ⟨goesOn, inOrder, same⟩ := goesOn_access_get phase reads looks ordered free
            exact ⟨current, n, goesOn, inOrder, congrArg (· + n) same⟩
          -- only a write on top of the first record changes it; later ones meet a conflict
          · by_cases first : current = start
            · subst first
              exact ⟨_, 1, goesOn_first_write phase room writes ordered free⟩
            · obtain ⟨goesOn, inOrder, same⟩ :=
                goesOn_late_write phase reads room writes ordered first free
              exact ⟨current, n, goesOn, inOrder, congrArg (· + n) same⟩
  | fail reading cause reached => exact absurd calm id
  | refresh event =>
      rcases move_refresh_cases start.location settings free store c event with
        idle | ⟨state, stands, -, told⟩
      · exact idles idle
      · rw [show moved = _ from told]
        refine ⟨current, n, .keep phase reads id, ?_, ?_⟩
        · exact inOrder_refresh settings store stands ordered calm
        · exact congrArg (· + n) (publications_hear settings store _)

/-- A move leaves the store its room. -/
theorem hasRoom_move {location : Location} {version : UInt64} (room : store.HasRoom version)
    (free : Bool) (m : Move) :
    (c.move location settings free store m).2.HasRoom version := by
  rcases store_move_cases location settings free store c m with same | ⟨op, -, -, after⟩
  · rw [same]
    exact room
  · rw [after]
    exact (store.hasRoom_start op version).mpr room

/-- No answer of the store makes a refresh fail. -/
theorem refreshFailed_told {location : Location} {op : Operation}
    (needs : c.operation? location = some op) (answer : Except StoreError Record) :
    (c.hear settings store (op.told now answer)).refreshFailed = false := by
  obtain ⟨call, event, next, -, told, becomes, answered⟩ :=
    answered_told settings store needs now answer
  rw [told, refreshFailed, becomes]
  cases answered <;> rfl

/-- No plain move makes a refresh fail. -/
theorem refreshFailed_move {location : Location} {grant : Grant}
    (running : ∀ state, c.call = some (.refreshing state) → state.IsRunning)
    (succeeds : c.refreshFailed = false) (free : Bool) {m : Move} (plain : m.IsPlain now grant) :
    (c.move location settings free store m).1.refreshFailed = false := by
  have moved := moved_move location settings free store c m
  generalize c.move location settings free store m = next at moved ⊢
  cases moved with
  | idle | opened => exact succeeds
  | begun => rfl
  | answered needs | finished needs | failed needs => exact refreshFailed_told needs _
  | @heard state event stands =>
      rw [refreshFailed, call_hear settings store stands]
      rcases SharedCall.step_refreshing_cases settings (running state stands) event with
        ⟨goesOn, -⟩ | ⟨engine, backoff, requestedAt, grant, rfl, rfl, ended⟩ | ⟨cause, setback, -⟩
      · rw [goesOn]
      · rw [ended]
      · -- nothing plain is a setback
        cases event with
        | cancelled => exact absurd plain id
        | sent reading => exact absurd setback id
        | woken => exact absurd setback id
        | answered answer =>
            rw [show answer = .ok grant from plain] at setback
            exact absurd setback id

end Caller

end Courier
