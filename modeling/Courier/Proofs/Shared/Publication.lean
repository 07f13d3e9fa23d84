import Courier.Proofs.Shared.Lifetime
import Courier.Proofs.Shared.Order

/-! # Publication — what a call that is alone makes of the record

    Let one call of a fleet move, and nobody else, over a record without a
    usable credential; let the clock stand, the store not fail, and the issuer
    grant one thing and no other.  Until the call returns, the record is the
    one at the start; the call carries its own credential from the grant on,
    and when it returns the token, the record has become that one with the
    credential in its two keys and with the next version (`Publishes`).  Such a
    call can always be brought to its end. -/

namespace Courier

/-- Whether a record is another one with a credential in its two keys, under the next version. -/
structure Record.IsRenewal (old new : Record) (c : Credential) : Prop where
  location : new.location = old.location
  version : new.version = old.version + 1
  token : new.data.get? Credential.tokenKey = some c.token
  expiry : new.data.get? Credential.expiryKey = some (Rfc3339.format c.expiresAt)
  others : ∀ key, key ≠ Credential.tokenKey → key ≠ Credential.expiryKey →
    new.data.get? key = old.data.get? key

/-- What a successful write makes of a record is its renewal. -/
theorem Credential.isRenewal_writeTo (c : Credential) (r : Record) :
    r.IsRenewal (c.writeTo r).raised c where
  location := rfl
  version := rfl
  token := c.get?_writeTo_tokenKey r
  expiry := c.get?_writeTo_expiryKey r
  others := fun _ => c.get?_writeTo_of_ne r

/-- Whether a move needs no other reading of the clock than the given one and no failure of the
    store, and brings no grant but the given one. -/
def Move.Brings (now : Instant) (grant : Grant) : Move → Prop
  | .enter => True
  | .access reading => reading = now
  | .fail .. => False
  | .refresh (.sent reading) => reading = now
  | .refresh (.answered (.ok given)) => given = grant
  | .refresh _ => True

/-- A plain move brings its grant. -/
theorem Move.IsPlain.brings {m : Move} {now : Instant} {grant : Grant} (plain : m.IsPlain now grant) :
    m.Brings now grant :=
  plain.elim trivial rfl rfl rfl trivial

namespace Caller

/-- How far a call has come with publishing its own credential on top of the record at the start, by
    where it stands. -/
def Publishes (start : Record) (own : Credential) (now : Instant) (store : Store) (c : Caller) :
    Prop :=
  match c.call with
  | none => store.Reads start ∧ c.midway = false
  | some .looking => store.Reads start ∧ (c.midway = true → store.Has start)
  | some (.refreshing state) => store.Has start ∧ state.IsRunning ∧ state.IsDated now
  | some (.rereading _ fresh) => store.Has start ∧ fresh = own
  | some (.writing _ fresh edited) =>
      store.Has start ∧ fresh = own ∧ edited = own.writeTo start ∧ c.midway = false
  | some (.done (.ok token)) => store.Has (own.writeTo start).raised ∧ token = own.token
  | some (.done (.error _)) => c.refreshFailed = true

variable {start : Record} {own : Credential} {now : Instant} {grant : Grant}
variable {settings : RefreshSettings} {store : Store} {c : Caller}

/-- The refresh of such a call has not ended yet. -/
theorem Publishes.isRunning (h : c.Publishes start own now store) {state : Refreshing}
    (stands : c.call = some (.refreshing state)) : state.IsRunning := by
  simp only [Publishes, stands] at h
  exact h.2.1

/-- Somebody else's operation that spares the record leaves the call where it is. -/
theorem Publishes.start_of_spared (h : c.Publishes start own now store) {op : Operation}
    (spared : ∀ record, op = .update record → record.location ≠ start.location) :
    c.Publishes start own now (store.start op).2 := by
  have there {r : Record} (same : r.location = start.location) (held : store.Has r) :
      (store.start op).2.Has r :=
    (Store.Reads.start_of_spared (Or.inl held) (same ▸ spared)).2 held
  rw [Publishes] at h ⊢
  split at h
  · exact ⟨(h.1.start_of_spared spared).1, h.2⟩
  · exact ⟨(h.1.start_of_spared spared).1, fun midway => there rfl (h.2 midway)⟩
  · exact ⟨there rfl h.1, h.2⟩
  · exact ⟨there rfl h.1, h.2⟩
  · exact ⟨there rfl h.1, h.2⟩
  · exact ⟨there rfl h.1, h.2⟩
  · exact h

/-- A read of the record at the start leads to a refresh, and later to a write on top of it. -/
theorem publishes_read (none : Credential.usableIn? start now = none)
    (looks : c.call = some .looking ∨ ∃ round fresh, c.call = some (.rereading round fresh))
    (h : c.Publishes start own now store) (free : Bool) :
    let moved := c.move start.location settings free store (.access now)
    moved.1.Publishes start own now moved.2 := by
  intro moved
  have needs : c.operation? start.location = some (.get start.location) := by
    rcases looks with looking | ⟨round, fresh, rereading⟩
    · exact operation?_of_call looking
    · exact operation?_of_call rereading
  have reads : store.Reads start ∧ (c.midway = true → store.Has start) := by
    rcases looks with looking | ⟨round, fresh, rereading⟩
    · simp only [Publishes, looking] at h
      exact h
    · simp only [Publishes, rereading] at h
      exact ⟨Or.inl h.1, fun _ => h.1⟩
  obtain ⟨store', held, told | opened⟩ := move_access_of_reads reads.1 reads.2 needs free now
  · rw [show moved = _ from told]
    -- the first look leads to a refresh, a later one to a write, as nothing usable is there
    rcases looks with looking | ⟨round, fresh, rereading⟩
    · have next := call_hear settings store looking (.read (.ok start) now)
      rw [SharedCall.step_looking_of_none none] at next
      simp only [Publishes, next]
      exact ⟨held, trivial, trivial⟩
    · have next := call_hear settings store rereading (.read (.ok start) now)
      rw [SharedCall.step_rereading_of_none round fresh none] at next
      simp only [Publishes, rereading] at h
      simp only [Publishes, next]
      exact ⟨held, h.2, by rw [h.2], rfl⟩
  · rw [show moved = _ from opened]
    rcases looks with looking | ⟨round, fresh, rereading⟩
    · simp only [Publishes, looking]
      exact ⟨Or.inl held, fun _ => held⟩
    · simp only [Publishes, rereading] at h ⊢
      exact ⟨held, h.2⟩

/-- A write publishes at once, since nobody else has written. -/
theorem publishes_write {round : Nat} {fresh : Credential} {edited : Record}
    (room : store.HasRoom start.version) (writes : c.call = some (.writing round fresh edited))
    (h : c.Publishes start own now store) (free : Bool) :
    let moved := c.move start.location settings free store (.access now)
    moved.1.Publishes start own now moved.2 := by
  intro moved
  simp only [Publishes, writes] at h
  obtain ⟨there, rfl, rfl, idle⟩ := h
  have needs : c.operation? start.location = some (.update (fresh.writeTo start)) :=
    operation?_of_call writes
  obtain ⟨store', held, told⟩ : ∃ store', store'.Has (fresh.writeTo start).raised ∧
      moved = (c.hear settings store (.written (.ok (fresh.writeTo start).raised)), store') :=
    move_access_of_writes (fresh.writeTo start) there room needs idle free now
  have next : moved.1.call = some (.done (.ok fresh.token)) := by
    rw [told]
    exact call_hear settings store writes _
  simp only [Publishes, next]
  rw [told]
  exact ⟨held, trivial⟩

/-- News of the refresh lead to the credential of the grant, or the refresh fails. -/
theorem publishes_refresh {state : Refreshing} {event : RefreshEvent}
    (issued : own = .issued grant.token grant.lifetime settings.maxAge now)
    (stands : c.call = some (.refreshing state)) (h : c.Publishes start own now store)
    (brings : Move.Brings now grant (.refresh event)) :
    (c.hear settings store (.refresh event)).Publishes start own now store := by
  simp only [Publishes, stands] at h
  obtain ⟨there, running, dated⟩ := h
  have next := call_hear settings store stands (.refresh event)
  rcases SharedCall.step_refreshing_cases settings running event with
    ⟨goesOn, running'⟩ | ⟨engine, backoff, requestedAt, given, rfl, rfl, ended⟩ |
      ⟨cause, -, ended⟩
  · rw [goesOn] at next
    have still : ∀ reading, event = .sent reading → reading = now := by
      rintro reading rfl
      exact brings
    simp only [Publishes, next]
    exact ⟨there, running', Refreshing.isDated_step settings.maxAge running dated still⟩
  · obtain rfl : given = grant := brings
    rw [ended, show requestedAt = now from dated, ← issued] at next
    simp only [Publishes, next]
    exact ⟨there, trivial⟩
  · rw [ended] at next
    simp only [Publishes, next, refreshFailed]

/-- **ONE MOVE OF A CALL ALONE**: it comes nearer to publishing. -/
theorem publishes_move (none : Credential.usableIn? start now = none)
    (room : store.HasRoom start.version)
    (issued : own = .issued grant.token grant.lifetime settings.maxAge now)
    (h : c.Publishes start own now store) (free : Bool) {m : Move} (brings : m.Brings now grant) :
    let moved := c.move start.location settings free store m
    moved.1.Publishes start own now moved.2 := by
  intro moved
  cases m with
  | enter =>
      rcases move_enter_cases start.location settings free store c with same | ⟨waits, -, begun⟩
      · rw [show moved = _ from same]
        exact h
      · rw [show moved = _ from begun]
        simp only [Publishes, waits] at h
        exact ⟨h.1, fun midway => absurd (h.2.symm.trans midway) Bool.false_ne_true⟩
  | access reading =>
      cases show reading = now from brings
      cases needs : c.operation? start.location with
      | none =>
          rw [show moved = (c, store) by simp only [moved, move, needs]]
          exact h
      | some op =>
          rcases operation?_eq_some needs with ⟨-, looks⟩ | ⟨round, fresh, edited, -, writes⟩
          · exact publishes_read none looks h free
          · exact publishes_write room writes h free
  | fail reading cause reached => exact absurd brings id
  | refresh event =>
      rcases move_refresh_cases start.location settings free store c event with
        same | ⟨state, stands, -, told⟩
      · rw [show moved = _ from same]
        exact h
      · rw [show moved = _ from told]
        exact publishes_refresh issued stands h brings

end Caller

namespace Fleet

/-- Whether an act is a move that a rule allows its call, or somebody else spares the record. -/
def Act.Obeys (location : Location) (rule : Nat → Move → Prop) : Act → Prop
  | .move i m => rule i m
  | .foreign op => Act.Spares location (.foreign op)

/-- Whether one call is about to publish its own credential on top of the record at the start, or
    has done so, and no other call has begun. -/
structure Publishing (start : Record) (grant : Grant) (maxAge : Span) (now : Instant) (i : Nat)
    (f : Fleet) : Prop where
  location : f.location = start.location
  room : f.store.HasRoom start.version
  publishes : ∃ c, f.callers[i]? = some c ∧ (f.settings c.replica).maxAge = maxAge ∧
    c.Publishes start (.issued grant.token grant.lifetime maxAge now) now f.store
  others : ∀ j d, j ≠ i → f.callers[j]? = some d → d = { replica := d.replica }

variable {f : Fleet} {start : Record} {grant : Grant} {maxAge : Span} {now : Instant} {i : Nat}

/-- A foreign update that obeys spares the location. -/
theorem spared_of_obeys {location : Location} {rule : Nat → Move → Prop} {op : Operation}
    (obeys : Act.Obeys location rule (.foreign op)) (record : Record) (same : op = .update record) :
    record.location ≠ location := by
  subst same
  exact obeys

/-- **ONE ACT AROUND A CALL ALONE**: the call comes nearer to publishing, and no other begins. -/
theorem Publishing.step (h : f.Publishing start grant maxAge now i)
    (none : Credential.usableIn? start now = none) {act : Act}
    (obeys : act.Obeys start.location fun j m => j = i ∧ m.Brings now grant) :
    (f.step act).Publishing start grant maxAge now i := by
  obtain ⟨c, present, ceiling, publishes⟩ := h.publishes
  cases act with
  | foreign op =>
      -- what the others ask of the store does not touch this record
      have spares := publishes.start_of_spared (spared_of_obeys obeys)
      exact { location := h.location
              room := (f.store.hasRoom_start op start.version).mpr h.room
              publishes := ⟨c, present, ceiling, spares⟩
              others := h.others }
  | move j m =>
      obtain ⟨rfl, brings⟩ := obeys
      constructor
      case location => exact (location_step f _).trans h.location
      case room =>
        rw [store_step_move present]
        exact Caller.hasRoom_move h.room _ m
      case publishes =>
        refine ⟨_, callers_step_self present m, ?_, ?_⟩
        · rw [settings_step, Caller.replica_move]
          exact ceiling
        · rw [store_step_move present, h.location]
          exact Caller.publishes_move none h.room (by rw [ceiling]) publishes _ brings
      case others =>
        intro k d other there
        rw [callers_step_of_ne f fun m' same => other (Act.move.inj same).1.symm] at there
        exact h.others k d other there

/-- A whole schedule of a call alone. -/
theorem Publishing.run (h : f.Publishing start grant maxAge now i)
    (none : Credential.usableIn? start now = none) (schedule : List Act)
    (obeys : ∀ act ∈ schedule, act.Obeys start.location fun j m => j = i ∧ m.Brings now grant) :
    (f.run schedule).Publishing start grant maxAge now i := by
  induction schedule using List.reverseRecOn with
  | nil => exact h
  | append_singleton schedule act ih =>
      rw [run_concat]
      exact (ih fun act mem => obeys act (List.mem_append_left _ mem)).step none
        (obeys act (List.mem_append_right _ (.head _)))

/-- Where no call has taken its lock yet, any of them can be the one that publishes. -/
theorem publishing_of_isFresh {c : Caller} {data : Fields} {version : UInt64} (fresh : f.IsFresh)
    (present : f.callers[i]? = some c) (shows : f.store.Shows f.location data version)
    (room : f.store.HasRoom version) (grant : Grant) (now : Instant) :
    f.Publishing ⟨f.location, data, version⟩ grant (f.settings c.replica).maxAge now i where
  location := rfl
  room := room
  publishes := by
    refine ⟨c, present, rfl, ?_⟩
    rw [fresh c (List.mem_of_getElem? present)]
    exact ⟨shows, rfl⟩
  others := fun j d _ there => fresh d (List.mem_of_getElem? there)

/-- What the call returns unless its refresh fails is its token, with the record renewed. -/
theorem Publishing.result (h : f.Publishing start grant maxAge now i)
    (succeeds : ∀ d, f.callers[i]? = some d → d.refreshFailed = false)
    {result : Except TokenError String} (returned : f.callOf i = some (.done result)) :
    result = .ok grant.token ∧ f.store.Has
      ((Credential.issued grant.token grant.lifetime maxAge now).writeTo start).raised := by
  obtain ⟨c, present, -, publishes⟩ := h.publishes
  rw [callOf, present] at returned
  have ended : c.call = some (.done result) := returned
  cases result with
  | ok token =>
      simp only [Caller.Publishes, ended] at publishes
      exact ⟨congrArg Except.ok publishes.2, publishes.1⟩
  | error e =>
      simp only [Caller.Publishes, ended] at publishes
      cases publishes.symm.trans (succeeds c present)

/-- The lock of the call is free until it takes it itself. -/
theorem Publishing.isFree (h : f.Publishing start grant maxAge now i) {c : Caller}
    (present : f.callers[i]? = some c) (waits : c.call = none) (replica : Nat) :
    f.isFree replica = true := by
  refine List.all_eq_true.mpr fun d mem => ?_
  obtain ⟨j, there⟩ := List.mem_iff_getElem?.mp mem
  have idle : d.holdsLock = false := by
    by_cases own : j = i
    · subst own
      obtain rfl := Option.some.inj (present.symm.trans there)
      rw [Caller.holdsLock, waits]
    · rw [h.others j d own there]
      rfl
  rw [idle, Bool.and_false]
  rfl

/-- Until it has returned, the call can go on, and without a failure of its refresh. -/
theorem Publishing.goesOn (h : f.Publishing start grant maxAge now i)
    (succeeds : ∀ d, f.callers[i]? = some d → d.refreshFailed = false)
    (running : ∀ result, f.callOf i ≠ some (.done result)) :
    ∃ m : Move, m.IsPlain now grant ∧ (f.step (.move i m)).weight < f.weight ∧
      ∀ d, (f.step (.move i m)).callers[i]? = some d → d.refreshFailed = false := by
  obtain ⟨c, present, -, publishes⟩ := h.publishes
  have plainly : ∃ m : Move, m.IsPlain now grant ∧ (f.step (.move i m)).weight < f.weight := by
    cases stands : c.call with
    | none => exact ⟨.enter, trivial,
        weight_step_enter_lt present stands (h.isFree present stands c.replica)⟩
    | some call =>
        have holds : c.holdsLock = true := by
          refine Caller.holdsLock_of_running stands ?_
          rintro result rfl
          refine running result ?_
          rw [callOf, present]
          exact stands
        obtain ⟨m, plain, lower⟩ := Caller.exists_weight_move_lt f.location
          (f.settings c.replica) (f.isFree c.replica) f.store holds now grant
        exact ⟨m, plain, weight_step_move_lt present lower⟩
  obtain ⟨m, plain, lower⟩ := plainly
  refine ⟨m, plain, lower, fun d there => ?_⟩
  rw [callers_step_self present] at there
  rw [← Option.some.inj there]
  exact Caller.refreshFailed_move (fun state => publishes.isRunning) (succeeds c present) _ plain

/-- **A CALL ALONE PUBLISHES**: wherever it stands, it can be brought to return its token. -/
theorem Publishing.exists_run (h : f.Publishing start grant maxAge now i)
    (none : Credential.usableIn? start now = none)
    (succeeds : ∀ d, f.callers[i]? = some d → d.refreshFailed = false) :
    ∃ schedule, (∀ act ∈ schedule,
        act.Obeys start.location fun j m => j = i ∧ m.Brings now grant) ∧
      (f.run schedule).callOf i = some (.done (.ok grant.token)) := by
  have goesOn (g : Fleet) (going : g.Publishing start grant maxAge now i ∧
      ∀ d, g.callers[i]? = some d → d.refreshFailed = false) :
      (∃ result, g.callOf i = some (.done result)) ∨
      ∃ act : Act, (act.Obeys start.location fun j m => j = i ∧ m.Brings now grant) ∧
        ((g.step act).Publishing start grant maxAge now i ∧
          ∀ d, (g.step act).callers[i]? = some d → d.refreshFailed = false) ∧
        (g.step act).weight < g.weight := by
    obtain ⟨publishing, succeeds⟩ := going
    by_cases returned : ∃ result, g.callOf i = some (.done result)
    · exact Or.inl returned
    · obtain ⟨m, plain, lower, again⟩ :=
        publishing.goesOn succeeds fun result ended => returned ⟨result, ended⟩
      have obeys : Act.Obeys start.location (fun j m => j = i ∧ m.Brings now grant) (.move i m) :=
        ⟨rfl, plain.brings⟩
      exact Or.inr ⟨.move i m, obeys, ⟨publishing.step none obeys, again⟩, lower⟩
  obtain ⟨schedule, obeys, ⟨publishing, succeeds⟩, result, returned⟩ :=
    exists_run_of_goesOn goesOn f ⟨h, succeeds⟩
  obtain ⟨rfl, -⟩ := publishing.result succeeds returned
  exact ⟨schedule, obeys, returned⟩

end Fleet

end Courier
