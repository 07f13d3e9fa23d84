import Courier.Proofs.Shared.Issuance
import Courier.Proofs.Shared.Lock
import Courier.Proofs.Store.Lineage
import Courier.Proofs.Token.Credential

/-! # Overwriting — what the writes of a provider replace

    A call writes on top of the record that it has just read, and its replica
    is told nothing in between, since the call holds the lock.  Others may
    have written by then.  But a write that is accepted finds the version
    that was read, so it finds the very record: one without a usable
    credential, of which it keeps every key but the two of a credential. -/

namespace Courier

namespace Store

/-- Whether a store has at a location what another has there, or an empty record where that has
    nothing. -/
def Keeps (l : Location) (s s' : Store) : Prop :=
  SameAt l s s' ∨ (s.Lacks l ∧ s'.Holds l .empty 0)

/-- A store that keeps a location keeps the version there. -/
theorem versionAt?_of_keeps {s s' : Store} {l : Location} {version : UInt64}
    (keeps : s.Keeps l s') (there : s.versionAt? l = some version) :
    s'.versionAt? l = some version := by
  rcases keeps with same | ⟨missing, -⟩
  · obtain ⟨m, m', rfl, rfl, same⟩ | ⟨db, db', rfl, rfl, same⟩ := same.kinds
    · rw [versionAt?, ← same]
      exact there
    · rw [versionAt?, ← same]
      exact there
  · cases s with
    | memory m =>
        rw [versionAt?, show m.records.find? l = none from missing] at there
        cases there
    | sqlite db =>
        rw [versionAt?, show db.rows.find? l = none from missing] at there
        cases there

/-- A read keeps every location. -/
theorem keeps_start_get (s : Store) (l here : Location) : s.Keeps l (s.start (.get here)).2 := by
  by_cases same : l = here
  · subst same
    rcases start_get_cases s l with same | created
    · rw [same]
      exact Or.inl (.refl l s)
    · exact Or.inr created
  · exact Or.inl (sameAt_start s (.get here) same)

/-- A read that is answered at once leaves what it answered. -/
theorem look_of_start_get {s s' : Store} {l : Location} {record : Record}
    (started : s.start (.get l) = (some (.ok record), s')) : s'.look l = .ok record := by
  cases s with
  | sqlite db => exact nomatch started
  | memory m =>
      obtain ⟨answer, rfl⟩ := Prod.mk.inj started
      have read : (m.getOrCreate l).1 = record := Except.ok.inj (Option.some.inj answer)
      rw [← read]
      cases there : m.records.find? l with
      | some r =>
          simp only [MemoryStore.getOrCreate, there, look, MemoryStore.snapshot]
      | none =>
          simp only [MemoryStore.getOrCreate, there, look, MemoryStore.snapshot,
            Table.find?_put_self]

end Store

/-- A refresh never leads to a write at once. -/
theorem SharedCall.ofRefreshing_ne_writing (state : Refreshing) (round : Nat) (fresh : Credential)
    (edited : Record) : ofRefreshing state ≠ writing round fresh edited := by
  cases state with
  | ended result => cases result <;> exact nofun
  | due engine backoff => exact nofun
  | awaiting engine backoff requestedAt => exact nofun
  | pausing engine backoff wait => exact nofun

namespace Caller

variable {location : Location} {settings : RefreshSettings} {free : Bool} {store : Store}
variable {c : Caller}

/-- What leads a call to write is that it is told a record without a usable credential. -/
theorem writing_of_told {op : Operation} {now : Instant} {answer : Except StoreError Record}
    {round : Nat} {fresh : Credential} {edited : Record}
    (needs : c.operation? location = some op)
    (writes : (c.hear settings store (op.told now answer)).call
      = some (.writing round fresh edited)) :
    ∃ record, op = .get location ∧ answer = .ok record ∧
      Credential.usableIn? record now = none ∧ edited = fresh.writeTo record := by
  obtain ⟨call, event, next, -, told, becomes, answered⟩ :=
    answered_told settings store needs now answer
  rw [told, becomes] at writes
  obtain rfl := Option.some.inj writes
  -- of all answers only a read without a usable credential leads to a write
  cases answered with
  | edits none =>
      rcases operation?_eq_some needs with ⟨rfl, -⟩ | ⟨n, held, old, rfl, -⟩
      · obtain ⟨rfl, rfl⟩ := SharedEvent.read.inj told
        exact ⟨_, rfl, rfl, none, rfl⟩
      · exact nomatch told

/-- A call that writes behind a move did so before and was told nothing, or the move told it the
    record it writes on top of, as it is in the store by then. -/
theorem writing_of_move {m : Move} {round : Nat} {fresh : Credential} {edited : Record}
    (writes : (c.move location settings free store m).1.call
      = some (.writing round fresh edited)) :
    (c.call = some (.writing round fresh edited) ∧
      (c.move location settings free store m).1.past = c.past) ∨
    ∃ record now, m = .access now ∧
      (c.move location settings free store m).1.past
        = c.past ++ [⟨.read (.ok record) now, store⟩] ∧
      (c.move location settings free store m).2.look location = .ok record ∧
      Credential.usableIn? record now = none ∧ edited = fresh.writeTo record := by
  have moved := moved_move location settings free store c m
  generalize c.move location settings free store m = next at moved writes ⊢
  cases moved with
  | idle | opened => exact Or.inl ⟨writes, rfl⟩
  | begun => exact nomatch writes
  | @answered op now answer store' needs first started =>
      -- the store answered at once, so it shows the record that was read
      obtain ⟨record, rfl, rfl, none, made⟩ := writing_of_told needs writes
      exact Or.inr ⟨record, now, rfl, rfl, Store.look_of_start_get started, none, made⟩
  | @finished op now needs =>
      obtain ⟨record, rfl, read, none, made⟩ := writing_of_told needs writes
      refine Or.inr ⟨record, now, rfl, ?_, read, none, made⟩
      rw [read]
      rfl
  | failed needs =>
      obtain ⟨record, -, failed, -⟩ := writing_of_told needs writes
      exact nomatch failed
  | heard stands =>
      rw [call_hear settings store stands] at writes
      exact absurd (Option.some.inj writes) (SharedCall.ofRefreshing_ne_writing _ _ _ _)

/-- The event last heard is the last of the past. -/
theorem eq_of_past_hear {event event' : SharedEvent} {before : Store}
    (told : (c.hear settings store event).past = c.past ++ [⟨event', before⟩]) :
    event = event' := by
  have last : (⟨event, store⟩ : Moment) = ⟨event', before⟩ :=
    List.head_eq_of_cons_eq (List.append_cancel_left (told : c.past ++ [_] = _))
  exact congrArg Moment.event last

/-- What a move tells a call is the answer that its first access has found, or its second one, or a
    failure; or it is news of its refresh. -/
theorem told_cases {m : Move} {event : SharedEvent} {before : Store}
    (told : (c.move location settings free store m).1.past = c.past ++ [⟨event, before⟩]) :
    (∃ op now answer, c.operation? location = some op ∧ event = op.told now answer ∧
      (store.start op = (some answer, (c.move location settings free store m).2) ∨
        (answer = store.finish op ∧ (c.move location settings free store m).2 = store) ∨
        ∃ cause, answer = .error cause)) ∨
    ∃ news, event = .refresh news := by
  have toldNothing : c.past ≠ c.past ++ [⟨event, before⟩] := fun same =>
    List.cons_ne_nil _ _ (List.self_eq_append_right.mp same)
  have moved := moved_move location settings free store c m
  generalize c.move location settings free store m = next at moved told ⊢
  cases moved with
  | idle | begun | opened => exact absurd told toldNothing
  | answered needs first started =>
      exact Or.inl ⟨_, _, _, needs, (eq_of_past_hear told).symm, Or.inl started⟩
  | finished needs =>
      exact Or.inl ⟨_, _, _, needs, (eq_of_past_hear told).symm, Or.inr (Or.inl ⟨rfl, rfl⟩)⟩
  | failed needs =>
      exact Or.inl ⟨_, _, _, needs, (eq_of_past_hear told).symm, Or.inr (Or.inr ⟨_, rfl⟩)⟩
  | heard => exact Or.inr ⟨_, (eq_of_past_hear told).symm⟩

/-- The only answer to a write that is success comes with an update that the store accepts. -/
theorem accepts_of_written {m : Move} {stored : Record} {before : Store}
    (success : (c.move location settings free store m).1.past
      = c.past ++ [⟨.written (.ok stored), before⟩]) :
    ∃ edited, c.operation? location = some (.update edited) ∧ store.Accepts edited ∧
      (c.move location settings free store m).2 = (store.start (.update edited)).2 := by
  rcases told_cases success with ⟨op, now, answer, needs, told, source⟩ | ⟨news, told⟩
  · cases op with
    | get l => exact nomatch told
    | update edited =>
        obtain rfl := SharedEvent.written.inj told
        rcases source with started | ⟨refused, -⟩ | ⟨cause, failed⟩
        · exact ⟨edited, needs, ⟨stored, congrArg Prod.fst started⟩,
            (congrArg Prod.snd started).symm⟩
        · exact nomatch refused
        · exact nomatch failed
  · exact nomatch told

/-- A record that a call is told is in the store by then. -/
theorem look_of_read {m : Move} {record : Record} {now : Instant} {before : Store}
    (read : (c.move location settings free store m).1.past
      = c.past ++ [⟨.read (.ok record) now, before⟩]) :
    (c.move location settings free store m).2.look location = .ok record := by
  rcases told_cases read with ⟨op, reading, answer, needs, told, source⟩ | ⟨news, told⟩
  · rcases operation?_eq_some needs with ⟨rfl, -⟩ | ⟨round, fresh, edited, rfl, -⟩
    · obtain ⟨rfl, rfl⟩ := SharedEvent.read.inj told
      rcases source with started | ⟨found, same⟩ | ⟨cause, failed⟩
      · exact Store.look_of_start_get started
      · rw [same]
        exact found.symm
      · exact nomatch failed
    · exact nomatch told
  · exact nomatch told

variable (location settings free store c)

/-- **ONE MOVE**: a move keeps what the store has, without news of a success, or the store accepts
    the record that the call has edited. -/
theorem keeps_or_accepts (m : Move) :
    ((∀ stored before, (c.move location settings free store m).1.past
        ≠ c.past ++ [⟨.written (.ok stored), before⟩]) ∧
      store.Keeps location (c.move location settings free store m).2) ∨
    ∃ round fresh edited, c.call = some (.writing round fresh edited) ∧ store.Accepts edited ∧
      (c.move location settings free store m).2 = (store.start (.update edited)).2 := by
  by_cases accepts : ∃ edited, c.operation? location = some (.update edited) ∧
      store.Accepts edited ∧
      (c.move location settings free store m).2 = (store.start (.update edited)).2
  · obtain ⟨edited, needs, accepts, after⟩ := accepts
    rcases operation?_eq_some needs with ⟨get, -⟩ | ⟨round, fresh, edited', same, writing⟩
    · exact nomatch get
    · obtain rfl := Operation.update.inj same
      exact Or.inr ⟨round, fresh, edited, writing, accepts, after⟩
  · refine Or.inl ⟨fun stored before success => accepts (accepts_of_written success), ?_⟩
    rcases store_move_cases location settings free store c m with same | ⟨op, needs, -, after⟩
    · rw [same]
      exact Or.inl (.refl location store)
    · rw [after]
      rcases operation?_eq_some needs with ⟨rfl, -⟩ | ⟨round, fresh, edited, rfl, -⟩
      · exact Store.keeps_start_get store location location
      · rw [Store.start_update_of_not_accepts fun accepted =>
          accepts ⟨edited, needs, accepted, after⟩]
        exact Or.inl (.refl location store)

end Caller

namespace Fleet

/-- The keys of a store stay unique over a run. -/
theorem isKeyed_run {f : Fleet} {l : Location} (keyed : f.store.IsKeyed l) (schedule : List Act) :
    (f.run schedule).store.IsKeyed l :=
  store_run (P := fun _ s => s.IsKeyed l) keyed (fun _ _ h => h) (fun _ _ op h => h.start op) schedule

/-- The store behind a schedule follows the store before, by as many accesses as there are acts. -/
theorem follows_run (f : Fleet) (l : Location) (schedule : List Act) :
    f.store.Follows l schedule.length (f.run schedule).store :=
  store_run (P := f.store.Follows l) (.refl l f.store) (fun _ s h => h.sameAt (.refl l s))
    (fun _ _ op h => h.start op) schedule

/-- Whether a call has read the record behind an earlier schedule, and no call of its replica has
    been told anything since, by acts in between. -/
structure LastRead (f : Fleet) (i : Nat) (c : Caller) (earlier between : List Act) (now : Instant)
    (record : Record) : Prop where
  told : ∃ before, (f.run earlier).callers[i]? = some before ∧
    c.past = before.past ++ [⟨.read (.ok record) now, (f.run earlier).store⟩]
  found : (f.run (earlier ++ [.move i (.access now)])).store.look f.location = .ok record
  quiet : ∀ (j : Nat) (d : Caller), d.replica = c.replica →
    (f.run (earlier ++ .move i (.access now) :: between)).callers[j]? = some d →
    ∃ e, (f.run (earlier ++ [.move i (.access now)])).callers[j]? = some e ∧ e.past = d.past

/-- An act that tells a call nothing leaves it with its last read, as long as it holds the lock. -/
theorem LastRead.concat {f : Fleet} {i : Nat} {c c' : Caller} {earlier between : List Act}
    {now : Instant} {record : Record} (h : f.LastRead i c earlier between now record)
    (exclusive : (f.run (earlier ++ .move i (.access now) :: between)).Exclusive)
    (present : (f.run (earlier ++ .move i (.access now) :: between)).callers[i]? = some c)
    (holds : c.holdsLock = true) (act : Act)
    (present' : ((f.run (earlier ++ .move i (.access now) :: between)).step act).callers[i]?
      = some c') (replica : c'.replica = c.replica) (past : c'.past = c.past) :
    f.LastRead i c' earlier (between ++ [act]) now record where
  told := by
    rw [past]
    exact h.told
  found := h.found
  quiet := by
    intro j d same there
    have parts : earlier ++ .move i (.access now) :: (between ++ [act])
        = (earlier ++ .move i (.access now) :: between) ++ [act] :=
      (List.append_assoc earlier (.move i (.access now) :: between) [act]).symm
    rw [parts, run_concat] at there
    rcases callers_step_cases there with unmoved | ⟨m, before, rfl, was, moved⟩
    · exact h.quiet j d (same.trans replica) unmoved
    · by_cases own : i = j
      · subst own
        obtain rfl := Option.some.inj (present'.symm.trans there)
        obtain ⟨e, at', heard⟩ := h.quiet i c rfl present
        exact ⟨e, at', heard.trans past.symm⟩
      · -- the lock is taken, so the other call is told nothing
        have shared : before.replica = c.replica := by
          rw [moved, Caller.replica_move] at same
          exact same.trans replica
        have waits := exclusive i j c before own present was shared.symm holds
        obtain ⟨e, at', heard⟩ := h.quiet j before shared was
        refine ⟨e, at', heard.trans ?_⟩
        rw [moved, Caller.past_move_of_not_holdsLock waits]

/-- **READ BEFORE WRITE**: a call that is about to write has read the record that it has edited,
    found no usable credential in it, and nothing has been told to its replica since. -/
theorem lastRead_of_writing {f : Fleet} (fresh : f.IsFresh) (schedule : List Act) {i : Nat}
    {c : Caller} (present : (f.run schedule).callers[i]? = some c) {round : Nat}
    {held : Credential} {edited : Record} (writes : c.call = some (.writing round held edited)) :
    ∃ earlier between now record, schedule = earlier ++ .move i (.access now) :: between ∧
      f.LastRead i c earlier between now record ∧ Credential.usableIn? record now = none ∧
      edited = held.writeTo record := by
  induction schedule using List.reverseRecOn generalizing c with
  | nil =>
      rw [fresh c (List.mem_of_getElem? present)] at writes
      exact nomatch writes
  | append_singleton schedule act ih =>
      rw [run_concat] at present
      rcases callers_step_cases present with same | ⟨m, before, rfl, was, moved⟩
      -- the step was another call's: the last read is still the last
      · obtain ⟨earlier, between, now, record, rfl, last, none, made⟩ := ih same writes
        refine ⟨earlier, between ++ [act], now, record, ?_, ?_, none, made⟩
        · exact List.append_assoc ..
        · exact last.concat (exclusive_run fresh _) same (by rw [Caller.holdsLock, writes]) act
            present rfl rfl
      · rw [moved] at writes
        rcases Caller.writing_of_move writes with
          ⟨wrote, quiet⟩ | ⟨record, now, rfl, told, found, none, made⟩
        · obtain ⟨earlier, between, now, record, rfl, last, none, made⟩ := ih was wrote
          refine ⟨earlier, between ++ [.move i m], now, record, ?_, ?_, none, made⟩
          · exact List.append_assoc ..
          · refine last.concat (exclusive_run fresh _) was (by rw [Caller.holdsLock, wrote]) _
              present ?_ ?_
            · rw [moved, Caller.replica_move]
            · rw [moved]
              exact quiet
        -- the step was the read itself
        · refine ⟨schedule, [], now, record, rfl, ⟨⟨before, was, ?_⟩, ?_, ?_⟩, none, made⟩
          · rw [moved]
            exact told
          · rw [run_concat, store_step_move was]
            rw [location_run] at found ⊢
            exact found
          · exact fun j d _ there => ⟨d, there, rfl⟩

/-- Whether a store holds what a safe write of a call leaves there: the call has read the record
    that is replaced, and was granted the credential that is in it by then. -/
structure SafeWrite (f : Fleet) (schedule : List Act) (i : Nat) (c : Caller) (after : Store)
    (earlier between : List Act) (now : Instant) (record : Record) (held : Credential)
    (data : Fields) : Prop where
  /-- The call read the record before, and the clock read as given behind that. -/
  read : schedule = earlier ++ .move i (.access now) :: between
  last : f.LastRead i c earlier between now record
  unusable : Credential.usableIn? record now = none
  /-- The version that is replaced is the one that was read. -/
  version : (f.run schedule).store.versionAt? f.location = some record.version
  /-- All of the record that is replaced was read; in memory, 2^64 updates lead round to its version
      again. -/
  replaced : ((f.run schedule).store.IsMemory → between.length < UInt64.size) →
    (f.run schedule).store.look f.location = .ok record
  issued : Caller.Issued (f.settings c.replica).maxAge c.past held
  stored : after.dataAt? f.location = some data
  token : data.get? Credential.tokenKey = some held.token
  expiry : data.get? Credential.expiryKey = some (Rfc3339.format held.expiresAt)
  /-- The other keys are left alone. -/
  others : ∀ key, key ≠ Credential.tokenKey → key ≠ Credential.expiryKey →
    data.get? key = record.data.get? key

/-- **PROVIDER WRITES ARE SAFE**: let the calls of any replicas move in any order, with anybody
    else's operations of the store in between, and let one call move next.  The record stays as it
    is, or an empty one is created where none was, and the call hears of no success.  Or else the
    move writes the record, and does so safely: it replaces the very version that the call read as
    the last thing its replica was told; that had no usable credential at the reading of the clock
    behind the read; and only the two keys of a credential change, to those of one that was issued
    to this call. -/
theorem provider_writes_are_safe {f : Fleet} (fresh : f.IsFresh)
    (keyed : f.store.IsKeyed f.location) (schedule : List Act) {i : Nat} {c : Caller}
    (present : (f.run schedule).callers[i]? = some c) (m : Move) :
    let g := f.run schedule
    let g' := g.step (.move i m)
    (g.store.Keeps f.location g'.store ∧
      ∀ c' stored before, g'.callers[i]? = some c' →
        c'.past ≠ c.past ++ [⟨.written (.ok stored), before⟩]) ∨
    ∃ earlier between now record held data,
      f.SafeWrite schedule i c g'.store earlier between now record held data := by
  intro g g'
  have after := store_step_move present m
  have location := location_run f schedule
  rcases Caller.keeps_or_accepts g.location (g.settings c.replica) (g.isFree c.replica) g.store
      c m with
    ⟨unsuccessful, keeps⟩ | ⟨round, held, edited, writes, accepts, written⟩
  · refine Or.inl ⟨?_, fun c' stored before there => ?_⟩
    · rw [← after, location] at keeps
      exact keeps
    · rw [callers_step_self present] at there
      rw [← Option.some.inj there]
      exact unsuccessful stored before
  · obtain ⟨earlier, between, now, record, rfl, last, unusable, rfl⟩ :=
      lastRead_of_writing fresh schedule present writes
    have issued := accounts_run fresh _ present
    simp only [Caller.Accounts, writes] at issued
    have here : (held.writeTo record).location = f.location := by
      show record.location = f.location
      exact (isKeyed_run keyed _).location_eq last.found
    -- between the read and the write, others may raise the version
    have follows : (f.run (earlier ++ [.move i (.access now)])).store.Follows f.location
        between.length g.store := by
      have split : g = (f.run (earlier ++ [.move i (.access now)])).run between := by
        rw [← run_append, List.append_assoc]
        rfl
      rw [split]
      exact follows_run _ _ between
    refine Or.inr ⟨earlier, between, now, record, held, (held.writeTo record).data, ?_⟩
    constructor
    case read => rfl
    case last => exact last
    case unusable => exact unusable
    case version => exact Store.versionAt?_of_follows follows last.found here rfl accepts
    case replaced => exact Store.look_of_follows follows last.found here rfl accepts
    case issued => exact issued
    case stored =>
      rw [after, written, ← here]
      exact accepts.dataAt?
    case token => exact Credential.get?_writeTo_tokenKey held record
    case expiry => exact Credential.get?_writeTo_expiryKey held record
    case others => exact fun key => Credential.get?_writeTo_of_ne held record

/-- The write that wins the race is a safe one. -/
theorem provider_writes_are_safe_lost_race :
    let f := pair (.memory {})
    let schedule := (lostRace .epoch).take 10
    let g' := (f.run schedule).step (.move 0 (.access .epoch))
    f.IsFresh ∧ f.store.IsKeyed f.location ∧
      ∃ c, (f.run schedule).callers[0]? = some c ∧
        ∃ earlier between now record held data,
          f.SafeWrite schedule 0 c g'.store earlier between now record held data := by
  intro f schedule g'
  have fresh : f.IsFresh := isFresh_pair (.memory {})
  have empty : f.store.IsEmpty := rfl
  have keyed : f.store.IsKeyed f.location := Store.isKeyed_of_isEmpty empty f.location
  have versions : ((f.run schedule).store.versionAt? f.location, g'.store.versionAt? f.location)
      = (some 0, some 1) := by decide +kernel
  obtain ⟨before, behind⟩ := Prod.mk.inj versions
  have inside : 0 < (f.run schedule).callers.length := by decide +kernel
  have present : (f.run schedule).callers[0]? = some (f.run schedule).callers[0] :=
    List.getElem?_eq_getElem inside
  refine ⟨fresh, keyed, _, present, ?_⟩
  rcases provider_writes_are_safe fresh keyed schedule present (.access .epoch) with
    ⟨keeps, -⟩ | safe
  · rw [Store.versionAt?_of_keeps keeps before] at behind
    exact nomatch behind
  · exact safe

end Fleet

end Courier
