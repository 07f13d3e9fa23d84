import Courier.Proofs.Shared.Call
import Courier.Proofs.Shared.Fleet
import Courier.Proofs.Token.Credential
import Mathlib.Data.List.Induction
import Mathlib.Data.List.Infix

/-! # Adoption — what a conflict leads to

    A conflict says that somebody else wrote the record.  In the first two
    rounds the call reads again, and adopts a usable credential if the record
    holds one by then; an adopted credential never meets another conflict.
    Behind a conflict in the last round there is no read any more: the call
    gives up whatever the record holds. -/

namespace Courier

/-- The round of a write that a call is about to make. -/
def SharedCall.writeRound? : SharedCall → Option Nat
  | writing round _ _ => some round
  | _ => none

/-- A call in the midst of writing has a credential and the edited record. -/
theorem SharedCall.eq_writing {call : SharedCall} {round : Nat}
    (h : call.writeRound? = some round) : ∃ fresh edited, call = writing round fresh edited := by
  cases call with
  | writing n fresh edited => exact ⟨fresh, edited, by rw [Option.some.inj h]⟩
  | looking => exact nomatch h
  | refreshing state => exact nomatch h
  | rereading n fresh => exact nomatch h
  | done result => exact nomatch h

/-- Whether a call is told that its write met a conflict. -/
def SharedEvent.isConflict : SharedEvent → Bool
  | .written (.error (.conflict ..)) => true
  | _ => false

/-- A conflict is an answer to a write. -/
theorem SharedEvent.eq_of_isConflict {event : SharedEvent} (h : event.isConflict = true) :
    ∃ l version, event = .written (.error (.conflict l version)) := by
  cases event with
  | read answer now => exact nomatch h
  | refresh event => exact nomatch h
  | written answer =>
      cases answer with
      | ok stored => exact nomatch h
      | error e =>
          cases e with
          | conflict l version => exact ⟨l, version, rfl⟩
          | notFound l => exact nomatch h
          | database reason => exact nomatch h
          | badData fault => exact nomatch h

namespace Store

/-- Whether a selection finds a record with the credential in it. -/
def Bears (s : Store) (l : Location) (credential : Credential) : Prop :=
  ∃ record, s.look l = .ok record ∧ Credential.ofRecord? record = some credential

/-- A credential that a look finds is one that the store bears. -/
theorem bears_of_look {s : Store} {l : Location} {credential : Credential}
    (held : (s.look l).toOption.bind Credential.ofRecord? = some credential) :
    s.Bears l credential := by
  cases found : s.look l with
  | error e =>
      rw [found] at held
      exact nomatch held
  | ok record =>
      rw [found] at held
      exact ⟨record, found, held⟩

end Store

namespace Caller

variable {location : Location} (settings : RefreshSettings) (free : Bool) {store : Store}
variable {c : Caller}

/-- What a call that writes heard last was a conflict: it starts the next round or gives up. -/
theorem call_hear_of_conflict {round : Nat} {fresh : Credential} {edited : Record}
    {event : SharedEvent} {m : Moment} (writes : c.call = some (.writing round fresh edited))
    (told : (c.hear settings store event).past = c.past ++ [m])
    (conflict : m.event.isConflict = true) :
    (c.hear settings store event).call = some (SharedCall.afterConflict round fresh) := by
  have last : m = ⟨event, store⟩ :=
    (List.head_eq_of_cons_eq (List.append_cancel_left (told : c.past ++ [_] = _))).symm
  rw [last] at conflict
  obtain ⟨l, version, rfl⟩ := SharedEvent.eq_of_isConflict conflict
  exact call_hear settings store writes _

/-- A call that is about to read again gets midway, or adopts what the record bears. -/
theorem move_access_of_bears {round : Nat} {fresh credential : Credential} {now : Instant}
    (rereads : c.call = some (.rereading round fresh)) (bears : store.Bears location credential)
    (usable : credential.isUsableAt now = true) :
    let c' := (c.move location settings free store (.access now)).1
    (c.midway = false ∧ c'.midway = true ∧ c'.call = c.call) ∨
      c'.call = some (.done (.ok credential.token)) := by
  obtain ⟨record, found, held⟩ := bears
  have needs : c.operation? location = some (.get location) := operation?_of_call rereads
  have adopted : (c.hear settings store (.read (.ok record) now)).call
      = some (.done (.ok credential.token)) :=
    (call_hear settings store rereads _).trans
      (congrArg some (SharedCall.step_rereading_of_usable round fresh
        (Credential.usableIn?_eq_some.mpr ⟨held, usable⟩)))
  cases midway : c.midway with
  | true =>
      rw [move_access_of_midway settings free store needs midway now]
      rw [show store.finish (.get location) = .ok record from found]
      exact Or.inr adopted
  | false =>
      rcases move_access_of_starts settings free store needs midway (Store.start_get_of_look found)
        now with told | opened
      · rw [told]
        exact Or.inr adopted
      · rw [opened]
        exact Or.inl ⟨rfl, rfl, rfl⟩

/-- A call that is about to read again is changed by accesses and failures only. -/
theorem move_of_rereading {round : Nat} {fresh : Credential} {m : Move}
    (rereads : c.call = some (.rereading round fresh)) (noAccess : ∀ now, m ≠ .access now)
    (noFailure : ∀ now cause reached, m ≠ .fail now cause reached) :
    (c.move location settings free store m).1 = c := by
  cases m with
  | enter =>
      simp only [move, rereads, Option.isNone_some, Bool.false_and, Bool.false_eq_true, if_false]
  | access now => exact absurd rfl (noAccess now)
  | fail now cause reached => exact absurd rfl (noFailure now cause reached)
  | refresh event => simp only [move, rereads]

/-- A call that has returned stays as it is. -/
theorem move_of_done {result : Except TokenError String} (m : Move)
    (ended : c.call = some (.done result)) : (c.move location settings free store m).1 = c := by
  have needs : c.operation? location = none := operation?_of_call ended
  cases m with
  | enter =>
      simp only [move, ended, Option.isNone_some, Bool.false_and, Bool.false_eq_true, if_false]
  | access now => simp only [move, needs]
  | fail now cause reached => simp only [move, needs]
  | refresh event => simp only [move, ended]

end Caller

namespace Fleet

/-- Whether an act is an access of the call with the given number. -/
def Act.isAccess (i : Nat) : Act → Bool
  | .move j (.access _) => i == j
  | _ => false

/-- The number of accesses that a call makes in a schedule. -/
def accesses (i : Nat) (schedule : List Act) : Nat := (schedule.filter (Act.isAccess i)).length

/-- A call that is done stays so. -/
theorem callOf_step_of_done {f : Fleet} {i : Nat} {result : Except TokenError String}
    (ended : f.callOf i = some (.done result)) (act : Act) :
    (f.step act).callOf i = some (.done result) := by
  obtain ⟨c, present, stands⟩ := Option.bind_eq_some_iff.mp ended
  by_cases own : ∃ m, act = .move i m
  · obtain ⟨m, rfl⟩ := own
    rw [callOf, callers_step_self present, Caller.move_of_done _ _ m stands]
    exact stands
  · rw [callOf, callers_step_of_ne f fun m same => own ⟨m, same⟩]
    exact ended

/-- A call that has returned has returned for good. -/
theorem callOf_run_of_done {f : Fleet} {i : Nat} {result : Except TokenError String}
    (ended : f.callOf i = some (.done result)) (schedule : List Act) :
    (f.run schedule).callOf i = some (.done result) := by
  induction schedule using List.reverseRecOn with
  | nil => exact ended
  | append_singleton schedule act ih =>
      rw [run_concat]
      exact callOf_step_of_done ih act

/-- The accesses of a call are counted act by act. -/
theorem accesses_concat (i : Nat) (schedule : List Act) (act : Act) :
    accesses i (schedule ++ [act])
      = accesses i schedule + if act.isAccess i then 1 else 0 := by
  rw [accesses, List.filter_append, List.length_append]
  cases h : act.isAccess i with
  | true => rw [List.filter_cons_of_pos h]; rfl
  | false => rw [List.filter_cons_of_neg (by rw [h]; exact Bool.false_ne_true)]; rfl

/-- The state of a call that is about to read again, by how often it has accessed the store, and
    of one that has adopted the credential. -/
def Adopting (i : Nat) (round : Nat) (fresh credential : Credential) (count : Nat) (f : Fleet) :
    Prop :=
  (∃ c, f.callers[i]? = some c ∧ c.call = some (.rereading round fresh) ∧
    ((c.midway = false ∧ count = 0) ∨ (c.midway = true ∧ count = 1))) ∨
  f.callOf i = some (.done (.ok credential.token))

/-- An access is that move of the call. -/
theorem Act.eq_access_of_isAccess {act : Act} {i : Nat} (h : act.isAccess i = true) :
    ∃ now, act = .move i (.access now) := by
  cases act with
  | foreign op => exact nomatch h
  | move j m =>
      cases m with
      | access now => exact ⟨now, by rw [beq_iff_eq.mp h]⟩
      | enter => exact nomatch h
      | fail now cause reached => exact nomatch h
      | refresh event => exact nomatch h

/-- A call that is about to read again is changed by its own accesses and failures only. -/
theorem callers_step_of_not_isAccess {f : Fleet} {i round : Nat} {c : Caller} {fresh : Credential}
    (present : f.callers[i]? = some c) (rereads : c.call = some (.rereading round fresh))
    {act : Act} (noAccess : ¬act.isAccess i = true)
    (calm : ∀ now cause reached, act ≠ .move i (.fail now cause reached)) :
    (f.step act).callers[i]? = some c := by
  by_cases own : ∃ m, act = .move i m
  · obtain ⟨m, rfl⟩ := own
    rw [callers_step_self present m, Caller.move_of_rereading _ _ rereads]
    · rintro now rfl
      exact noAccess (beq_self_eq_true i)
    · rintro now cause reached rfl
      exact calm now cause reached rfl
  · rw [callers_step_of_ne f fun m same => own ⟨m, same⟩]
    exact present

/-- One act: while the record bears a usable credential, the call gets midway or adopts it. -/
theorem adopting_step {f : Fleet} {i round count : Nat} {fresh credential : Credential}
    (adopting : f.Adopting i round fresh credential count) {act : Act}
    (calm : ∀ now cause reached, act ≠ .move i (.fail now cause reached))
    (usable : ∀ now, act = .move i (.access now) → credential.isUsableAt now = true)
    (bears : (∀ result, f.callOf i ≠ some (.done result)) → f.store.Bears f.location credential) :
    (f.step act).Adopting i round fresh credential (count + if act.isAccess i then 1 else 0) := by
  rcases adopting with ⟨c, present, rereads, counted⟩ | adopted
  · by_cases access : act.isAccess i = true
    · rw [if_pos access]
      obtain ⟨now, rfl⟩ := Act.eq_access_of_isAccess access
      -- the call has not returned, so the record bears the credential
      have running : ∀ result, f.callOf i ≠ some (.done result) := by
        intro result ended
        rw [callOf, present] at ended
        exact nomatch rereads.symm.trans ended
      have moved := callers_step_self present (.access now)
      rcases Caller.move_access_of_bears (f.settings c.replica) (f.isFree c.replica) rereads
        (bears running) (usable now rfl) with ⟨idle, midway, same⟩ | ended
      · refine Or.inl ⟨_, moved, same.trans rereads, Or.inr ⟨midway, ?_⟩⟩
        rcases counted with ⟨-, none⟩ | ⟨midway, -⟩
        · rw [none]
        · exact absurd (idle.symm.trans midway) Bool.false_ne_true
      · refine Or.inr ?_
        rw [callOf, moved]
        exact ended
    · rw [if_neg access]
      exact Or.inl ⟨c, callers_step_of_not_isAccess present rereads access calm, rereads, counted⟩
  · exact Or.inr (callOf_step_of_done adopted act)

/-- A whole schedule: while the record bears a usable credential, the call adopts it, at the
    latest with its second access. -/
theorem adopting_run {f : Fleet} {i round : Nat} {fresh credential : Credential}
    (adopting : f.Adopting i round fresh credential 0) (schedule : List Act)
    (calm : ∀ now cause reached, .move i (.fail now cause reached) ∉ schedule)
    (usable : ∀ now, .move i (.access now) ∈ schedule → credential.isUsableAt now = true)
    (bears : ∀ earlier, earlier <+: schedule →
      (∀ result, (f.run earlier).callOf i ≠ some (.done result)) →
      (f.run earlier).store.Bears f.location credential) :
    (f.run schedule).Adopting i round fresh credential (accesses i schedule) := by
  induction schedule using List.reverseRecOn with
  | nil => exact adopting
  | append_singleton schedule act ih =>
      have before := ih (fun now cause reached mem => calm now cause reached
          (List.mem_append_left _ mem))
        (fun now mem => usable now (List.mem_append_left _ mem))
        (fun earlier pre => bears earlier (pre.trans (List.prefix_append ..)))
      rw [run_concat, accesses_concat]
      refine adopting_step before (fun now cause reached same => ?_) (fun now same => ?_) ?_
      · exact calm now cause reached (List.mem_append_right _ (List.mem_singleton.mpr same.symm))
      · exact usable now (List.mem_append_right _ (List.mem_singleton.mpr same.symm))
      · rw [location_run]
        exact bears schedule (List.prefix_append ..)

/-! ## Behind a conflict -/

/-- A call that was told of a conflict starts the next round, or gives up behind the last one. -/
theorem call_of_conflict {f : Fleet} {i round : Nat} {c c' : Caller} {fresh : Credential}
    {edited : Record} {now : Instant} {m : Moment}
    (present : f.callers[i]? = some c) (writes : c.call = some (.writing round fresh edited))
    (after : (f.step (.move i (.access now))).callers[i]? = some c')
    (told : c'.past = c.past ++ [m]) (conflict : m.event.isConflict = true) :
    c'.call = some (SharedCall.afterConflict round fresh) ∧ c'.midway = false := by
  rw [callers_step_self present] at after
  obtain rfl := Option.some.inj after
  -- a move that tells the call nothing is not the one that told it of a conflict
  have longer {d : Caller} (told : d.past = c.past ++ [m]) : d.past ≠ c.past := by
    intro same
    rw [same] at told
    exact absurd (List.self_eq_append_right.mp told) (List.cons_ne_nil _ _)
  have moved := Caller.moved_move f.location (f.settings c.replica) (f.isFree c.replica) f.store c
    (.access now)
  generalize c.move f.location (f.settings c.replica) (f.isFree c.replica) f.store (.access now)
    = next at moved told ⊢
  cases moved with
  | idle | opened => exact absurd rfl (longer told)
  | answered | finished => exact ⟨Caller.call_hear_of_conflict _ writes told conflict, rfl⟩

/-- **A CONFLICT IN AN EARLY ROUND IS MADE GOOD, ONE IN THE LAST ROUND IS NOT**: let a write of a
    call meet a conflict, and from then until the call returns let the record bear a credential
    that is usable whenever the call reads the clock, in a store that does not fail the call.
    Whatever else happens, a call that was in an earlier round than the last is about to read
    again, with less than two accesses made, or it has returned the token of that credential.  A
    call that was in the last round has returned that it gave up. -/
theorem credential_behind_conflict {f : Fleet} {i round : Nat} {c c' : Caller}
    {fresh credential : Credential} {edited : Record} {now : Instant} {m : Moment}
    (present : f.callers[i]? = some c) (writes : c.call = some (.writing round fresh edited))
    (after : (f.step (.move i (.access now))).callers[i]? = some c')
    (told : c'.past = c.past ++ [m]) (conflict : m.event.isConflict = true) (later : List Act)
    (calm : ∀ now cause reached, .move i (.fail now cause reached) ∉ later)
    (usable : ∀ now, .move i (.access now) ∈ later → credential.isUsableAt now = true)
    (bears : ∀ earlier, earlier <+: later →
      let g := (f.step (.move i (.access now))).run earlier
      (∀ result, g.callOf i ≠ some (.done result)) → g.store.Bears f.location credential) :
    let g := (f.step (.move i (.access now))).run later
    (round < SharedCall.maxRounds ∧ accesses i later < 2 ∧
        g.callOf i = some (.rereading (round + 1) fresh)) ∨
      g.callOf i = some (.done (if round < SharedCall.maxRounds then .ok credential.token
        else .error (.conflictsExhausted (.ofNat SharedCall.maxRounds)))) := by
  intro g
  obtain ⟨stands, idle⟩ := call_of_conflict present writes after told conflict
  by_cases early : round < SharedCall.maxRounds
  · have again : c'.call = some (.rereading (round + 1) fresh) :=
      stands.trans (congrArg some (if_pos early))
    -- a round is left: the call reads again, and adopts whatever that read shows
    have adopting : (f.step (.move i (.access now))).Adopting i (round + 1) fresh credential 0 :=
      Or.inl ⟨c', after, again, Or.inl ⟨idle, rfl⟩⟩
    rw [← location_step f (.move i (.access now))] at bears
    rcases adopting_run adopting later calm usable bears with
      ⟨c'', present', rereads, counted⟩ | adopted
    · refine Or.inl ⟨early, by omega, ?_⟩
      show ((f.step (.move i (.access now))).run later).callers[i]?.bind _ = _
      rw [present']
      exact rereads
    · rw [if_pos early]
      exact Or.inr adopted
  · -- there is no round left
    have gaveUp : (f.step (.move i (.access now))).callOf i
        = some (.done (.error (.conflictsExhausted (.ofNat SharedCall.maxRounds)))) := by
      rw [callOf, after]
      exact stands.trans (congrArg some (if_neg early))
    rw [if_neg early]
    exact Or.inr (callOf_run_of_done gaveUp later)

/-- The credential that somebody else stores. -/
def peer : Credential := .issued "peer-token" (.ofSeconds 3600) (.ofSeconds 600) .epoch

/-- A call gets as far as its first write; the token that the issuer grants it is its own. -/
def untilFirstWrite : List Act :=
  [.move 0 .enter, .move 0 (.access .epoch), .move 0 (.refresh (.sent .epoch)),
    .move 0 (.refresh (.answered (.ok ⟨"own-token", 3600⟩))), .move 0 (.access .epoch)]

/-- Somebody else updates the record at the given version. -/
def foreignUpdate (data : Fields) (version : UInt64) : Act :=
  .foreign (.update ⟨(pair (.memory {})).location, data, version⟩)

/-- What somebody else writes who does not care for credentials. -/
def unrelated (n : String) : Fields := .ofList [("edit", n)]

/-- The data of a record with the credential of somebody else. -/
def published : Fields := (peer.writeTo (.empty (pair (.memory {})).location)).data

/-- Two accesses of the call. -/
def twice : List Act := [.move 0 (.access .epoch), .move 0 (.access .epoch)]

/-- A peer writes before the first write of a call: the call adopts the peer's token. -/
theorem credential_behind_conflict_first_round :
    let f := (pair (.memory {})).run (untilFirstWrite ++ [foreignUpdate published 0])
    let g := f.step (.move 0 (.access .epoch))
    ∃ c c' m fresh edited, f.callers[0]? = some c ∧
      c.call = some (.writing 1 fresh edited) ∧ g.callers[0]? = some c' ∧
      c'.past = c.past ++ [m] ∧ m.event.isConflict = true ∧
      (g.run twice).callOf 0 = some (.done (.ok "peer-token")) := by
  intro f g
  have round : (f.callOf 0).bind SharedCall.writeRound? = some 1 := by decide +kernel
  obtain ⟨call, standing, round⟩ := Option.bind_eq_some_iff.mp round
  obtain ⟨c, present, stands⟩ := Option.bind_eq_some_iff.mp standing
  obtain ⟨fresh, edited, rfl⟩ := SharedCall.eq_writing round
  have after := callers_step_self present (.access .epoch)
  have grown : (g.callers[0]?.map fun c' =>
        (c'.past.length, c'.past.getLast?.any fun m => m.event.isConflict))
      = (f.callers[0]?.map fun c => (c.past.length + 1, true)) := by decide +kernel
  rw [after, present] at grown
  obtain ⟨longer, conflict⟩ := Prod.mk.inj (Option.some.inj grown)
  -- the access has told the call one more thing, so that thing is the conflict
  rcases Caller.past_move f.location (f.settings c.replica) (f.isFree c.replica) f.store c
    (.access .epoch) with same | ⟨event, told⟩
  · rw [same] at longer
    exact absurd longer (Nat.ne_add_one _)
  rw [told, List.getLast?_concat] at conflict
  -- the peer's credential stands after every part of the rest of the schedule
  have shown : ∀ earlier ∈ twice.inits,
      ((g.run earlier).store.look f.location).toOption.bind Credential.ofRecord? = some peer := by
    decide +kernel
  have bears : ∀ earlier, earlier <+: twice → (g.run earlier).store.Bears f.location peer :=
    fun earlier pre => Store.bears_of_look (shown earlier ((List.mem_inits earlier twice).mpr pre))
  have calm : ∀ now cause reached, Act.move 0 (.fail now cause reached) ∉ twice := by
    intro now cause reached mem
    simp [twice] at mem
  have usable : ∀ now, Act.move 0 (.access now) ∈ twice → peer.isUsableAt now = true := by
    intro now mem
    have same : now = .epoch := by simpa [twice] using mem
    rw [same]
    decide +kernel
  refine ⟨c, _, _, fresh, edited, present, stands, after, told, conflict, ?_⟩
  rcases credential_behind_conflict present stands after told conflict twice calm usable
    fun earlier pre _ => bears earlier pre with ⟨-, few, -⟩ | returned
  · exact absurd few (by decide)
  · exact returned

/-- The record changes under every write of the call, the last time by a usable credential. -/
def untilLastWrite : List Act :=
  untilFirstWrite ++ [foreignUpdate (unrelated "1") 0, .move 0 (.access .epoch),
    .move 0 (.access .epoch), foreignUpdate (unrelated "2") 1, .move 0 (.access .epoch),
    .move 0 (.access .epoch), foreignUpdate published 2]

/-- **THE LAST ROUND HIDES A USABLE CREDENTIAL**: three writes of a call meet conflicts, and behind
    the third one the record holds a usable credential, but the call gives up. -/
theorem last_conflict_hides_credential :
    let f := (pair (.memory {})).run untilLastWrite
    let g := f.step (.move 0 (.access .epoch))
    (f.callOf 0).bind SharedCall.writeRound? = some SharedCall.maxRounds ∧
      peer.isUsableAt .epoch = true ∧
      ((f.store.look f.location).toOption.bind Credential.ofRecord?) = some peer ∧
      ((g.store.look f.location).toOption.bind Credential.ofRecord?) = some peer ∧
      (g.callers[0]?.map fun c => c.past.countP fun m => m.event.isConflict) = some 3 ∧
      (g.callers[0]?.bind Caller.token?) = none ∧
      ((g.callers[0]?.bind Caller.failure?).map TokenError.message)
        = some "gave up storing shared credential after 3 conflicting writes" := by
  decide +kernel

end Fleet

end Courier
