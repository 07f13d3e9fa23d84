import Courier.Proofs.Shared.Call
import Courier.Proofs.Shared.Fleet
import Courier.Proofs.Token.Credential

/-! # Provenance — a token that is handed out is in the record

    A call that ends with a token has just read that token in a record, in a
    credential that was usable at the reading of the clock behind the read,
    or it has just written it there: the issuer granted the token to this very
    call, the record was read, and the write against the version of that read
    succeeded.

    The invariant (`Credible`) says for each state of a call which part of
    that story its past tells already.  It holds for arbitrary other writers,
    clocks and failures, so nothing is asked of them. -/

namespace Courier

namespace Caller

/-- Whether the issuer granted a token in the past of a call. -/
def Granted (past : List Moment) (token : String) : Prop :=
  ∃ m ∈ past, ∃ grant : Grant, m.event = .refresh (.answered (.ok grant)) ∧ grant.token = token

/-- The last thing that the call did was to read a record whose credential has the token, and was
    usable at the reading of the clock behind it. -/
def Found (location : Location) (token : String) (c : Caller) : Prop :=
  ∃ earlier before record now credential,
    c.past = earlier ++ [⟨.read (.ok record) now, before⟩] ∧
    (before.getOrCreate location).1 = .ok record ∧
    Credential.ofRecord? record = some credential ∧ credential.isUsableAt now = true ∧
    credential.token = token

/-- The last things that the call did were to read the record and to write a credential on top of
    what it read, with success; before, the issuer had granted its token to this call. -/
def Published (location : Location) (token : String) (c : Caller) : Prop :=
  ∃ earlier atRead record now fresh atWrite stored,
    c.past = earlier ++ [⟨.read (.ok record) now, atRead⟩, ⟨.written (.ok stored), atWrite⟩] ∧
    (atRead.getOrCreate location).1 = .ok record ∧
    (atWrite.update (Credential.writeTo fresh record)).1 = .ok stored ∧
    fresh.token = token ∧ Granted earlier token

/-- What the past of a call tells, by where the call stands. -/
def Credible (location : Location) (c : Caller) : Prop :=
  match c.call with
  | none => True
  | some .looking => True
  | some (.refreshing state) => state.IsRunning
  | some (.rereading _ fresh) => Granted c.past fresh.token
  | some (.writing _ fresh edited) => ∃ earlier atRead record now,
      c.past = earlier ++ [⟨.read (.ok record) now, atRead⟩] ∧
      (atRead.getOrCreate location).1 = .ok record ∧ edited = fresh.writeTo record ∧
      Granted earlier fresh.token
  | some (.done (.ok token)) => c.Found location token ∨ c.Published location token
  | some (.done (.error _)) => True

variable {location : Location} {settings : RefreshSettings} {store : Store} {c : Caller}

/-- A token granted in a call's past was granted in a longer past. -/
theorem Granted.append {past : List Moment} {token : String} (h : Granted past token)
    (more : List Moment) : Granted (past ++ more) token := by
  obtain ⟨m, hm, grant⟩ := h
  exact ⟨m, List.mem_append_left more hm, grant⟩

/-- A call that has just read the record and ended: its past tells why. -/
theorem credible_of_usable {c' : Caller} {record : Record} {now : Instant}
    {credential : Credential} (past : c'.past = c.past ++ [⟨.read (.ok record) now, store⟩])
    (call : c'.call = some (.done (.ok credential.token)))
    (honest : (store.getOrCreate location).1 = .ok record)
    (usable : Credential.usableIn? record now = some credential) : c'.Credible location := by
  obtain ⟨read, inTime⟩ := Credential.usableIn?_eq_some.mp usable
  simp only [Credible, call]
  exact Or.inl ⟨c.past, store, record, now, credential, past, honest, read, inTime, rfl⟩

/-- A call that failed has no token to account for. -/
theorem credible_of_failure {c' : Caller} {e : TokenError}
    (call : c'.call = some (.done (.error e))) : c'.Credible location := by
  simp only [Credible, call]

/-- News of a refresh leave the past telling the story. -/
theorem credible_refresh {state : Refreshing} (stands : c.call = some (.refreshing state))
    (credible : c.Credible location) (event : RefreshEvent) :
    (c.hear settings store (.refresh event)).Credible location := by
  have next := call_hear settings store stands (.refresh event)
  simp only [Credible, stands] at credible
  rcases SharedCall.step_refreshing_cases settings credible event with
    ⟨goesOn, running⟩ | ⟨engine, backoff, requestedAt, grant, -, rfl, ended⟩ | ⟨cause, -, ended⟩
  · rw [goesOn] at next
    simp only [Credible, next]
    exact running
  · rw [ended] at next
    simp only [Credible, next]
    exact ⟨_, List.mem_append_right c.past (List.mem_singleton.mpr rfl), grant, rfl, rfl⟩
  · rw [ended] at next
    exact credible_of_failure next

/-- **ONE TRUE ANSWER**: what the store would answer leaves the past telling the story. -/
theorem credible_told {op : Operation} {answer : Except StoreError Record} {now : Instant}
    (credible : c.Credible location) (needs : c.operation? location = some op)
    (honest : ∀ record, answer = .ok record → (store.perform op).1 = .ok record) :
    (c.hear settings store (op.told now answer)).Credible location := by
  obtain ⟨call, event, next, stands, told, becomes, answered⟩ :=
    answered_told settings store needs now answer
  rw [told]
  simp only [Credible, stands] at credible
  rcases operation?_eq_some needs with ⟨rfl, -⟩ | ⟨round, fresh, edited, rfl, writing⟩
  · obtain rfl : .read answer now = event := told
    cases answered with
    | found usable => exact credible_of_usable rfl becomes (honest _ rfl) usable
    | missed =>
        simp only [Credible, becomes]
        exact trivial
    | adopted usable => exact credible_of_usable rfl becomes (honest _ rfl) usable
    | edits =>
        -- the write that comes next is on top of what was just read
        simp only [Credible, becomes]
        exact ⟨c.past, store, _, now, rfl, honest _ rfl, rfl, credible⟩
    | unread | unreread => exact credible_of_failure becomes
  · obtain rfl : .written answer = event := told
    obtain rfl := Option.some.inj (stands.symm.trans writing)
    cases answered with
    | published =>
        obtain ⟨earlier, atRead, record, readAt, read, there, rfl, granted⟩ := credible
        simp only [Credible, becomes]
        refine Or.inr ⟨earlier, atRead, record, readAt, _, store, _, ?_, there, honest _ rfl, rfl,
          granted⟩
        show c.past ++ [_] = _
        rw [read, List.append_assoc]
        rfl
    | again =>
        -- another round starts with the same grant
        obtain ⟨earlier, atRead, record, readAt, read, -, -, granted⟩ := credible
        simp only [Credible, becomes]
        show Granted (c.past ++ [_]) _
        rw [read, List.append_assoc]
        exact granted.append _
    | givenUp | unwritten => exact credible_of_failure becomes

/-- **ONE MOVE**: whatever a call does next, its past still tells its story. -/
theorem credible_move (credible : c.Credible location) (free : Bool) (m : Move) :
    (c.move location settings free store m).1.Credible location := by
  have moved := moved_move location settings free store c m
  generalize c.move location settings free store m = next at moved ⊢
  cases moved with
  | idle | opened => exact credible
  | begun => exact trivial
  | answered needs first started =>
      refine credible_told credible needs fun record ok => ?_
      rw [Store.perform_of_start started, ok]
  | @finished op now needs =>
      refine credible_told credible needs fun record ok => ?_
      cases op with
      | get l => exact Store.getOrCreate_of_look ok
      | update edited => exact nomatch ok
  | failed needs => exact credible_told credible needs fun record ok => nomatch ok
  | heard stands => exact credible_refresh stands credible _

end Caller

namespace Fleet

/-- Every schedule keeps every past telling its story. -/
theorem credible_run {f : Fleet} (fresh : f.IsFresh) (schedule : List Act) :
    ∀ c ∈ (f.run schedule).callers, c.Credible (f.run schedule).location := by
  intro c mem
  obtain ⟨i, present⟩ := List.mem_iff_getElem?.mp mem
  rw [location_run]
  refine caller_run (P := Caller.Credible f.location) (Q := fun _ => True) (fun c there => ?_)
    (fun c free store m credible _ => ?_) schedule (fun _ _ => trivial) present
  · rw [fresh c (List.mem_of_getElem? there)]
    exact trivial
  · exact Caller.credible_move credible free m

/-- **NO UNPUBLISHED TOKEN**: let the calls of any replicas move in any order, with anybody else's
    operations of the store at any granularity in between, with any readings of the clocks, any
    failures of the store and any course of the refreshes.  A call that ends with a token has read
    it from the record, in a credential usable at the reading behind that read, as the last thing
    it did; or the issuer granted it to this call, and the last things the call did were to read
    the record and to write it, successfully, against the version it had read. -/
theorem no_unpublished_token {f : Fleet} (fresh : f.IsFresh) (schedule : List Act) {c : Caller}
    (mem : c ∈ (f.run schedule).callers) {token : String} (ended : c.token? = some token) :
    c.Found f.location token ∨ c.Published f.location token := by
  have story := credible_run fresh schedule c mem
  rw [location_run] at story
  simp only [Caller.Credible, Caller.call_of_token? ended] at story
  exact story

/-- The caller that loses the race accounts for the token of the winner. -/
theorem no_unpublished_token_lost_race :
    let f := pair (.memory {})
    f.IsFresh ∧ ∃ c ∈ (f.run (lostRace .epoch)).callers,
      c.replica = 1 ∧ c.token? = some "first" ∧
        (c.Found f.location "first" ∨ c.Published f.location "first") := by
  intro f
  have fresh : f.IsFresh := isFresh_pair (.memory {})
  have ends : (f.run (lostRace .epoch)).callers.map (fun c => (c.replica, c.token?))
      = [(0, some "first"), (1, some "first")] := by decide +kernel
  have mem : (1, some "first") ∈
      (f.run (lostRace .epoch)).callers.map fun c => (c.replica, c.token?) := by
    rw [ends]
    exact List.mem_cons_of_mem _ (List.mem_singleton.mpr rfl)
  obtain ⟨c, mem, same⟩ := List.mem_map.mp mem
  obtain ⟨replica, ended⟩ := Prod.mk.inj same
  exact ⟨fresh, c, mem, replica, ended, no_unpublished_token fresh (lostRace .epoch) mem ended⟩

end Fleet

end Courier
