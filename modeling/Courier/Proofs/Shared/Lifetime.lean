import Courier.Proofs.Local.Lifetime
import Courier.Proofs.Shared.Adoption
import Courier.Proofs.Shared.Overwrite
import Courier.Proofs.Shared.Provenance

/-! # Lifetimes — what is in the record was granted to some call

    Where nobody but the calls of a fleet writes their record, whatever
    credential it holds was issued to one of them: a write that the store
    accepts leaves the credential of its call, an expiry is read back as it
    was written or not at all, and everything else leaves the record as it is.
    So does whatever a call has ever read there (`IsBacked`).  With ceilings of
    their own the replicas cut lifetimes to nothing longer than a common
    ceiling, so the two theorems about the lifetime of a token that was not
    granted to the very call are one (`lifetime_is_capped`). -/

namespace Courier

namespace Store

variable {s s' : Store} {l : Location} {credential : Credential}

theorem SameAt.look (same : SameAt l s s') : s.look l = s'.look l := by
  obtain ⟨m, m', rfl, rfl, stored⟩ | ⟨db, db', rfl, rfl, stored⟩ := same.kinds
  · simp only [Store.look, MemoryStore.snapshot, stored]
  · simp only [Store.look, Database.select, stored]

/-- The data at a location are those of the record found there. -/
theorem dataAt?_of_look {record : Record} (found : s.look l = .ok record) :
    s.dataAt? l = some record.data := by
  cases s with
  | memory m => simp only [dataAt?, find?_of_look found, Option.map_some]
  | sqlite db =>
      obtain ⟨text, n, there, data, read, rfl⟩ := row_of_look found
      simp only [dataAt?, there, Option.bind_some, read]
      rfl

/-- What keeps a location brings no credential there. -/
theorem bears_of_keeps (keeps : s.Keeps l s') (bears : s'.Bears l credential) :
    s.Bears l credential := by
  obtain ⟨record, found, read⟩ := bears
  rcases keeps with same | ⟨-, created⟩
  · exact ⟨record, same.look.trans found, read⟩
  · obtain rfl := Except.ok.inj (created.look.symm.trans found)
    exact nomatch read

/-- An accepted write of a credential leaves no other one at its location, and that one with an
    expiry that timestamps can show. -/
theorem eq_of_bears_of_accepts {record : Record} {fresh : Credential}
    (accepts : s.Accepts (fresh.writeTo record))
    (bears : (s.start (.update (fresh.writeTo record))).2.Bears record.location credential) :
    credential = fresh ∧ Rfc3339.yearOf fresh.expiresAt ≤ 9999 := by
  obtain ⟨stored, found, read⟩ := bears
  have same : (fresh.writeTo record).data = stored.data :=
    Option.some.inj (accepts.dataAt?.symm.trans (dataAt?_of_look found))
  have read' : Credential.ofRecord? (fresh.writeTo record) = some credential := by
    rw [← read, Credential.ofRecord?, Credential.ofRecord?, same]
  obtain ⟨rfl, -, readable⟩ := Credential.eq_of_ofRecord?_writeTo read'
  exact ⟨rfl, readable⟩

end Store

/-- What a moment tells about the refresh of a call. -/
def Moment.refresh? (m : Moment) : Option RefreshEvent :=
  match m.event with
  | .refresh event => some event
  | _ => none

namespace Caller

/-- The course of the refresh of a call so far. -/
def course (c : Caller) : List RefreshEvent := c.past.filterMap Moment.refresh?

variable {location : Location} {settings : RefreshSettings} {free : Bool} {store : Store}
variable {c : Caller} {m : Move}

/-- An issued credential comes from a grant in the call's course. -/
theorem exists_grants_of_issued {maxAge : Span} {fresh : Credential}
    (issued : Issued maxAge c.past fresh) :
    ∃ requestedAt grant, RefreshEvent.Grants requestedAt grant c.course ∧
      fresh = .issued grant.token grant.lifetime maxAge requestedAt := by
  obtain ⟨earlier, later, requestedAt, grant, atSent, atAnswer, told, made⟩ := issued
  refine ⟨requestedAt, grant, ?_, made⟩
  rw [course, told, List.filterMap_append]
  exact List.infix_append' (earlier.filterMap Moment.refresh?) _ (later.filterMap Moment.refresh?)

end Caller

namespace Fleet

variable {f : Fleet} {credential : Credential}

/-- Whether a credential was issued to a call of the fleet, with an expiry that timestamps can
    show. -/
def Backs (f : Fleet) (credential : Credential) : Prop :=
  Rfc3339.yearOf credential.expiresAt ≤ 9999 ∧
    ∃ d ∈ f.callers, Caller.Issued (f.settings d.replica).maxAge d.past credential

/-- Whether every credential that is in the record, or that a call has read there, was issued to a
    call of the fleet. -/
structure IsBacked (f : Fleet) : Prop where
  stored : ∀ credential, f.store.Bears f.location credential → f.Backs credential
  read : ∀ c ∈ f.callers, ∀ record now before, ⟨.read (.ok record) now, before⟩ ∈ c.past →
    ∀ credential, Credential.ofRecord? record = some credential → f.Backs credential

/-- What was issued to a call stays so. -/
theorem Backs.step (h : f.Backs credential) (act : Act) : (f.step act).Backs credential := by
  obtain ⟨readable, d, mem, issued⟩ := h
  refine ⟨readable, ?_⟩
  obtain ⟨j, there⟩ := List.mem_iff_getElem?.mp mem
  rw [settings_step]
  by_cases own : ∃ m, act = .move j m
  · obtain ⟨m, rfl⟩ := own
    refine ⟨_, List.mem_of_getElem? (callers_step_self there m), ?_⟩
    rw [Caller.replica_move]
    rcases Caller.past_move f.location (f.settings d.replica) (f.isFree d.replica) f.store d m with
      same | ⟨event, told⟩
    · rw [same]
      exact issued
    · rw [told]
      exact issued.append _
  · refine ⟨d, List.mem_of_getElem? (i := j) ?_, issued⟩
    rw [callers_step_of_ne f fun m same => own ⟨m, same⟩]
    exact there

/-- Whether somebody else leaves the data of the record alone. -/
def Act.Spares (location : Location) : Act → Prop
  | .foreign (.update record) => record.location ≠ location
  | _ => True

/-- Somebody else's operation brings no credential to a record that it spares. -/
theorem bears_of_foreign {op : Operation} (spares : Act.Spares f.location (.foreign op))
    (bears : (f.step (.foreign op)).store.Bears f.location credential) :
    f.store.Bears f.location credential := by
  refine Store.bears_of_keeps ?_ bears
  cases op with
  | get l => exact Store.keeps_start_get f.store f.location l
  | update record => exact Or.inl (Store.sameAt_start f.store (.update record) (Ne.symm spares))

/-- A credential that is in the record behind a move was there before, or was issued to the call
    that moves. -/
theorem backs_of_move {i : Nat} {c : Caller} {m : Move} (h : f.IsBacked)
    (present : f.callers[i]? = some c) (credible : c.Credible f.location)
    (accounts : c.Accounts (f.settings c.replica).maxAge)
    (bears : (f.step (.move i m)).store.Bears f.location credential) : f.Backs credential := by
  rw [store_step_move present] at bears
  rcases Caller.keeps_or_accepts f.location (f.settings c.replica) (f.isFree c.replica) f.store c m
    with ⟨-, keeps⟩ | ⟨round, fresh, edited, writing, accepts, after⟩
  · exact h.stored credential (Store.bears_of_keeps keeps bears)
  · simp only [Caller.Credible, writing] at credible
    simp only [Caller.Accounts, writing] at accounts
    obtain ⟨-, -, record, -, -, -, rfl, -⟩ := credible
    rw [after] at bears
    by_cases here : f.location = record.location
    · -- the record has the credential of the call now, and no other
      rw [here] at bears
      obtain ⟨rfl, readable⟩ := Store.eq_of_bears_of_accepts accepts bears
      exact ⟨readable, c, List.mem_of_getElem? present, accounts⟩
    · have same := Store.sameAt_start f.store (.update (fresh.writeTo record)) here
      exact h.stored credential (Store.bears_of_keeps (Or.inl same) bears)

/-- What a call has read behind an act was read before, or is in the record now. -/
theorem read_step_cases {act : Act} {c : Caller} (mem : c ∈ (f.step act).callers)
    {record : Record} {now : Instant} {before : Store}
    (told : ⟨.read (.ok record) now, before⟩ ∈ c.past) :
    (∃ d ∈ f.callers, ⟨.read (.ok record) now, before⟩ ∈ d.past) ∨
      (f.step act).store.look f.location = .ok record := by
  obtain ⟨i, present⟩ := List.mem_iff_getElem?.mp mem
  rcases callers_step_cases present with same | ⟨m, d, rfl, there, rfl⟩
  · exact Or.inl ⟨c, List.mem_of_getElem? same, told⟩
  · rcases Caller.past_move f.location (f.settings d.replica) (f.isFree d.replica) f.store d m with
      same | ⟨event, heard⟩
    · rw [same] at told
      exact Or.inl ⟨d, List.mem_of_getElem? there, told⟩
    · rw [heard] at told
      rcases List.mem_append.mp told with told | new
      · exact Or.inl ⟨d, List.mem_of_getElem? there, told⟩
      · rw [← List.mem_singleton.mp new] at heard
        rw [store_step_move there]
        exact Or.inr (Caller.look_of_read heard)

/-- **ONE ACT**: an act that spares the record leaves every credential there issued to a call. -/
theorem IsBacked.step (h : f.IsBacked) {act : Act} (spares : act.Spares f.location)
    (credible : ∀ c ∈ f.callers, c.Credible f.location)
    (accounts : ∀ c ∈ f.callers, c.Accounts (f.settings c.replica).maxAge) :
    (f.step act).IsBacked := by
  have stored : ∀ credential, (f.step act).store.Bears f.location credential →
      (f.step act).Backs credential := by
    intro credential bears
    cases act with
    | foreign op => exact (h.stored credential (bears_of_foreign spares bears)).step _
    | move i m =>
        cases present : f.callers[i]? with
        | none =>
            have idle : f.step (.move i m) = f := by simp only [Fleet.step, present]
            rw [idle] at bears ⊢
            exact h.stored credential bears
        | some c =>
            have mem := List.mem_of_getElem? present
            exact (backs_of_move h present (credible c mem) (accounts c mem) bears).step _
  constructor
  case stored =>
    rw [location_step]
    exact stored
  case read =>
    intro c mem record now before told credential found
    rcases read_step_cases mem told with ⟨d, there, told⟩ | inside
    · exact (h.read d there record now before told credential found).step _
    · exact stored credential ⟨record, inside, found⟩

/-- In a fresh fleet every credential is backed by a grant, whatever the schedule. -/
theorem isBacked_run (fresh : f.IsFresh)
    (bare : ∀ credential, ¬f.store.Bears f.location credential) (schedule : List Act)
    (spares : ∀ act ∈ schedule, act.Spares f.location) : (f.run schedule).IsBacked := by
  induction schedule using List.reverseRecOn with
  | nil =>
      constructor
      case stored => exact fun credential bears => absurd bears (bare credential)
      case read =>
        intro c mem record now before told
        rw [fresh c mem] at told
        exact nomatch told
  | append_singleton schedule act ih =>
      rw [run_concat]
      have earlier := ih fun act mem => spares act (List.mem_append_left _ mem)
      refine earlier.step ?_ ?_ ?_
      · rw [location_run]
        exact spares act (List.mem_append_right _ (.head _))
      · exact credible_run fresh schedule
      · intro c mem
        obtain ⟨i, present⟩ := List.mem_iff_getElem?.mp mem
        rw [settings_run]
        exact accounts_run fresh schedule present

/-- A credential that was issued to a call covers its token under every ceiling that is not below
    the call's own. -/
theorem Backs.covers {now : Instant} {ceiling : Span} (h : f.Backs credential)
    (capped : ∀ replica ∈ f.replicas, (f.settings replica).maxAge ≤ ceiling)
    (usable : credential.isUsableAt now = true) :
    ∃ d ∈ f.callers, RefreshEvent.Covers ceiling d.course credential.token now := by
  obtain ⟨readable, d, mem, issued⟩ := h
  obtain ⟨requestedAt, grant, granted, rfl⟩ := Caller.exists_grants_of_issued issued
  refine ⟨d, mem, requestedAt, grant, granted, rfl, ?_⟩
  -- its own ceiling has cut the lifetime at least as far
  refine Instant.isBefore_later_of_le ?_ (Bool.and_eq_true_iff.mp usable).2
    (Rfc3339.not_isBefore_of_yearOf_le readable)
  have below : (f.settings d.replica).maxAge.toNanos ≤ ceiling.toNanos :=
    capped d.replica (List.mem_map_of_mem mem)
  rw [Instant.toNanos_min, Instant.toNanos_min]
  omega

end Fleet

/-- **LIFETIME CEILING**: whoever returns a token was granted it, or judged it usable at a reading
    of the clock before the end of the lifetime that came with a grant of the token, cut to the
    ceiling and counted from the reading just before the request that was granted.  With a provider
    of one process the token was judged at the reading under the lock; with one of many replicas,
    whose ceilings are at most a common one, over a record that held no credential and that nobody
    else writes, at the reading behind the last read. -/
theorem lifetime_is_capped :
    (∀ (settings : RefreshSettings) (acts : List Crowd.Act) (earlier later : List Note) (j : Nat)
        (token : String),
      ((Crowd.new settings).run acts).log = earlier ++ .returned j (.ok token) :: later →
      (∃ requestedAt grant, RefreshEvent.Grants requestedAt grant (Note.courseOf j earlier) ∧
        grant.token = token) ∨
      ∃ before now i, earlier = before ++ [.took j now] ∧
        RefreshEvent.Covers settings.maxAge (Note.courseOf i before) token now) ∧
    ∀ (f : Fleet) (schedule : List Fleet.Act) (ceiling : Span) (i : Nat) (c : Caller)
        (token : String), f.IsFresh →
      (∀ replica ∈ f.replicas, (f.settings replica).maxAge ≤ ceiling) →
      (∀ credential, ¬f.store.Bears f.location credential) →
      (∀ act ∈ schedule, act.Spares f.location) →
      (f.run schedule).callers[i]? = some c → c.token? = some token →
      (∃ requestedAt grant, RefreshEvent.Grants requestedAt grant c.course ∧
        grant.token = token) ∨
      ∃ earlier before record now credential,
        c.past = earlier ++ [⟨.read (.ok record) now, before⟩] ∧
        Credential.usableIn? record now = some credential ∧ credential.token = token ∧
        ∃ d ∈ (f.run schedule).callers, RefreshEvent.Covers ceiling d.course token now := by
  constructor
  · intro settings acts earlier later j token log
    exact Crowd.returned_cases log
  · intro f schedule ceiling i c token fresh capped bare spares present ended
    have backed := Fleet.isBacked_run fresh bare schedule spares
    have accounts := Fleet.accounts_run fresh schedule present
    simp only [Caller.Accounts, Caller.call_of_token? ended] at accounts
    rcases accounts with ⟨earlier, before, record, now, credential, told, usable, rfl⟩ |
      ⟨held, issued, rfl⟩
    · obtain ⟨read, inTime⟩ := Credential.usableIn?_eq_some.mp usable
      have mem : ⟨.read (.ok record) now, before⟩ ∈ c.past :=
        told ▸ List.mem_append_right _ (.head _)
      have backs :=
        backed.read c (List.mem_of_getElem? present) record now before mem credential read
      refine Or.inr ⟨earlier, before, record, now, credential, told, usable, rfl, ?_⟩
      refine backs.covers ?_ inTime
      rw [Fleet.replicas_run, Fleet.settings_run]
      exact capped
    · obtain ⟨requestedAt, grant, granted, rfl⟩ := Caller.exists_grants_of_issued issued
      exact Or.inl ⟨requestedAt, grant, granted, rfl⟩

/-- The caller that loses the race adopts a credential whose lifetime is capped as well. -/
theorem lifetime_is_capped_lost_race :
    let f := Fleet.pair (.memory {})
    let schedule := Fleet.lostRace .epoch
    f.IsFresh ∧ (∀ replica ∈ f.replicas, (f.settings replica).maxAge ≤ .ofSeconds 600) ∧
      (∀ credential, ¬f.store.Bears f.location credential) ∧
      (∀ act ∈ schedule, act.Spares f.location) ∧
      ∃ c, (f.run schedule).callers[1]? = some c ∧ c.token? = some "first" ∧
        ∃ d ∈ (f.run schedule).callers, ∃ requestedAt grant,
          RefreshEvent.Grants requestedAt grant d.course ∧ grant.token = "first" := by
  intro f schedule
  have fresh : f.IsFresh := Fleet.isFresh_pair (.memory {})
  have capped : ∀ replica ∈ f.replicas, (f.settings replica).maxAge ≤ .ofSeconds 600 :=
    fun _ _ => Nat.le_refl _
  have bare : ∀ credential, ¬f.store.Bears f.location credential := by
    rintro credential ⟨record, found, -⟩
    exact nomatch found
  have spares : ∀ act ∈ schedule, act.Spares f.location := by
    simp [schedule, Fleet.lostRace, Fleet.Act.Spares]
  have ended : ((f.run schedule).callers[1]?.bind Caller.token?) = some "first" := by
    decide +kernel
  obtain ⟨c, present, token⟩ := Option.bind_eq_some_iff.mp ended
  refine ⟨fresh, capped, bare, spares, c, present, token, ?_⟩
  rcases lifetime_is_capped.2 f schedule (.ofSeconds 600) 1 c "first" fresh capped bare spares
    present token with ⟨requestedAt, grant, granted, same⟩ |
      ⟨earlier, before, record, now, credential, -, -, -, d, mem, covers⟩
  · exact ⟨c, List.mem_of_getElem? present, requestedAt, grant, granted, same⟩
  · obtain ⟨requestedAt, grant, granted, same, -⟩ := covers
    exact ⟨d, mem, requestedAt, grant, granted, same⟩

end Courier
