import Courier.Proofs.Shared.Issuance
import Courier.Proofs.Token.Credential
import Courier.Token.Local

/-! # Usable tokens — what a call hands out while the clock stands still

    A token that a call finds is usable: it is checked against the clock,
    be it in the cache or in the record.  A token that a call is granted is
    not checked again, so it is usable unless the grant is void: without a
    token, without a lifetime left under the ceiling, or asked for at the end
    of the line of instants.  The token of a void grant is handed out all
    the same. -/

namespace Courier

/-- Whether what is issued for a grant may be of no use from the start. -/
def Grant.IsVoid (g : Grant) (maxAge : Span) (now : Instant) : Prop :=
  g.token = "" ∨ (min g.lifetime maxAge).toNanos = 0 ∨ now.isBefore .latest = false

/-- Away from the end of the line, moving on leads to a later instant. -/
theorem Instant.isBefore_later_of_isBefore_latest {t : Instant} {s : Span} (pos : 0 < s.toNanos)
    (inside : t.isBefore latest = true) : t.isBefore (t.later s) = true := by
  by_cases stops : t.later s = latest
  · rw [stops]
    exact inside
  · exact isBefore_later pos stops

/-- What is issued for a grant is usable at the reading that dates it, or the grant is void. -/
theorem Credential.isUsableAt_issued_or_isVoid (g : Grant) (maxAge : Span) (now : Instant) :
    (issued g.token g.lifetime maxAge now).isUsableAt now = true ∨ g.IsVoid maxAge now := by
  by_cases token : g.token = ""
  · exact Or.inr (Or.inl token)
  by_cases lifetime : (min g.lifetime maxAge).toNanos = 0
  · exact Or.inr (Or.inr (Or.inl lifetime))
  cases inside : now.isBefore .latest with
  | false => exact Or.inr (Or.inr (Or.inr inside))
  | true =>
      refine Or.inl ?_
      show (!g.token.isEmpty && now.isBefore (now.later (min g.lifetime maxAge))) = true
      rw [isEmpty_eq_false token, Instant.isBefore_later_of_isBefore_latest
        (Nat.pos_of_ne_zero lifetime) inside]
      rfl

/-! ## The provider of one process -/

namespace LocalProvider

/-- The provider and its call behind events of a refresh. -/
def run (p : LocalProvider) (call : LocalCall) (events : List RefreshEvent) :
    LocalProvider × LocalCall :=
  events.foldl (fun s event => s.1.step s.2 event) (p, call)

/-- What a call has come to: a refresh dated by the clock, or a credential in the cache, which is
    usable or was issued for a grant that answered the call. -/
def Accounts (maxAge : Span) (now : Instant) (events : List RefreshEvent) (p : LocalProvider) :
    LocalCall → Prop
  | .refreshing state => state.IsRunning ∧ state.IsDated now
  | .done (.ok token) => ∃ credential, p.cached = some credential ∧ credential.token = token ∧
      (credential.isUsableAt now = true ∨ ∃ grant, .answered (.ok grant) ∈ events ∧
        credential = .issued grant.token grant.lifetime maxAge now)
  | .done (.error _) => True

/-- Whether a token is that of the credential in the cache, which is usable unless it was issued for
    a void grant that answered the call. -/
def Vouches (maxAge : Span) (now : Instant) (events : List RefreshEvent) (p : LocalProvider)
    (token : String) : Prop :=
  ∃ credential, p.cached = some credential ∧ credential.token = token ∧
    (credential.isUsableAt now = true ∨ ∃ grant, .answered (.ok grant) ∈ events ∧
      credential = .issued grant.token grant.lifetime maxAge now ∧ grant.IsVoid maxAge now)

variable {p : LocalProvider} {now : Instant} {events : List RefreshEvent}

/-- Events are run up to the last one, then that one. -/
theorem run_concat (p : LocalProvider) (call : LocalCall) (events : List RefreshEvent)
    (event : RefreshEvent) : p.run call (events ++ [event])
      = (p.run call events).1.step (p.run call events).2 event := by
  rw [run, List.foldl_append]
  rfl

/-- A provider keeps its settings. -/
theorem settings_step (p : LocalProvider) (call : LocalCall) (event : RefreshEvent) :
    (p.step call event).1.settings = p.settings := by
  cases call with
  | done result => rfl
  | refreshing state =>
      show (p.settle (state.step p.settings.maxAge event)).1.settings = _
      cases state.step p.settings.maxAge event with
      | ended result => cases result <;> rfl
      | due engine backoff => rfl
      | awaiting engine backoff requestedAt => rfl
      | pausing engine backoff wait => rfl

/-- A call begins with what is in the cache, or with a refresh. -/
theorem accounts_enter (p : LocalProvider) (maxAge : Span) (now : Instant) :
    p.Accounts maxAge now [] (p.enter now) := by
  rw [enter]
  cases usable : p.cached.filter fun c => c.isUsableAt now with
  | none => exact ⟨trivial, trivial⟩
  | some credential =>
      obtain ⟨cached, inTime⟩ := Option.filter_eq_some_iff.mp usable
      exact ⟨credential, cached, rfl, Or.inl inTime⟩

/-- **ONE EVENT**: at a standing clock, a call goes on accounting for its credential. -/
theorem accounts_step {call : LocalCall} (accounts : p.Accounts p.settings.maxAge now events call)
    (event : RefreshEvent) (still : ∀ reading, event = .sent reading → reading = now) :
    (p.step call event).1.Accounts p.settings.maxAge now (events ++ [event])
      (p.step call event).2 := by
  cases call with
  | done result =>
      cases result with
      | error e => exact trivial
      | ok token =>
          obtain ⟨credential, cached, same, granted⟩ := accounts
          refine ⟨credential, cached, same, granted.imp_right ?_⟩
          rintro ⟨grant, mem, made⟩
          exact ⟨grant, List.mem_append_left _ mem, made⟩
  | refreshing state =>
      obtain ⟨running, dated⟩ := accounts
      have dated' := Refreshing.isDated_step p.settings.maxAge running dated still
      have stepped : p.step (.refreshing state) event
        = p.settle (state.step p.settings.maxAge event) := rfl
      rcases Refreshing.step_cases p.settings.maxAge running event with
        goesOn | ⟨engine, backoff, requestedAt, grant, rfl, rfl, ended⟩ | ⟨cause, -, ended⟩
      · rw [stepped, settle_of_isRunning goesOn]
        exact ⟨goesOn, dated'⟩
      · rw [stepped, ended]
        obtain rfl : requestedAt = now := dated
        exact ⟨_, rfl, rfl, Or.inr ⟨grant, List.mem_append_right _ (.head _), rfl⟩⟩
      · rw [stepped, ended]
        exact trivial

/-- A whole call accounts for its credential. -/
theorem accounts_run (p : LocalProvider) (now : Instant) (events : List RefreshEvent)
    (still : ∀ reading, .sent reading ∈ events → reading = now) :
    (p.run (p.enter now) events).1.settings = p.settings ∧
      (p.run (p.enter now) events).1.Accounts p.settings.maxAge now events
        (p.run (p.enter now) events).2 := by
  induction events using List.reverseRecOn with
  | nil => exact ⟨rfl, p.accounts_enter _ now⟩
  | append_singleton events event ih =>
      obtain ⟨settings, accounts⟩ :=
        ih fun reading mem => still reading (List.mem_append_left _ mem)
      rw [run_concat, settings_step]
      refine ⟨settings, ?_⟩
      rw [← settings] at accounts ⊢
      refine accounts_step accounts event fun reading same => still reading ?_
      rw [same]
      exact List.mem_append_right _ (.head _)

/-- A token that a call returns while its clock stands still is vouched for. -/
theorem vouches_run {p' : LocalProvider} {token : String}
    (still : ∀ reading, .sent reading ∈ events → reading = now)
    (ended : p.run (p.enter now) events = (p', .done (.ok token))) :
    p'.Vouches p.settings.maxAge now events token := by
  obtain ⟨-, accounts⟩ := p.accounts_run now events still
  rw [ended] at accounts
  obtain ⟨credential, cached, same, usable | ⟨grant, mem, rfl⟩⟩ := accounts
  · exact ⟨credential, cached, same, Or.inl usable⟩
  · refine ⟨_, cached, same, ?_⟩
    rcases Credential.isUsableAt_issued_or_isVoid grant p.settings.maxAge now with usable | void
    · exact Or.inl usable
    · exact Or.inr ⟨grant, mem, rfl, void⟩

end LocalProvider

/-! ## The provider of many replicas -/

/-- The reading of the clock that a call is told of, if it is of one. -/
def SharedEvent.reading? : SharedEvent → Option Instant
  | read _ now => some now
  | refresh (.sent now) => some now
  | _ => none

namespace Caller

/-- Whether the clock stood still in the past of a call. -/
def IsStill (now : Instant) (c : Caller) : Prop :=
  ∀ m ∈ c.past, ∀ reading, m.event.reading? = some reading → reading = now

/-- Whether a token is that of a usable credential, in the record that the call read as the last
    thing it did, or of one that was issued to the call, and is usable unless the grant is void. -/
def Vouches (maxAge : Span) (now : Instant) (c : Caller) (token : String) : Prop :=
  ∃ credential, credential.token = token ∧
    ((∃ earlier before record, c.past = earlier ++ [⟨.read (.ok record) now, before⟩] ∧
        Credential.ofRecord? record = some credential ∧ credential.isUsableAt now = true) ∨
      ∃ grant m, m ∈ c.past ∧ m.event = .refresh (.answered (.ok grant)) ∧
        credential = .issued grant.token grant.lifetime maxAge now ∧
        (credential.isUsableAt now = true ∨ grant.IsVoid maxAge now))

variable {location : Location} {settings : RefreshSettings} {store : Store} {c : Caller}

/-- A clock stands still over an event that reads the same instant. -/
theorem isStill_hear {now : Instant} (h : c.IsStill now) {event : SharedEvent}
    (still : ∀ reading, event.reading? = some reading → reading = now) :
    (c.hear settings store event).IsStill now := by
  intro m mem
  rcases List.mem_append.mp mem with old | last
  · exact h m old
  · rw [List.mem_singleton.mp last]
    exact still

/-- A clock stands still over a move that reads the same instant. -/
theorem isStill_move {now : Instant} (h : c.IsStill now) (free : Bool) {m : Move}
    (still : ∀ reading, m.reading? = some reading → reading = now) :
    (c.move location settings free store m).1.IsStill now := by
  -- an answer comes with the reading of the clock that the move brings
  have told {op : Operation} {reading : Instant} {answer : Except StoreError Record}
      (read : m.reading? = some reading) :
      (c.hear settings store (op.told reading answer)).IsStill now := by
    refine isStill_hear h fun reading' tells => ?_
    cases op with
    | get l =>
        obtain rfl : reading = reading' := Option.some.inj tells
        exact still reading read
    | update edited => exact nomatch tells
  have moved := moved_move location settings free store c m
  generalize c.move location settings free store m = next at moved ⊢
  cases moved with
  | idle | begun | opened => exact h
  | answered | finished | failed => exact told rfl
  | @heard state event =>
      refine isStill_hear h fun reading tells => still reading ?_
      cases event with
      | sent now => exact tells
      | answered answer => exact nomatch tells
      | woken => exact nomatch tells
      | cancelled => exact nomatch tells

end Caller

namespace Fleet

/-- A clock stands still over a run whose moves all read one instant. -/
theorem isStill_run {f : Fleet} (fresh : f.IsFresh) (schedule : List Act) {i : Nat} {c : Caller}
    {now : Instant} (present : (f.run schedule).callers[i]? = some c)
    (still : ∀ m, .move i m ∈ schedule → ∀ reading, m.reading? = some reading → reading = now) :
    c.IsStill now := by
  refine caller_run (fun c there => ?_) (fun c free store m h moves => ?_) schedule still present
  · rw [fresh c (List.mem_of_getElem? there)]
    exact fun m mem => nomatch mem
  · exact Caller.isStill_move h free moves

/-- A token that a caller returns while its clock stands still is vouched for. -/
theorem vouches_run {f : Fleet} (fresh : f.IsFresh) (schedule : List Act) {i : Nat} {c : Caller}
    {now : Instant} {token : String} (present : (f.run schedule).callers[i]? = some c)
    (still : ∀ m, .move i m ∈ schedule → ∀ reading, m.reading? = some reading → reading = now)
    (ended : c.token? = some token) : c.Vouches (f.settings c.replica).maxAge now token := by
  have stands := isStill_run fresh schedule present still
  have accounts := accounts_run fresh schedule present
  simp only [Caller.Accounts, Caller.call_of_token? ended] at accounts
  rcases accounts with ⟨earlier, before, record, now', credential, told, usable, same⟩ |
    ⟨held, ⟨earlier, later, requestedAt, grant, atSent, atAnswer, told, rfl⟩, same⟩
  · obtain rfl : now' = now := stands ⟨.read (.ok record) now', before⟩
      (told ▸ List.mem_append_right _ (.head _)) now' rfl
    obtain ⟨read, inTime⟩ := Credential.usableIn?_eq_some.mp usable
    exact ⟨credential, same, Or.inl ⟨earlier, before, record, told, read, inTime⟩⟩
  · obtain rfl : requestedAt = now := stands ⟨.refresh (.sent requestedAt), atSent⟩
      (told ▸ List.mem_append_right _ (.head _)) requestedAt rfl
    refine ⟨_, same, Or.inr ⟨grant, ⟨.refresh (.answered (.ok grant)), atAnswer⟩, ?_, rfl, rfl, ?_⟩⟩
    · rw [told]
      exact List.mem_append_right _ (.tail _ (.head _))
    · exact Credential.isUsableAt_issued_or_isVoid grant _ requestedAt

end Fleet

/-- **USABLE TOKENS**: a call during which the clock stands still hands out the token of a
    credential that is usable by then, unless it was issued to this call for a void grant.  With a
    provider of one process the credential is in the cache by then; with one of many replicas the
    call has read it in the record as the last thing it did, or it was issued to this call. -/
theorem token_is_usable_unless_grant_is_void (now : Instant) (token : String) :
    (∀ (p p' : LocalProvider) (events : List RefreshEvent),
      (∀ reading, .sent reading ∈ events → reading = now) →
      p.run (p.enter now) events = (p', .done (.ok token)) →
      p'.Vouches p.settings.maxAge now events token) ∧
    ∀ (f : Fleet) (schedule : List Fleet.Act) (i : Nat) (c : Caller), f.IsFresh →
      (f.run schedule).callers[i]? = some c →
      (∀ m, .move i m ∈ schedule → ∀ reading, m.reading? = some reading → reading = now) →
      c.token? = some token → c.Vouches (f.settings c.replica).maxAge now token := by
  constructor
  · intro p p' events still ended
    exact LocalProvider.vouches_run still ended
  · intro f schedule i c fresh present still ended
    exact Fleet.vouches_run fresh schedule present still ended

/-- The token of a grant without a lifetime is handed out, and it is of no use at the very reading
    of the clock that stands during the call. -/
theorem void_grant_is_handed_out :
    let p : LocalProvider := { settings := .standard }
    let credential : Credential := .issued "tok-1" (.ofSeconds 0) p.settings.maxAge .epoch
    p.run (p.enter .epoch) [.sent .epoch, .answered (.ok ⟨"tok-1", 0⟩)]
        = ({ p with cached := some credential }, .done (.ok "tok-1")) ∧
      credential.isUsableAt .epoch = false := by
  exact ⟨rfl, by decide⟩

end Courier
