import Courier.Proofs.Token.Refreshing

/-! # Shared calls — what one event makes of a call

    A relation with one rule per answer of the store (`Answered`) and a theorem
    about news of a refresh say everything that an event can make of a call.
    A read is answered by the credential in the record or leads on; a refresh
    goes on until it ends; a write publishes, starts another round, or is given
    up.  The theorems about whole runs cite these and never open the step
    itself. -/

namespace Courier

namespace SharedCall

variable (settings : RefreshSettings)

/-- A refresh of a call goes on, leads to the first round with the credential of a grant, or ends
    the call with its failure, upon a setback. -/
theorem step_refreshing_cases {state : Refreshing} (running : state.IsRunning)
    (event : RefreshEvent) :
    ((refreshing state).step settings (.refresh event)
        = refreshing (state.step settings.maxAge event) ∧
      (state.step settings.maxAge event).IsRunning) ∨
    (∃ engine backoff requestedAt grant, state = .awaiting engine backoff requestedAt ∧
      event = .answered (.ok grant) ∧ (refreshing state).step settings (.refresh event)
        = rereading 1 (.issued grant.token grant.lifetime settings.maxAge requestedAt)) ∨
    ∃ cause, event.IsSetback ∧
      (refreshing state).step settings (.refresh event) = done (.error (.refresh cause)) := by
  rcases Refreshing.step_cases settings.maxAge running event with
    goesOn | ⟨engine, backoff, requestedAt, grant, stands, news, ended⟩ |
      ⟨cause, setback, ended⟩
  · refine Or.inl ⟨?_, goesOn⟩
    show ofRefreshing (state.step settings.maxAge event) = _
    cases next : state.step settings.maxAge event with
    | ended result =>
        rw [next] at goesOn
        exact absurd goesOn id
    | due engine backoff => rfl
    | awaiting engine backoff requestedAt => rfl
    | pausing engine backoff wait => rfl
  · exact Or.inr (Or.inl ⟨engine, backoff, requestedAt, grant, stands, news,
      congrArg ofRefreshing ended⟩)
  · exact Or.inr (Or.inr ⟨cause, setback, congrArg ofRefreshing ended⟩)

variable {settings}

/-- A first read that finds a usable credential ends the call with its token. -/
theorem step_looking_of_usable {record : Record} {now : Instant} {c : Credential}
    (usable : Credential.usableIn? record now = some c) :
    looking.step settings (.read (.ok record) now) = done (.ok c.token) := by
  simp only [step, usable]

/-- A first read that finds none starts a refresh. -/
theorem step_looking_of_none {record : Record} {now : Instant}
    (none : Credential.usableIn? record now = none) :
    looking.step settings (.read (.ok record) now) = refreshing (.start settings) := by
  simp only [step, none]

/-- A read before a write that finds a usable credential adopts it, whatever the round. -/
theorem step_rereading_of_usable {record : Record} {now : Instant} {c : Credential}
    (round : Nat) (fresh : Credential) (usable : Credential.usableIn? record now = some c) :
    (rereading round fresh).step settings (.read (.ok record) now) = done (.ok c.token) := by
  simp only [step, usable]

/-- A read before a write that finds none leads to writing on top of it. -/
theorem step_rereading_of_none {record : Record} {now : Instant} (round : Nat)
    (fresh : Credential) (none : Credential.usableIn? record now = none) :
    (rereading round fresh).step settings (.read (.ok record) now)
      = writing round fresh (fresh.writeTo record) := by
  simp only [step, none]

/-- What the answer of the store makes of a call that waits for it. -/
inductive Answered (settings : RefreshSettings) : SharedCall → SharedEvent → SharedCall → Prop where
  | found {record : Record} {now : Instant} {c : Credential}
      (usable : Credential.usableIn? record now = some c) :
      Answered settings looking (.read (.ok record) now) (done (.ok c.token))
  | missed {record : Record} {now : Instant} (none : Credential.usableIn? record now = none) :
      Answered settings looking (.read (.ok record) now) (refreshing (.start settings))
  | unread {cause : StoreError} {now : Instant} :
      Answered settings looking (.read (.error cause) now) (done (.error (.store cause)))
  | adopted {round : Nat} {fresh : Credential} {record : Record} {now : Instant} {c : Credential}
      (usable : Credential.usableIn? record now = some c) :
      Answered settings (rereading round fresh) (.read (.ok record) now) (done (.ok c.token))
  | edits {round : Nat} {fresh : Credential} {record : Record} {now : Instant}
      (none : Credential.usableIn? record now = none) :
      Answered settings (rereading round fresh) (.read (.ok record) now)
        (writing round fresh (fresh.writeTo record))
  | unreread {round : Nat} {fresh : Credential} {cause : StoreError} {now : Instant} :
      Answered settings (rereading round fresh) (.read (.error cause) now)
        (done (.error (.store cause)))
  | published {round : Nat} {fresh : Credential} {edited stored : Record} :
      Answered settings (writing round fresh edited) (.written (.ok stored))
        (done (.ok fresh.token))
  | again {round : Nat} {fresh : Credential} {edited : Record} {l : Location} {version : UInt64}
      (more : round < maxRounds) :
      Answered settings (writing round fresh edited) (.written (.error (.conflict l version)))
        (rereading (round + 1) fresh)
  | givenUp {round : Nat} {fresh : Credential} {edited : Record} {l : Location} {version : UInt64}
      (last : ¬round < maxRounds) :
      Answered settings (writing round fresh edited) (.written (.error (.conflict l version)))
        (done (.error (.conflictsExhausted (.ofNat maxRounds))))
  | unwritten {round : Nat} {fresh : Credential} {edited : Record} {cause : StoreError}
      (other : ∀ l version, cause ≠ .conflict l version) :
      Answered settings (writing round fresh edited) (.written (.error cause))
        (done (.error (.store cause)))

variable (settings)

/-- The answer of the first look leads on as the provider goes on from it. -/
theorem answered_looking (answer : Except StoreError Record) (now : Instant) :
    Answered settings looking (.read answer now) (looking.step settings (.read answer now)) := by
  cases answer with
  | error cause => exact .unread
  | ok record =>
      cases found : Credential.usableIn? record now with
      | some c =>
          rw [step_looking_of_usable found]
          exact .found found
      | none =>
          rw [step_looking_of_none found]
          exact .missed found

variable (round : Nat) (fresh : Credential)

/-- The answer of a look after a conflict leads on as the provider goes on from it. -/
theorem answered_rereading (answer : Except StoreError Record) (now : Instant) :
    Answered settings (rereading round fresh) (.read answer now)
      ((rereading round fresh).step settings (.read answer now)) := by
  cases answer with
  | error cause => exact .unreread
  | ok record =>
      cases found : Credential.usableIn? record now with
      | some c =>
          rw [step_rereading_of_usable round fresh found]
          exact .adopted found
      | none =>
          rw [step_rereading_of_none round fresh found]
          exact .edits found

/-- The answer of a write leads on as the provider goes on from it. -/
theorem answered_writing (edited : Record) (answer : Except StoreError Record) :
    Answered settings (writing round fresh edited) (.written answer)
      ((writing round fresh edited).step settings (.written answer)) := by
  cases answer with
  | ok stored => exact .published
  | error cause =>
      cases cause with
      | conflict l version =>
          show Answered settings _ _ (afterConflict round fresh)
          by_cases more : round < maxRounds
          · rw [afterConflict, if_pos more]
            exact .again more
          · rw [afterConflict, if_neg more]
            exact .givenUp more
      | notFound l => exact .unwritten (by rintro _ _ ⟨⟩)
      | database reason => exact .unwritten (by rintro _ _ ⟨⟩)
      | badData fault => exact .unwritten (by rintro _ _ ⟨⟩)

/-- **WHAT AN EVENT MAKES OF A CALL**: it is the answer that the call waits for, or news of its
    refresh, or nothing. -/
theorem step_cases (call : SharedCall) (event : SharedEvent) :
    call.step settings event = call ∨
    Answered settings call event (call.step settings event) ∨
    ∃ state news, call = refreshing state ∧ event = .refresh news := by
  cases call with
  | looking =>
      cases event with
      | read answer now => exact Or.inr (Or.inl (answered_looking settings answer now))
      | refresh news => exact Or.inl rfl
      | written answer => exact Or.inl rfl
  | refreshing state =>
      cases event with
      | refresh news => exact Or.inr (Or.inr ⟨state, news, rfl, rfl⟩)
      | read answer now => exact Or.inl rfl
      | written answer => exact Or.inl rfl
  | rereading round fresh =>
      cases event with
      | read answer now =>
          exact Or.inr (Or.inl (answered_rereading settings round fresh answer now))
      | refresh news => exact Or.inl rfl
      | written answer => exact Or.inl rfl
  | writing round fresh edited =>
      cases event with
      | written answer =>
          exact Or.inr (Or.inl (answered_writing settings round fresh edited answer))
      | read answer now => exact Or.inl rfl
      | refresh news => exact Or.inl rfl
  | done result => exact Or.inl rfl

end SharedCall

end Courier
