import Courier.Proofs.Shared.Call
import Courier.Proofs.Shared.Fleet

/-! # Issuance — where the credential of a call comes from

    A call with a credential of its own was granted it: the grant is in its
    past, behind the request that it answers, and the credential is dated
    from the reading of the clock at which that request was sent.  A call
    that ends with a token got it in this way, or has just read it. -/

namespace Courier

namespace Caller

/-- Whether a credential was issued in the past of a call: a request was sent, its answer was a
    grant, and the credential is what the grant comes to from the reading before the request. -/
def Issued (maxAge : Span) (past : List Moment) (fresh : Credential) : Prop :=
  ∃ earlier later requestedAt grant atSent atAnswer,
    past = earlier ++ ⟨.refresh (.sent requestedAt), atSent⟩ ::
      ⟨.refresh (.answered (.ok grant)), atAnswer⟩ :: later ∧
    fresh = .issued grant.token grant.lifetime maxAge requestedAt

/-- Whether the last thing that a call did was to read a token, in a credential that was usable at
    the reading of the clock behind that. -/
def HasRead (past : List Moment) (token : String) : Prop :=
  ∃ earlier before record now credential,
    past = earlier ++ [⟨.read (.ok record) now, before⟩] ∧
    Credential.usableIn? record now = some credential ∧ credential.token = token

/-- What the past of a call tells about its credential, by where the call stands. -/
def Accounts (maxAge : Span) (c : Caller) : Prop :=
  match c.call with
  | none => True
  | some .looking => True
  | some (.refreshing state) => state.IsRunning ∧ ∀ engine backoff requestedAt,
      state = .awaiting engine backoff requestedAt →
        ∃ earlier before, c.past = earlier ++ [⟨.refresh (.sent requestedAt), before⟩]
  | some (.rereading _ fresh) => Issued maxAge c.past fresh
  | some (.writing _ fresh _) => Issued maxAge c.past fresh
  | some (.done (.ok token)) =>
      HasRead c.past token ∨ ∃ fresh, Issued maxAge c.past fresh ∧ fresh.token = token
  | some (.done (.error _)) => True

variable {location : Location} {settings : RefreshSettings} {store : Store} {c : Caller}

/-- What was issued in a call's past was issued in a longer past. -/
theorem Issued.append {maxAge : Span} {past : List Moment} {fresh : Credential}
    (h : Issued maxAge past fresh) (more : List Moment) : Issued maxAge (past ++ more) fresh := by
  obtain ⟨earlier, later, requestedAt, grant, atSent, atAnswer, told, made⟩ := h
  refine ⟨earlier, later ++ more, requestedAt, grant, atSent, atAnswer, ?_, made⟩
  rw [told, List.append_assoc]
  rfl

/-- An answer of the store leaves a call able to account for its credential. -/
theorem accounts_told {op : Operation} {now : Instant} {answer : Except StoreError Record}
    (accounts : c.Accounts settings.maxAge) (needs : c.operation? location = some op) :
    (c.hear settings store (op.told now answer)).Accounts settings.maxAge := by
  obtain ⟨call, event, next, stands, told, becomes, answered⟩ :=
    answered_told settings store needs now answer
  rw [told]
  simp only [Accounts, stands] at accounts
  simp only [Accounts, becomes]
  cases answered with
  | found usable => exact Or.inl ⟨c.past, store, _, _, _, rfl, usable, rfl⟩
  | missed => exact ⟨trivial, fun _ _ _ due => nomatch due⟩
  | adopted usable => exact Or.inl ⟨c.past, store, _, _, _, rfl, usable, rfl⟩
  | edits => exact accounts.append _
  | published => exact Or.inr ⟨_, accounts.append _, rfl⟩
  | again => exact accounts.append _
  | unread | unreread | unwritten | givenUp => exact trivial

/-- News of a refresh leave a call able to account for its credential. -/
theorem accounts_refresh {state : Refreshing} {event : RefreshEvent}
    (accounts : c.Accounts settings.maxAge) (stands : c.call = some (.refreshing state))
    (expected : state.expects event) :
    (c.hear settings store (.refresh event)).Accounts settings.maxAge := by
  have next := call_hear settings store stands (.refresh event)
  simp only [Accounts, stands] at accounts
  obtain ⟨running, dated⟩ := accounts
  rcases SharedCall.step_refreshing_cases settings running event with
    ⟨goesOn, running'⟩ | ⟨engine, backoff, requestedAt, grant, rfl, rfl, ended⟩ | ⟨cause, -, ended⟩
  · rw [goesOn] at next
    simp only [Accounts, next]
    refine ⟨running', fun engine backoff requestedAt waits => ?_⟩
    rw [Refreshing.sent_of_awaiting expected waits]
    exact ⟨c.past, store, rfl⟩
  · -- the request that is answered is the last thing in the past
    obtain ⟨earlier, before, told⟩ := dated engine backoff requestedAt rfl
    rw [ended] at next
    simp only [Accounts, next]
    refine ⟨earlier, [], requestedAt, grant, before, store, ?_, rfl⟩
    show c.past ++ [_] = _
    rw [told, List.append_assoc]
    rfl
  · rw [ended] at next
    simp only [Accounts, next]

/-- **ONE MOVE**: a call goes on being able to account for its credential. -/
theorem accounts_move (accounts : c.Accounts settings.maxAge) (free : Bool) (m : Move) :
    (c.move location settings free store m).1.Accounts settings.maxAge := by
  have moved := moved_move location settings free store c m
  generalize c.move location settings free store m = next at moved ⊢
  cases moved with
  | idle | opened => exact accounts
  | begun => exact trivial
  | answered needs | finished needs | failed needs => exact accounts_told accounts needs
  | heard stands expected => exact accounts_refresh accounts stands expected

end Caller

namespace Fleet

/-- Every schedule leaves every call able to account for its credential. -/
theorem accounts_run {f : Fleet} (fresh : f.IsFresh) (schedule : List Act) {i : Nat} {c : Caller}
    (present : (f.run schedule).callers[i]? = some c) :
    c.Accounts (f.settings c.replica).maxAge := by
  refine caller_run (P := fun c => c.Accounts (f.settings c.replica).maxAge) (Q := fun _ => True)
    (fun c there => ?_) (fun c free store m accounts _ => ?_) schedule (fun _ _ => trivial) present
  · rw [fresh c (List.mem_of_getElem? there)]
    exact trivial
  · show Caller.Accounts _ _
    rw [Caller.replica_move]
    exact Caller.accounts_move accounts free m

end Fleet

end Courier
