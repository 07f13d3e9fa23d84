import Courier.Token.Issuer
import Courier.Token.Refreshing

/-! # Hints — how long the issuer asks to wait

    Two rules judge an answer of the issuer.  Verdicts count four statuses as
    worth another attempt, and only of those is the wait read that the answer
    asks for.  Refreshing is tried again under these and under every other 5xx
    status as well.  So where a verdict is for another attempt, the next wait
    is the one that was asked for; under the other 5xx statuses the refresh
    waits as long as its policy says, whatever was asked for. -/

namespace Courier

/-- The names of fields are compared letter by letter. -/
theorem Headers.first?_eq (fields : Headers) (name : String) : fields.first? name =
    (fields.find? fun field =>
      field.1.toList.map Char.toLower == name.toList.map Char.toLower).map Prod.snd := by
  have same (a b : String) : (a.map Char.toLower == b.map Char.toLower)
      = (a.toList.map Char.toLower == b.toList.map Char.toLower) := by
    rw [Bool.eq_iff_iff, beq_iff_eq, beq_iff_eq, ← String.toList_inj, String.toList_map,
      String.toList_map]
  show (fields.find? fun field => field.1.map Char.toLower == name.map Char.toLower).map _ = _
  simp only [same]

/-- Whether an answer asks for a wait of so many seconds: the first field for that is readable, and
    a number once the spaces and tabs around it are gone. -/
def Headers.AsksFor (fields : Headers) (seconds : UInt64) : Prop :=
  ∃ value text, fields.first? "retry-after" = some value ∧ readableText? value = some text ∧
    Numeral.word? 64 (trimSpacing text) = some seconds.toNat

theorem Numeral.lt_of_word? {bits n : Nat} {cs : List Char} (h : word? bits cs = some n) :
    n < Nat.pow 2 bits := of_decide_eq_true (Option.filter_eq_some_iff.mp h).2

/-- The wait of an answer is what it asks for. -/
theorem retryAfter?_eq_some_iff {fields : Headers} {wait : Span} : retryAfter? fields = some wait ↔
    ∃ seconds, fields.AsksFor seconds ∧ wait = .ofSeconds seconds := by
  constructor
  · intro read
    obtain ⟨value, first, read⟩ := Option.bind_eq_some_iff.mp read
    obtain ⟨text, readable, read⟩ := Option.bind_eq_some_iff.mp read
    obtain ⟨n, number, made⟩ := Option.bind_eq_some_iff.mp read
    have fits : (UInt64.ofNat n).toNat = n :=
      UInt64.toNat_ofNat_of_lt' (Numeral.lt_of_word? number)
    exact ⟨.ofNat n, ⟨value, text, first, readable, fits.symm ▸ number⟩,
      (Option.some.inj made).symm⟩
  · rintro ⟨seconds, ⟨value, text, first, readable, number⟩, rfl⟩
    simp only [retryAfter?, first, readable, number, Option.bind_eq_bind, Option.bind_some,
      UInt64.ofNat_toNat]

/-- No wait is asked for just if the headers ask for no number of seconds. -/
theorem retryAfter?_eq_none_iff {fields : Headers} :
    retryAfter? fields = none ↔ ∀ seconds, ¬fields.AsksFor seconds := by
  constructor
  · intro nothing seconds asked
    have read := retryAfter?_eq_some_iff.mpr ⟨seconds, asked, rfl⟩
    exact nomatch nothing.symm.trans read
  · intro silent
    cases read : retryAfter? fields with
    | none => rfl
    | some wait =>
        obtain ⟨seconds, asked, -⟩ := retryAfter?_eq_some_iff.mp read
        exact absurd asked (silent seconds)

namespace Verdict

/-- A verdict is for another attempt just under the statuses that are worth one. -/
theorem isRetryable_ofStatus (status : Status) :
    (ofStatus status).isRetryable = true ↔ status.code ∈ retryableStatuses := by
  rw [ofStatus]
  split
  · next worth => exact iff_of_true rfl worth
  · next hopeless => exact iff_of_false nofun hopeless

/-- Fields do not change that. -/
theorem isRetryable_classify (status : Status) (fields : Headers) :
    (classify status fields).isRetryable = true ↔ status.code ∈ retryableStatuses := by
  rw [← isRetryable_ofStatus, classify]
  cases ofStatus status with
  | again _ => exact Iff.rfl
  | final => exact Iff.rfl

/-- The wait that an answer asks for is read under those statuses only. -/
theorem hint_classify (status : Status) (fields : Headers) : (classify status fields).hint =
    if status.code ∈ retryableStatuses then retryAfter? fields else none := by
  by_cases worth : status.code ∈ retryableStatuses
  · rw [classify, ofStatus, if_pos worth, if_pos worth]
    rfl
  · rw [classify, ofStatus, if_neg worth, if_neg worth]
    rfl

end Verdict

/-- A body that holds no grant fails without a hint. -/
theorem Grant.hint_of_ofBody {body : List UInt8} {e : IssuerError}
    (failed : Grant.ofBody body = .error e) : e.hint = none := by
  rw [ofBody] at failed
  split at failed
  · split at failed
    · rw [← Except.error.inj failed]
      rfl
    · exact nomatch failed
  · rw [← Except.error.inj failed]
    rfl

/-- An answer other than success is rejected with its status, and with the hint of its verdict. -/
theorem Grant.ofExchange_of_not_isSuccess {response : Response}
    (failure : ¬response.status.isSuccess = true) : Grant.ofExchange (.ok response) = .error
      (.rejected response.status (Verdict.classify response.status response.headers).hint) := by
  rw [ofExchange, if_neg failure]

/-- A failure is such a rejection, or has no hint. -/
theorem Grant.ofExchange_cases {response : Response} {e : IssuerError}
    (failed : Grant.ofExchange (.ok response) = .error e) :
    e = .rejected response.status (Verdict.classify response.status response.headers).hint ∨
      ((∀ status wait, e ≠ .rejected status wait) ∧ response.status.isSuccess = true ∧
        e.hint = none) := by
  by_cases success : response.status.isSuccess = true
  · rw [ofExchange, if_pos success] at failed
    refine Or.inr ⟨?_, success, hint_of_ofBody failed⟩
    rintro status wait rfl
    rw [ofBody] at failed
    split at failed
    · split at failed
      · exact nomatch failed
      · exact nomatch failed
    · exact nomatch failed
  · rw [ofExchange_of_not_isSuccess success] at failed
    exact Or.inl (Except.error.inj failed).symm

/-- No status is both a success and worth another attempt. -/
theorem Status.not_mem_of_isSuccess {status : Status} (success : status.isSuccess = true) :
    status.code ∉ Verdict.retryableStatuses := by
  intro worth
  have second : status.code / 100 = 2 := eq_of_beq success
  simp only [Verdict.retryableStatuses, List.mem_cons, List.not_mem_nil, or_false] at worth
  omega

/-- A failure with a hint is followed by a wait as long as that, if the budget has one left. -/
theorem Refreshing.step_of_hint {e : IssuerError} {wait : Span} (again : e.isRetryable = true)
    (hint : e.hint = some wait) (maxAge : Span) (engine : RetryEngine) (requestedAt : Instant)
    {backoff rest : Backoff} {own : Span} (left : backoff.next? = some (own, rest)) :
    (awaiting engine backoff requestedAt).step maxAge (.answered (.error e))
      = pausing engine rest wait := by
  have attempt : refreshAttempt maxAge requestedAt (.error e) = .retry (some wait) := by
    rw [refreshAttempt, if_pos again, hint]
  show settled engine backoff (refreshAttempt maxAge requestedAt (.error e)) = _
  rw [attempt, settled, left]
  rfl

/-- **HINTS OF THE ISSUER**: let the issuer's answer be no grant.  If it is rejected by its status,
    the refresh is tried again under every 5xx status and under those that are worth another
    attempt.  Under the latter, a wait that the answer asks for becomes the hint and is the next
    wait of the refresh, whatever the policy's own would be.  There is no hint if the failure is
    final, if the answer asks for nothing that can be read, or if its status is none of those. -/
theorem hint_is_honoured_where_worth_another_attempt {response : Response} {e : IssuerError}
    (failed : Grant.ofExchange (.ok response) = .error e) :
    (∀ status wait, e = .rejected status wait → status = response.status ∧
      (e.isRetryable = true ↔
        status.isServerError = true ∨ status.code ∈ Verdict.retryableStatuses)) ∧
    (∀ seconds, response.status.code ∈ Verdict.retryableStatuses →
      response.headers.AsksFor seconds →
      e.isRetryable = true ∧ e.hint = some (.ofSeconds seconds) ∧
        ∀ maxAge engine requestedAt backoff own rest, backoff.next? = some (own, rest) →
          (Refreshing.awaiting engine backoff requestedAt).step maxAge (.answered (.error e))
            = .pausing engine rest (.ofSeconds seconds)) ∧
    ((e.isRetryable = false ∨ (∀ seconds, ¬response.headers.AsksFor seconds) ∨
      response.status.code ∉ Verdict.retryableStatuses) → e.hint = none) := by
  have retried {status : Status} {wait : Option Span} :
      (IssuerError.rejected status wait).isRetryable = true ↔
        status.isServerError = true ∨ status.code ∈ Verdict.retryableStatuses := by
    rw [IssuerError.isRetryable, Bool.or_eq_true, Verdict.isRetryable_ofStatus]
  rcases Grant.ofExchange_cases failed with rfl | ⟨notRejected, success, silent⟩
  · refine ⟨?_, ?_, ?_⟩
    · rintro status wait same
      obtain ⟨rfl, -⟩ := IssuerError.rejected.inj same
      exact ⟨rfl, retried⟩
    · intro seconds worth asked
      have again : (IssuerError.rejected response.status
          (Verdict.classify response.status response.headers).hint).isRetryable = true :=
        retried.mpr (Or.inr worth)
      have hint : (Verdict.classify response.status response.headers).hint
          = some (.ofSeconds seconds) := by
        rw [Verdict.hint_classify, if_pos worth]
        exact retryAfter?_eq_some_iff.mpr ⟨seconds, asked, rfl⟩
      exact ⟨again, hint, fun maxAge engine requestedAt backoff own rest left =>
        Refreshing.step_of_hint again hint maxAge engine requestedAt left⟩
    · intro reason
      show (Verdict.classify response.status response.headers).hint = none
      rw [Verdict.hint_classify]
      split
      · next worth =>
          -- such a rejection is tried again, so nothing was asked for
          rcases reason with final | silent | hopeless
          · exact absurd (retried.mpr (Or.inr worth)) (Bool.eq_false_iff.mp final)
          · exact retryAfter?_eq_none_iff.mpr silent
          · exact absurd worth hopeless
      · rfl
  · refine ⟨?_, ?_, fun _ => silent⟩
    · intro status wait same
      exact absurd same (notRejected status wait)
    · intro seconds worth
      exact absurd worth (Status.not_mem_of_isSuccess success)

/-- An answer of the given status that asks for seven seconds. -/
def sevenSeconds (status : Status) : Response where
  status := status
  headers := [("content-type", [116]), ("Retry-After", [32, 55]), ("retry-after", [57])]

theorem asksFor_sevenSeconds (status : Status) : (sevenSeconds status).headers.AsksFor 7 := by
  refine ⟨[32, 55], [' ', '7'], ?_, by decide, by decide⟩
  rw [Headers.first?_eq]
  show (List.find? _ [("content-type", [116]), ("Retry-After", [32, 55]), ("retry-after", [57])]).map
    Prod.snd = some [32, 55]
  decide +kernel

/-- A wait that comes with the status 429 is taken. -/
theorem hint_is_honoured_where_worth_another_attempt_429 :
    let response := sevenSeconds ⟨429, by decide, by decide⟩
    ∃ e, Grant.ofExchange (.ok response) = .error e ∧ e.isRetryable = true ∧
      e.hint = some (.ofSeconds 7) ∧
      (Refreshing.awaiting ⟨.standard, none⟩ RetryPolicy.standard.backoff .epoch).step .zero
          (.answered (.error e))
        = .pausing ⟨.standard, none⟩ ⟨.standard, 1, 1⟩ (.ofSeconds 7) := by
  intro response
  have failure : ¬response.status.isSuccess = true := by decide
  have failed := Grant.ofExchange_of_not_isSuccess failure
  refine ⟨_, failed, ?_⟩
  obtain ⟨-, honoured, -⟩ := hint_is_honoured_where_worth_another_attempt failed
  obtain ⟨again, hint, waits⟩ := honoured 7 (by decide) (asksFor_sevenSeconds _)
  exact ⟨again, hint, waits _ _ _ _ _ _ rfl⟩

/-- Under status 500 a refresh is tried again, and what the answer asks for is lost. -/
theorem hint_of_500_is_lost :
    let response := sevenSeconds ⟨500, by decide, by decide⟩
    response.headers.AsksFor 7 ∧ ∃ e, Grant.ofExchange (.ok response) = .error e ∧
      e.isRetryable = true ∧ e.hint = none :=
  ⟨asksFor_sevenSeconds _, _, Grant.ofExchange_of_not_isSuccess (by decide), rfl, rfl⟩

end Courier
