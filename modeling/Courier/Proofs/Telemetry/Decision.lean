import Courier.Proofs.Token.Hints
import Courier.Telemetry.Export
import Mathlib.Data.List.Forall2

/-! # Decisions — what becomes of an export

    An export asks its provider for a token, posts, and judges the answer; the
    first of these steps that fails is its failure.  A sequence of exports is
    played against surroundings that may change with every token and with every
    post.  What holds of one export in any surroundings holds of each of the
    sequence, as an exporter remembers nothing. -/

namespace Courier

namespace Export

/-- What one export meets: the report, what the provider returned if one is attached, and what the
    endpoint answers to any post. -/
structure Occasion where
  report : Report
  provided : Option (Except TokenError String)
  answer : Payload → String → Except String SinkAnswer

namespace Occasion

variable (o : Occasion)

/-- The posts that the export makes. -/
def posts : List (Payload × String) := (run o.report o.provided o.answer).1

/-- What the export ends with. -/
def outcome : Except ExportError Unit := (run o.report o.provided o.answer).2

/-- The payload of the report. -/
def payload : Payload := .ofReport o.report

/-- The provider returned this token, and there is something in it. -/
def MayPost (token : String) : Prop := o.provided = some (.ok token) ∧ token ≠ ""

/-- The endpoint answered so to the payload of the report, with a token that may be posted. -/
def IsAnswered (answer : SinkAnswer) : Prop :=
  ∃ token, o.MayPost token ∧ o.answer o.payload token = .ok answer

/-- The first step that fails, and the failure of it. -/
inductive FailsWith : ExportError → Prop where
  | unattached (alone : o.provided = none) : FailsWith .noProvider
  | refused {cause : TokenError} (refused : o.provided = some (.error cause)) :
      FailsWith (.token cause)
  | empty (empty : o.provided = some (.ok "")) : FailsWith .noToken
  | lost {token reason : String} (mayPost : o.MayPost token)
      (lost : o.answer o.payload token = .error reason) : FailsWith (.transport reason)
  | rejected {answer : SinkAnswer} (answered : o.IsAnswered answer)
      (rejected : answer.status.code ≠ 204) : FailsWith
        (.unexpectedStatus answer.status answer.text
          (Verdict.classify answer.status answer.headers))

/-- What an export decides in all. -/
structure Decides : Prop where
  once : o.posts.length ≤ 1
  posts (post : Payload × String) :
    post ∈ o.posts ↔ post.1 = .ofReport o.report ∧ o.MayPost post.2
  delivered : o.outcome = .ok () ↔ ∃ answer, o.IsAnswered answer ∧ answer.status.code = 204
  failed (e : ExportError) : o.outcome = .error e ↔ o.FailsWith e
  again : (∃ e, o.outcome = .error e ∧ e.isRetryable = true) ↔
    ∃ answer, o.IsAnswered answer ∧ answer.status.code ∈ [408, 429, 502, 503]
  waits (wait : Span) : (∃ e, o.outcome = .error e ∧ e.hint = some wait) ↔
    ∃ answer seconds, o.IsAnswered answer ∧ answer.status.code ∈ [408, 429, 502, 503] ∧
      answer.headers.AsksFor seconds ∧ wait = .ofSeconds seconds

variable {o}

/-! ## Tokens -/

/-- There is at most one token to post with. -/
theorem MayPost.unique {token token' : String} (h : o.MayPost token) (h' : o.MayPost token') :
    token = token' := Except.ok.inj (Option.some.inj (h.1.symm.trans h'.1))

/-- There is at most one answer to a post. -/
theorem IsAnswered.unique {answer answer' : SinkAnswer} (h : o.IsAnswered answer)
    (h' : o.IsAnswered answer') : answer = answer' := by
  obtain ⟨token, mayPost, answered⟩ := h
  obtain ⟨token', mayPost', answered'⟩ := h'
  obtain rfl := mayPost.unique mayPost'
  exact Except.ok.inj (answered.symm.trans answered')

theorem tokenOf_eq_ok_iff {token : String} :
    tokenOf o.provided = .ok token ↔ o.MayPost token := by
  rw [MayPost]
  rcases o.provided with _ | cause | given
  · exact iff_of_false nofun fun h => nomatch h.1
  · exact iff_of_false nofun fun h => nomatch h.1
  · rw [tokenOf]
    constructor
    · intro taken
      split at taken
      · exact nomatch taken
      · next some =>
          obtain rfl := Except.ok.inj taken
          exact ⟨rfl, fun empty => some (String.isEmpty_iff.mpr empty)⟩
    · rintro ⟨same, some⟩
      obtain rfl := Except.ok.inj (Option.some.inj same)
      exact if_neg fun empty => some (String.isEmpty_iff.mp empty)

/-- Without a token to post, the failure is that of the provider. -/
theorem failsWith_of_tokenOf {e : ExportError} (failed : tokenOf o.provided = .error e) :
    o.FailsWith e := by
  rcases provided : o.provided with _ | cause | given
  · rw [provided] at failed
    exact Except.error.inj failed ▸ .unattached provided
  · rw [provided] at failed
    exact Except.error.inj failed ▸ .refused provided
  · rw [provided, tokenOf] at failed
    split at failed
    · next empty =>
        rw [String.isEmpty_iff.mp empty] at provided
        exact Except.error.inj failed ▸ .empty provided
    · exact nomatch failed

/-! ## One export -/

/-- Without a token to post, nothing is posted and nothing answered. -/
theorem run_of_tokenOf {e : ExportError} (failed : tokenOf o.provided = .error e) :
    o.posts = [] ∧ o.outcome = .error e ∧ ∀ token, ¬o.MayPost token := by
  refine ⟨by rw [posts, run, failed], by rw [outcome, run, failed], fun token mayPost => ?_⟩
  exact nomatch failed.symm.trans (tokenOf_eq_ok_iff.mpr mayPost)

/-- With a token to post, there is one post, and its answer is judged. -/
theorem MayPost.run {token : String} (mayPost : o.MayPost token) :
    o.posts = [(o.payload, token)] ∧ o.outcome = judge (o.answer o.payload token) := by
  have taken : tokenOf o.provided = .ok token := tokenOf_eq_ok_iff.mpr mayPost
  exact ⟨by rw [posts, Export.run, taken, payload], by rw [outcome, Export.run, taken, payload]⟩

theorem judge_of_answered {answer : SinkAnswer} : judge (.ok answer) =
    if answer.status.code = 204 then .ok () else .error (.unexpectedStatus answer.status answer.text
      (Verdict.classify answer.status answer.headers)) := rfl

/-- The answer to a post decides the outcome, by its status. -/
theorem IsAnswered.outcome_eq {answer : SinkAnswer} (answered : o.IsAnswered answer) :
    o.outcome = if answer.status.code = 204 then .ok ()
      else .error (.unexpectedStatus answer.status answer.text
        (Verdict.classify answer.status answer.headers)) := by
  obtain ⟨token, mayPost, answered⟩ := answered
  rw [mayPost.run.2, answered, judge_of_answered]

/-- An export ends well, with a failure of one of its first steps, or with a rejection. -/
theorem cases (o : Occasion) :
    (∃ answer, o.IsAnswered answer ∧ answer.status.code = 204 ∧ o.outcome = .ok ()) ∨
    (∃ e, o.FailsWith e ∧ o.outcome = .error e) := by
  cases taken : tokenOf o.provided with
  | error e => exact .inr ⟨e, failsWith_of_tokenOf taken, (run_of_tokenOf taken).2.1⟩
  | ok token =>
      have mayPost : o.MayPost token := tokenOf_eq_ok_iff.mp taken
      cases answer : o.answer o.payload token with
      | error reason =>
          refine .inr ⟨_, .lost mayPost answer, ?_⟩
          rw [mayPost.run.2, answer]
          rfl
      | ok answer' =>
          have answered : o.IsAnswered answer' := ⟨token, mayPost, answer⟩
          have judged := answered.outcome_eq
          by_cases success : answer'.status.code = 204
          · exact .inl ⟨answer', answered, success, judged.trans (if_pos success)⟩
          · exact .inr ⟨_, .rejected answered success, judged.trans (if_neg success)⟩

/-- The first step that fails is what the export fails with. -/
theorem FailsWith.outcome_eq {e : ExportError} (fails : o.FailsWith e) : o.outcome = .error e := by
  cases fails with
  | unattached alone => rw [outcome, Export.run, alone]; rfl
  | refused refused => rw [outcome, Export.run, refused]; rfl
  | empty empty => rw [outcome, Export.run, empty]; rfl
  | lost mayPost lost =>
      rw [mayPost.run.2, lost]
      rfl
  | rejected answered rejected => rw [answered.outcome_eq, if_neg rejected]

/-- Every failure of an export has one of the reasons. -/
theorem failsWith_of_outcome (o : Occasion) {e : ExportError} (failed : o.outcome = .error e) :
    o.FailsWith e := by
  rcases o.cases with ⟨answer, -, -, delivered⟩ | ⟨e', fails, failed'⟩
  · exact nomatch failed.symm.trans delivered
  · exact Except.error.inj (failed.symm.trans failed') ▸ fails

/-- What is posted is the payload of the report with a token that may be posted with. -/
theorem mem_posts_iff {post : Payload × String} :
    post ∈ o.posts ↔ post.1 = o.payload ∧ o.MayPost post.2 := by
  cases taken : tokenOf o.provided with
  | error e =>
      obtain ⟨none, -, noToken⟩ := run_of_tokenOf taken
      rw [none]
      exact iff_of_false List.not_mem_nil fun h => noToken _ h.2
  | ok token =>
      have mayPost : o.MayPost token := tokenOf_eq_ok_iff.mp taken
      rw [mayPost.run.1, List.mem_singleton]
      constructor
      · rintro rfl
        exact ⟨rfl, mayPost⟩
      · rintro ⟨own, mayPost'⟩
        exact Prod.ext own (mayPost'.unique mayPost)

theorem length_posts_le (o : Occasion) : o.posts.length ≤ 1 := by
  cases taken : tokenOf o.provided with
  | error e => rw [(run_of_tokenOf taken).1]; exact Nat.zero_le 1
  | ok token => rw [(tokenOf_eq_ok_iff.mp taken).run.1]; exact Nat.le_refl 1

/-- Whatever a failure with a verdict says, it says by an answer. -/
theorem FailsWith.of_verdict {e : ExportError} (fails : o.FailsWith e) (some : e.verdict ≠ .final) :
    ∃ answer, o.IsAnswered answer ∧ e.verdict = Verdict.classify answer.status answer.headers := by
  cases fails with
  | unattached _ => exact absurd rfl some
  | refused _ => exact absurd rfl some
  | empty _ => exact absurd rfl some
  | lost _ _ => exact absurd rfl some
  | rejected answered _ => exact ⟨_, answered, rfl⟩

/-- No status worth another attempt is a success. -/
theorem not_success_of_mem {status : Status} (worth : status.code ∈ Verdict.retryableStatuses) :
    status.code ≠ 204 := by
  intro success
  rw [success] at worth
  exact absurd worth (by decide)

/-- An answer worth another attempt is no success, so it is rejected with its verdict. -/
theorem IsAnswered.rejected_of_mem {answer : SinkAnswer} (answered : o.IsAnswered answer)
    (worth : answer.status.code ∈ Verdict.retryableStatuses) :
    o.outcome = .error (.unexpectedStatus answer.status answer.text
      (Verdict.classify answer.status answer.headers)) :=
  answered.outcome_eq.trans (if_neg (not_success_of_mem worth))

/-- An export decides by its provider and by the answer to its post, and by nothing else. -/
theorem decides (o : Occasion) : o.Decides where
  once := o.length_posts_le
  posts post := mem_posts_iff
  delivered := by
    constructor
    · intro delivered
      rcases o.cases with ⟨answer, answered, success, -⟩ | ⟨e, -, failed⟩
      · exact ⟨answer, answered, success⟩
      · exact nomatch delivered.symm.trans failed
    · rintro ⟨answer, answered, success⟩
      rw [answered.outcome_eq, if_pos success]
  failed e := ⟨o.failsWith_of_outcome, FailsWith.outcome_eq⟩
  again := by
    constructor
    · rintro ⟨e, failed, again⟩
      -- a final failure is not worth a retry, so an answer stands behind this one
      obtain ⟨answer, answered, verdict⟩ := (o.failsWith_of_outcome failed).of_verdict
        fun final => by rw [ExportError.isRetryable, final] at again; exact nomatch again
      rw [ExportError.isRetryable, verdict, Verdict.isRetryable_classify] at again
      exact ⟨answer, answered, again⟩
    · rintro ⟨answer, answered, worth⟩
      exact ⟨_, answered.rejected_of_mem worth, (Verdict.isRetryable_classify _ _).mpr worth⟩
  waits wait := by
    constructor
    · rintro ⟨e, failed, hint⟩
      obtain ⟨answer, answered, verdict⟩ := (o.failsWith_of_outcome failed).of_verdict
        fun final => by rw [ExportError.hint, final] at hint; exact nomatch hint
      rw [ExportError.hint, verdict, Verdict.hint_classify] at hint
      split at hint
      · next worth =>
          obtain ⟨seconds, asked, same⟩ := retryAfter?_eq_some_iff.mp hint
          exact ⟨answer, seconds, answered, worth, asked, same⟩
      · exact nomatch hint
    · rintro ⟨answer, seconds, answered, worth, asked, rfl⟩
      refine ⟨_, answered.rejected_of_mem worth, ?_⟩
      have hint : (Verdict.classify answer.status answer.headers).hint
          = retryAfter? answer.headers := (Verdict.hint_classify _ _).trans (if_pos worth)
      exact hint.trans (retryAfter?_eq_some_iff.mpr ⟨seconds, asked, rfl⟩)

end Occasion

/-! ## A sequence of exports -/

/-- What surrounds an exporter: what a provider returns, if one is attached by then, and what the
    endpoint answers to a post.  Both may change the surroundings. -/
structure Around (World : Type) where
  obtain : World → Option (Except TokenError String) × World
  answer : World → Payload → String → Except String SinkAnswer × World

namespace Around

variable {World : Type} (a : Around World)

/-- The occasion of an export that begins in some world, and the world in which its post is made,
    if it makes one. -/
def occasion (w : World) (report : Report) : Occasion × World :=
  let asked := a.obtain w
  (⟨report, asked.1, fun payload token => (a.answer asked.2 payload token).1⟩, asked.2)

/-- One export: what it met, and the world that its posts leave behind. -/
def step (w : World) (report : Report) : Occasion × World :=
  let met := a.occasion w report
  (met.1, met.1.posts.foldl (fun w post => (a.answer w post.1 post.2).2) met.2)

/-- A sequence of exports: what each of them met, and the world behind the last. -/
def exports : World → List Report → List Occasion × World
  | w, [] => ([], w)
  | w, report :: reports =>
    let met := a.step w report
    let rest := exports met.2 reports
    (met.1 :: rest.1, rest.2)

theorem report_step (w : World) (report : Report) : (a.step w report).1.report = report := rfl

/-- **EXPORTS**: let any reports be exported in turn, in surroundings that may change with every
    token and with every post.  Then each export is of its own report and makes one post at most.
    It posts if a provider returned a token with something in it, and then the payload of its
    report with that token.  It ends well if the answer is 204, and else with the failure of its
    first step that fails.  Another attempt is worthwhile under 408, 429, 502 and 503 alone, and
    only there is a wait read, from a number of seconds that the answer asks for. -/
theorem exports_decide (w : World) (reports : List Report) :
    List.Forall₂ (fun report met => met.report = report ∧ met.Decides) reports
      (a.exports w reports).1 := by
  induction reports generalizing w with
  | nil => exact .nil
  | cons report reports rest =>
      exact .cons ⟨a.report_step w report, (a.step w report).1.decides⟩ (rest _)

end Around

end Export

end Courier
