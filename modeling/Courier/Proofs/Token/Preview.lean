import Courier.Proofs.Json.AgreeRecord
import Courier.Proofs.Token.Discretion
import Courier.Telemetry.Export
import Courier.Token.Issuer

/-! # Previews — what a failure shows of a token

    A body that is no grant is shown in the text of the failure, cut short.
    Bodies that differ only in the string of their token are read alike:
    both are granted, or both fail for the same reason at the same place.
    So nothing but the preview can tell their failures apart, and it does
    just where the strings differ within its length. -/

namespace Courier

open Json Utf8

/-! ## Texts of a failure -/

/-- How a failure of the issuer is passed on: by a refresh, and by whatever validates with one. -/
inductive Passage where
  | refresh (name : String)
  | validation (inner : Passage)

/-- What is passed on. -/
def Passage.pass : Passage → IssuerError → TokenError
  | refresh name, e => .refresh (.fatal name e)
  | validation inner, e => .validation (inner.pass e)

/-- Failures with the same text, alone and in every failure that they are passed on in. -/
structure IssuerError.SameTexts (e e' : IssuerError) : Prop where
  alone : e.message = e'.message
  retried : ∀ name : String, (RetryError.fatal name e).message IssuerError.message
    = (RetryError.fatal name e').message IssuerError.message
  passed : ∀ p : Passage, (p.pass e).message = (p.pass e').message
  exported : ∀ p : Passage,
    (ExportError.token (p.pass e)).message = (ExportError.token (p.pass e')).message

theorem IssuerError.sameTexts_iff {e e' : IssuerError} :
    e.SameTexts e' ↔ e.message = e'.message := by
  refine ⟨SameTexts.alone, fun same => ?_⟩
  have retried (name : String) : (RetryError.fatal name e).message IssuerError.message
      = (RetryError.fatal name e').message IssuerError.message :=
    congrArg (fun text => "non retryable error running " ++ Text.quoted name ++ ": " ++ text) same
  have passed (p : Passage) : (p.pass e).message = (p.pass e').message := by
    induction p with
    | refresh name => exact congrArg ("auth token refresh failed: " ++ ·) (retried name)
    | validation inner ih => exact congrArg ("validating API token validity: " ++ ·) ih
  exact ⟨same, retried, passed, passed⟩

/-! ## Previews -/

namespace IssuerError

/-- Where the reason is the same, only the preview makes a difference. -/
theorem message_malformed_inj {reason body body' : String} :
    (malformed reason body).message = (malformed reason body').message ↔ body = body' :=
  String.append_right_inj _

/-- Previews of bodies of one length are the same just if what they keep of them is. -/
theorem preview_inj_iff {body body' : List Char} (same : body.length = body'.length) :
    preview body = preview body' ↔ body.take previewLength = body'.take previewLength := by
  rw [preview, preview, ← same]
  split
  · next short =>
      rw [List.take_of_length_le short, List.take_of_length_le (same ▸ short)]
      exact String.ofList_inj
  · rw [String.append_left_inj]
    exact String.ofList_inj

/-- Where two bodies differ in the middle only, so do their previews, as far as they go. -/
theorem preview_eq_iff {x t t' y : List Char} (same : t.length = t'.length) :
    preview (x ++ (t ++ y)) = preview (x ++ (t' ++ y)) ↔
      t.take (previewLength - x.length) = t'.take (previewLength - x.length) := by
  have cut (t : List Char) : (x ++ (t ++ y)).take previewLength = x.take previewLength ++
      (t.take (previewLength - x.length) ++ y.take (previewLength - x.length - t.length)) := by
    rw [List.take_append, List.take_append]
  rw [preview_inj_iff (by simp [same]), cut, cut, ← same, List.append_cancel_left_eq,
    List.append_cancel_right_eq]

end IssuerError

/-! ## Two bodies -/

namespace Json.Varied

variable (w : Varied) (before : List UInt8)

/-- A body in which the member stands behind `before`. -/
def body (text : List Char) : List UInt8 := before ++ quote :: w.ending text

/-- The characters of the body up to the string. -/
def lead : List Char :=
  decodeLossy (before ++ quote ::
    (encode w.form ++ quote :: (encode w.gap ++ ascii ':' :: encode w.gap'))) ++ ['"']

/-- What a preview of the body keeps of the string. -/
def shown (text : List Char) : List Char :=
  text.take (IssuerError.previewLength - (w.lead before).length)

/-- A body that is decoded has its text behind what stands in front of it. -/
theorem decodeLossy_body (text : List Char) : decodeLossy (w.body before text)
    = w.lead before ++ (text ++ '"' :: decodeLossy w.rest) := by
  have split : w.body before text = (before ++ quote ::
      (encode w.form ++ quote :: (encode w.gap ++ ascii ':' :: encode w.gap')))
        ++ ascii '"' :: (encode text ++ ascii '"' :: w.rest) := by
    simp [body, ending, tail, value, held]
  rw [split, decodeLossy_append (by decide), decodeLossy_encode, decodeLossy_ascii (by decide), lead,
    List.append_assoc]
  rfl

/-- The previews of two bodies that differ in their text only are the same just if they show the
    same of it. -/
theorem preview_body_eq_iff : IssuerError.preview (decodeLossy (w.body before w.first))
      = IssuerError.preview (decodeLossy (w.body before w.second)) ↔
    w.shown before w.first = w.shown before w.second := by
  rw [decodeLossy_body, decodeLossy_body, IssuerError.preview_eq_iff w.fits]
  rfl

theorem sameBlank : SameBlank (String.ofList w.first) (String.ofList w.second) := by
  have blank (cs : List Char) : (String.ofList cs).isEmpty = (cs.length == 0) := by
    cases cs with
    | nil => rfl
    | cons c cs =>
        simp [String.isEmpty_eq_false_iff]
  rw [SameBlank, blank, blank, w.fits]

/-- A string that begins behind the end of the preview is not shown. -/
theorem shown_eq_nil (behind : IssuerError.previewLength ≤ (w.lead before).length)
    (text : List Char) : w.shown before text = [] := by
  rw [shown, Nat.sub_eq_zero_of_le behind, List.take_zero]

end Json.Varied

namespace Grant

variable {w : Varied} (named : w.name = "access_token".toList)

include named

/-- The token is the one field that is read from the string, and it is empty in neither or both. -/
theorem relates_twin : w.Relates layout Grant.Twin where
  blank := ⟨rfl, rfl⟩
  before := by
    refine List.forall_mem_cons.mpr ⟨fun c d loose => ?_, List.forall_mem_cons.mpr
      ⟨fun c d loose => ?_, fun _ mem => nomatch mem⟩⟩
    · refine (Varied.agree_text Varied.open_refl loose).bind ?_
      rintro s _ c d ⟨rfl, past⟩
      exact .ok ⟨fun a b twin => ⟨twin.expiresIn, rfl⟩, past⟩
    · refine (Varied.agree_wholeBy Varied.open_refl loose).bind ?_
      rintro n _ c d ⟨rfl, loose⟩
      exact .ok ⟨fun a b twin => ⟨rfl, twin.token⟩, loose.past⟩
  own := by
    refine List.forall_mem_cons.mpr ⟨fun _ c d value => ?_, List.forall_mem_cons.mpr
      ⟨fun suffix => ?_, fun _ mem => nomatch mem⟩⟩
    · refine (Varied.agree_text_value value).bind ?_
      rintro _ _ c _ ⟨rfl, rfl, rfl⟩
      exact .ok ⟨fun a b twin => ⟨twin.expiresIn, w.sameBlank⟩, Or.inl rfl⟩
    · rw [named] at suffix
      exact absurd suffix (by decide)

/-- What comes of two bodies: grants of tokens, failures without one, or failures for one reason
    with each run's own preview. -/
theorem matched_ofBody (before : List UInt8) :
    Matched (fun e e' => (e = .noToken ∧ e' = .noToken) ∨ ∃ reason,
      e = .malformed reason (IssuerError.preview (decodeLossy (w.body before w.first))) ∧
      e' = .malformed reason (IssuerError.preview (decodeLossy (w.body before w.second)))) Grant.Twin
      (ofBody (w.body before w.first)) (ofBody (w.body before w.second)) := by
  rw [ofBody, ofBody]
  rcases (relates_twin named).decode before with ⟨g, g', left, right, twin⟩ | ⟨fault, left, right⟩
  · rw [Varied.body, Varied.body, left, right]
    dsimp only
    rw [← show g.token.isEmpty = g'.token.isEmpty from twin.token]
    split
    · exact .error (Or.inl ⟨rfl, rfl⟩)
    · exact .ok twin
  · rw [Varied.body, Varied.body, left, right]
    exact .error (Or.inr ⟨fault.message, rfl, rfl⟩)

end Grant

/-- **FAILURES SHOW NO MORE THAN PREVIEWS**: let two 2xx answers have bodies that differ only in the
    string of one member named as the token, both of letters and digits and of the same length, and
    let neither be a grant.  Then the failures have the same text, alone and passed on, just where
    the strings are the same within the length of a preview, or where the failure is that there is
    no token. -/
theorem failures_show_no_more_than_previews {w : Json.Varied}
    (named : w.name = "access_token".toList) (before : List UInt8) {status status' : Status}
    {headers headers' : Headers} {e e' : IssuerError}
    (success : status.isSuccess = true ∧ status'.isSuccess = true)
    (failed : Grant.ofExchange (.ok ⟨status, headers, w.body before w.first⟩) = .error e)
    (failed' : Grant.ofExchange (.ok ⟨status', headers', w.body before w.second⟩) = .error e') :
    e.SameTexts e' ↔ e = .noToken ∨ w.shown before w.first = w.shown before w.second := by
  rw [Grant.ofExchange] at failed failed'
  dsimp only at failed failed'
  rw [if_pos success.1] at failed
  rw [if_pos success.2] at failed'
  have matched := Grant.matched_ofBody named before
  rw [failed, failed'] at matched
  rw [IssuerError.sameTexts_iff]
  cases matched with
  | error failures =>
      rcases failures with ⟨rfl, rfl⟩ | ⟨reason, rfl, rfl⟩
      · exact iff_of_true rfl (Or.inl rfl)
      · rw [IssuerError.message_malformed_inj, w.preview_body_eq_iff]
        exact (or_iff_right nofun).symm

/-- Two tokens of three letters, with a lifetime behind them that is none. -/
def threeLetters : Json.Varied where
  name := "access_token".toList
  form := "access_token".toList
  spelled := charsForm_plain (by decide)
  begins := ⟨'a', "ccess_token".toList, by decide, by decide⟩
  gap := []
  gap' := []
  space := ⟨isSpacing_nil, isSpacing_nil⟩
  first := ['a', 'b', 'c']
  second := ['x', 'y', 'z']
  plain := List.all_eq_true.mp (by decide)
  fits := rfl
  rest := encode ",\"expires_in\":-1\x7d".toList

/-- The answer 200 with one of the tokens, behind the given bytes. -/
def answerWith (before : List UInt8) (token : List Char) : Response where
  status := ⟨200, by decide, by decide⟩
  body := threeLetters.body before token

/-- A hundred spaces behind the brace, which are all that is shown. -/
theorem failures_show_no_more_than_previews_indented :
    let indented := ascii '\x7b' :: List.replicate 100 (ascii ' ')
    ∃ e e', Grant.ofExchange (.ok (answerWith indented ['a', 'b', 'c'])) = .error e ∧
      Grant.ofExchange (.ok (answerWith indented ['x', 'y', 'z'])) = .error e' ∧
      e.SameTexts e' := by
  intro indented
  have error {x : Except IssuerError Grant} (none : x.isOk = false) : ∃ e, x = .error e := by
    cases x with
    | ok g => exact nomatch none
    | error e => exact ⟨e, rfl⟩
  have first : (Grant.ofExchange (.ok (answerWith indented ['a', 'b', 'c']))).isOk = false := by
    decide +kernel
  have second : (Grant.ofExchange (.ok (answerWith indented ['x', 'y', 'z']))).isOk = false := by
    decide +kernel
  obtain ⟨e, failed⟩ := error first
  obtain ⟨e', failed'⟩ := error second
  have behind : IssuerError.previewLength ≤ (threeLetters.lead indented).length := by decide +kernel
  refine ⟨e, e', failed, failed', ?_⟩
  refine (failures_show_no_more_than_previews (w := threeLetters) rfl indented
    ⟨by decide, by decide⟩ failed failed').mpr (Or.inr ?_)
  rw [threeLetters.shown_eq_nil indented behind, threeLetters.shown_eq_nil indented behind]

/-- The text of a failure that shows all of the body. -/
def revealing (token : String) : String :=
  "OAuth2 token endpoint parse error: invalid value: integer `-1`, expected u64 at line 1 column 37"
    ++ ". Body: \x7b\"access_token\":\"" ++ token ++ "\",\"expires_in\":-1\x7d"

/-- Without spaces the text of the failure is the whole body, token and all. -/
theorem tokens_are_shown_in_previews :
    ∃ e e', Grant.ofExchange (.ok (answerWith [ascii '\x7b'] ['a', 'b', 'c'])) = .error e ∧
      Grant.ofExchange (.ok (answerWith [ascii '\x7b'] ['x', 'y', 'z'])) = .error e' ∧
      e.message = revealing "abc" ∧ e'.message = revealing "xyz" ∧ e.message ≠ e'.message := by
  have error {x : Except IssuerError Grant} {text : String}
      (h : x.mapError IssuerError.message = .error text) : ∃ e, x = .error e ∧ e.message = text := by
    cases x with
    | ok g => exact nomatch h
    | error e => exact ⟨e, rfl, Except.error.inj h⟩
  have first : (Grant.ofExchange (.ok (answerWith [ascii '\x7b'] ['a', 'b', 'c']))).mapError
      IssuerError.message = .error (revealing "abc") := by decide +kernel
  have second : (Grant.ofExchange (.ok (answerWith [ascii '\x7b'] ['x', 'y', 'z']))).mapError
      IssuerError.message = .error (revealing "xyz") := by decide +kernel
  obtain ⟨e, failed, text⟩ := error first
  obtain ⟨e', failed', text'⟩ := error second
  refine ⟨e, e', failed, failed', text, text', ?_⟩
  rw [text, text']
  decide +kernel

end Courier
