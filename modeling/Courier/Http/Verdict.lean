import Courier.Span
import Courier.Http.Status
import Courier.Text.Numeral

/-! # Retry verdicts — which answers are worth another attempt

    Four statuses are: 408, 429, 502 and 503.  Their answers may say in
    whole seconds how long to wait; the first such header counts, and any
    other form of it counts for nothing. -/

namespace Courier

/-- Header fields in order of arrival; names compare without regard to ASCII case. -/
abbrev Headers := List (String × List UInt8)

namespace Headers

/-- The value of the first header of a name, whose letter case does not matter. -/
def first? (fields : Headers) (name : String) : Option (List UInt8) :=
  (fields.find? fun field => field.1.toLower == name.toLower).map Prod.snd

end Headers

/-- Whether a byte may stand in readable text: a visible ASCII character, a space or a tab. -/
def isReadableByte (b : UInt8) : Bool := b == 9 || (32 ≤ b && b < 127)

/-- The text of a header value all of whose bytes are readable. -/
def readableText? (bytes : List UInt8) : Option (List Char) :=
  if bytes.all isReadableByte then some (bytes.map fun b => Char.ofNat b.toNat) else none

/-- The text without the spaces and tabs around it. -/
def trimSpacing (cs : List Char) : List Char :=
  let isSpacing (c : Char) := c == ' ' || c == '\t'
  ((cs.dropWhile isSpacing).reverse.dropWhile isSpacing).reverse

/-- The wait that an answer asks for: the first `retry-after` field, a whole number of
    seconds. -/
def retryAfter? (fields : Headers) : Option Span := do
  let value ← fields.first? "retry-after"
  let text ← readableText? value
  let seconds ← Numeral.word? 64 (trimSpacing text)
  some (.ofSeconds (.ofNat seconds))

/-- The verdict on a completed exchange. -/
inductive Verdict where
  /-- Worth another attempt, after the wait that the other side asked for if any. -/
  | again (retryAfter : Option Span)
  | final
  deriving DecidableEq

namespace Verdict

/-- The statuses worth another attempt. -/
def retryableStatuses : List Nat := [408, 429, 502, 503]

/-- The verdict on a status alone, without a wait. -/
def ofStatus (status : Status) : Verdict :=
  if status.code ∈ retryableStatuses then again none else final

/-- The verdict on a status with the wait that the headers ask for, if it is worth another attempt.
    -/
def classify (status : Status) (fields : Headers) : Verdict :=
  match ofStatus status with
  | again _ => again (retryAfter? fields)
  | final => final

/-- Whether another attempt is worthwhile. -/
def isRetryable : Verdict → Bool
  | again _ => true
  | final => false

/-- The wait that the other side asked for. -/
def hint : Verdict → Option Span
  | again wait => wait
  | final => none

end Verdict

end Courier
