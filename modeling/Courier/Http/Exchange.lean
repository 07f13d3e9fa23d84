import Courier.Http.Verdict
import Courier.Text.Utf8
import Courier.Url.Basic

/-! # HTTP exchanges — what is sent, and what comes back -/

namespace Courier

/-- A request that posts a body. -/
structure Request where
  url : Url
  headers : List (String × String)
  body : String

/-- Whether a byte may stand in the value of a header: a tab, or no ASCII control. -/
def isHeaderByte (b : UInt8) : Bool := b == 9 || (32 ≤ b && b != 127)

/-- Whether the values of all headers can be sent. -/
def Request.isSendable (r : Request) : Bool :=
  r.headers.all fun header => (Utf8.ofString header.2).all isHeaderByte

/-- A complete answer. -/
structure Response where
  status : Status
  headers : Headers := []
  body : List UInt8 := []

/-- What a request comes to: an answer, or the reason why none came. -/
abbrev Exchange := Except String Response

/-- The name under which this program makes requests. -/
def userAgent : String := "inspector-governor/0.4.0"

end Courier
