import Courier.Http.Exchange
import Courier.Text.Form
import Courier.Token.Grant

/-! # The issuer over HTTP

    The API token is sent as a form field; a 2xx answer must hold a grant
    with a token, and any other status is passed on with the wait that it
    asks for if it is worth another attempt. -/

namespace Courier

/-- The request for a token, with the API token as the only field of a form. -/
def grantRequest (tokenUrl : Url) (apiToken : String) : Request where
  url := tokenUrl
  headers := [("content-type", "application/x-www-form-urlencoded"), ("user-agent", userAgent)]
  body := Form.field "refresh_token" apiToken

/-- The grant, or the failure, in what a request came to. -/
def Grant.ofExchange : Exchange → Except IssuerError Grant
  | .error reason => .error (.unreachable reason)
  | .ok response =>
    if response.status.isSuccess then Grant.ofBody response.body
    else .error (.rejected response.status (Verdict.classify response.status response.headers).hint)

end Courier
