import Courier.Http.Exchange
import Courier.Telemetry.Payload
import Courier.Token.Error
import Courier.Url.Segments

/-! # Exporting a report

    A report is posted once, with a token that its provider returned; only
    the answer 204 counts as success.  Any other outcome is the failure of
    the first step that went wrong. -/

namespace Courier

/-- Why a report was not delivered. -/
inductive ExportError where
  | noProvider
  | noToken
  | token (cause : TokenError)
  /-- The exchange did not complete. -/
  | transport (reason : String)
  | unexpectedStatus (status : Status) (text : String) (verdict : Verdict)
  | badJson (fault : Json.Fault)
  | badUrl (fault : UrlFault)

namespace ExportError

/-- The failure in words. -/
def message : ExportError → String
  | noProvider => "no provider: telemetry exporter has no bearer token provider configured"
  | noToken => "no token available"
  | token cause => cause.message
  | transport reason => reason
  | unexpectedStatus _ text _ => "governor api response status: " ++ text
  | badJson fault => "JSON error: " ++ fault.message
  | badUrl fault => "URL parse error: " ++ fault.message

/-- The verdict on the answer, where there was one. -/
def verdict : ExportError → Verdict
  | unexpectedStatus _ _ v => v
  | _ => .final

/-- Whether another export is worthwhile. -/
def isRetryable (e : ExportError) : Bool := e.verdict.isRetryable

/-- The wait that the other side asked for. -/
def hint (e : ExportError) : Option Span := e.verdict.hint

/-- The reasons behind the failure, outermost first. -/
def sources : ExportError → List String
  | token cause => cause.sources
  | badJson fault => [fault.message]
  | badUrl fault => [fault.message]
  | _ => []

end ExportError

/-- What the telemetry endpoint answered. -/
structure SinkAnswer where
  status : Status
  text : String
  headers : Headers := []

/-- The answer with a status, in the words that go with it. -/
def SinkAnswer.ofStatus (status : Status) (headers : Headers) : SinkAnswer :=
  ⟨status, status.text, headers⟩

namespace Export

/-- The status that the telemetry endpoint answers on success. -/
def successStatus : Nat := 204

/-- The segments of the telemetry URL behind the base. -/
def segments (clusterId : String) : List String := ["v1", "clusters", clusterId, "telemetry"]

/-- The URL of the telemetry of a cluster. -/
def telemetryUrl (apiUrl : Url) (clusterId : String) : Except ExportError Url :=
  (apiUrl.extended (segments clusterId)).mapError .badUrl

/-- The request that posts a payload with a token. -/
def request (url : Url) (multiplexing : Bool) (payload : Payload) (token : String) : Request where
  url := url
  headers := [("authorization", "Bearer " ++ token), ("content-type", "application/json"),
      ("user-agent", userAgent)]
    ++ if multiplexing then [] else [("connection", "close")]
  body := payload.body

/-- The token to post with, from what a provider returned if there is one. -/
def tokenOf : Option (Except TokenError String) → Except ExportError String
  | none => .error .noProvider
  | some (.error cause) => .error (.token cause)
  | some (.ok token) => if token.isEmpty then .error .noToken else .ok token

/-- What the outcome of the post means for the export. -/
def judge : Except String SinkAnswer → Except ExportError Unit
  | .error reason => .error (.transport reason)
  | .ok answer =>
    if answer.status.code = successStatus then .ok ()
    else
      .error (.unexpectedStatus answer.status answer.text
        (Verdict.classify answer.status answer.headers))

/-- Exports a report: the posts that were made, and the outcome. -/
def run (report : Report) (provider : Option (Except TokenError String))
    (post : Payload → String → Except String SinkAnswer) :
    List (Payload × String) × Except ExportError Unit :=
  match tokenOf provider with
  | .error e => ([], .error e)
  | .ok token =>
    let payload := Payload.ofReport report
    ([(payload, token)], judge (post payload token))

/-- An exporter as logs show it. -/
def describe (hasProvider : Bool) : String :=
  "TelemetryExporter \x7b has_provider: " ++ toString hasProvider ++ ", .. \x7d"

end Export

end Courier
