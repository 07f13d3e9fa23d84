import Courier.Delivery.Calls
import Courier.Delivery.Error
import Courier.Delivery.Run
import Courier.Delivery.Surroundings
import Courier.Entries
import Courier.Files.Fault
import Courier.Files.Path
import Courier.Files.Tree
import Courier.Http.Exchange
import Courier.Http.Status
import Courier.Http.Verdict
import Courier.Json.Cursor
import Courier.Json.Decode
import Courier.Json.Encode
import Courier.Json.Fault
import Courier.Main
import Courier.Number.Double
import Courier.Number.Literal
import Courier.Number.Shortest
import Courier.Proofs.Delivery.Run
import Courier.Proofs.Files.Join
import Courier.Proofs.Files.Path
import Courier.Proofs.History
import Courier.Proofs.Http.RetryAfter
import Courier.Proofs.Json.Agree
import Courier.Proofs.Json.AgreeMember
import Courier.Proofs.Json.AgreeRecord
import Courier.Proofs.Json.AgreeSkip
import Courier.Proofs.Json.AgreeText
import Courier.Proofs.Json.Bracket
import Courier.Proofs.Json.Compact
import Courier.Proofs.Json.Exact
import Courier.Proofs.Json.Grammar
import Courier.Proofs.Json.Number
import Courier.Proofs.Json.Reader
import Courier.Proofs.Json.Record
import Courier.Proofs.Json.Skip
import Courier.Proofs.Json.SkipSound
import Courier.Proofs.Json.Sound
import Courier.Proofs.Json.Text
import Courier.Proofs.Json.TextMap
import Courier.Proofs.Local.Crowd
import Courier.Proofs.Local.Discretion
import Courier.Proofs.Local.Founding
import Courier.Proofs.Local.Lifetime
import Courier.Proofs.Local.Log
import Courier.Proofs.Local.Outcome
import Courier.Proofs.Local.Window
import Courier.Proofs.Number.Power
import Courier.Proofs.Number.Rounding
import Courier.Proofs.Retry.Backoff
import Courier.Proofs.Retry.Cancellation
import Courier.Proofs.Retry.Course
import Courier.Proofs.Retry.Growth
import Courier.Proofs.Retry.Law
import Courier.Proofs.Retry.Override
import Courier.Proofs.Secret.Mounted
import Courier.Proofs.Settings.Defaults
import Courier.Proofs.Settings.FirstUse
import Courier.Proofs.Settings.Layering
import Courier.Proofs.Settings.Leaves
import Courier.Proofs.Settings.Merge
import Courier.Proofs.Settings.Override
import Courier.Proofs.Settings.Reading
import Courier.Proofs.Settings.Spelling
import Courier.Proofs.Settings.Variables
import Courier.Proofs.Shared.Adoption
import Courier.Proofs.Shared.Call
import Courier.Proofs.Shared.Convergence
import Courier.Proofs.Shared.Discretion
import Courier.Proofs.Shared.Effort
import Courier.Proofs.Shared.Fleet
import Courier.Proofs.Shared.Issuance
import Courier.Proofs.Shared.Lifetime
import Courier.Proofs.Shared.Lock
import Courier.Proofs.Shared.Order
import Courier.Proofs.Shared.Overwrite
import Courier.Proofs.Shared.Progress
import Courier.Proofs.Shared.Provenance
import Courier.Proofs.Shared.Publication
import Courier.Proofs.Shared.Reuse
import Courier.Proofs.Shared.Usable
import Courier.Proofs.Span
import Courier.Proofs.Store.Access
import Courier.Proofs.Store.Discretion
import Courier.Proofs.Store.Interchange
import Courier.Proofs.Store.Lineage
import Courier.Proofs.Store.Rows
import Courier.Proofs.Store.Traffic
import Courier.Proofs.Store.Undisturbed
import Courier.Proofs.Telemetry.Address
import Courier.Proofs.Telemetry.Decision
import Courier.Proofs.Telemetry.Payload
import Courier.Proofs.Telemetry.Report
import Courier.Proofs.Text.Blank
import Courier.Proofs.Text.Escaped
import Courier.Proofs.Text.Numeral
import Courier.Proofs.Text.Octets
import Courier.Proofs.Text.Utf8
import Courier.Proofs.Time.Calendar
import Courier.Proofs.Time.Instant
import Courier.Proofs.Time.Rfc3339
import Courier.Proofs.Time.Saturation
import Courier.Proofs.Token.Conduct
import Courier.Proofs.Token.Credential
import Courier.Proofs.Token.Discretion
import Courier.Proofs.Token.Expiry
import Courier.Proofs.Token.Founding
import Courier.Proofs.Token.Grant
import Courier.Proofs.Token.Hints
import Courier.Proofs.Token.Preview
import Courier.Proofs.Token.Refreshing
import Courier.Proofs.Toml.Order
import Courier.Proofs.Url.Percent
import Courier.Record.Basic
import Courier.Record.Fields
import Courier.Rehearsal.Play
import Courier.Rehearsal.Stage
import Courier.Retry.Delay
import Courier.Retry.Policy
import Courier.Retry.Run
import Courier.Secret.ApiToken
import Courier.Secret.Error
import Courier.Secret.Mounted
import Courier.Settings.Basic
import Courier.Settings.Fault
import Courier.Settings.Load
import Courier.Settings.Shape
import Courier.Settings.Tree
import Courier.Settings.Variable
import Courier.Settings.VariableFile
import Courier.Span
import Courier.Store.Address
import Courier.Store.Basic
import Courier.Store.Connection
import Courier.Store.Error
import Courier.Store.Memory
import Courier.Store.Sqlite
import Courier.Store.Table
import Courier.Telemetry.Export
import Courier.Telemetry.Payload
import Courier.Telemetry.Report
import Courier.Text.Blank
import Courier.Text.Escaped
import Courier.Text.Form
import Courier.Text.Hidden
import Courier.Text.Numeral
import Courier.Text.Pieces
import Courier.Text.Quoted
import Courier.Text.Utf8
import Courier.Time.Calendar
import Courier.Time.Clock
import Courier.Time.Instant
import Courier.Time.Rfc3339
import Courier.Token.Credential
import Courier.Token.Describe
import Courier.Token.Error
import Courier.Token.Founding
import Courier.Token.Grant
import Courier.Token.Issuer
import Courier.Token.Local
import Courier.Token.Refresh
import Courier.Token.Refreshing
import Courier.Token.Shared
import Courier.Token.Weight
import Courier.Toml.Document
import Courier.Toml.Scalar
import Courier.Toml.Table
import Courier.Toml.Text
import Courier.Url.Basic
import Courier.Url.Host
import Courier.Url.Parse
import Courier.Url.Percent
import Courier.Url.Punycode
import Courier.Url.Segments
