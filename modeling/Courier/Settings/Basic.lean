import Courier.Settings.Shape
import Courier.Text.Blank
import Courier.Token.Refresh

/-! # Settings — what the program is told

    Each table of settings has a value that it starts from, a tree that
    shows it, and a shape that reads it back.  Settings are valid if the
    cluster and the secret are named, a refresh may make an attempt, and a
    shared record has a name. -/

namespace Courier

/-- The settings of the process itself. -/
structure BasicSettings where
  logLevel : String := "info"
  reportPath : String := "report.json"

/-- The settings of the record that replicas share. -/
structure SharedSettings where
  enabled : Bool := false
  databaseUrl : String := "sqlite://governor-tokens.db"
  ns : String := "cnsi-system"
  recordName : String := "governor-access-token"

/-- The settings of the issuer, the secret and the refreshes. -/
structure AuthSettings where
  tokenUrl : Url :=
    { scheme := "https", host := some "console.cloud.vmware.com",
      path := .segments ["csp", "gateway", "am", "api", "auth", "api-tokens", "authorize"] }
  proxy : Option Url := none
  secretRoot : String := "/etc/governor/secrets"
  secretNamespace : String := "cnsi-system"
  secretName : String := ""
  secretKey : String := "accessSecret"
  tokenMaxAge : UInt64 := 600
  refreshAttempts : UInt32 := 3
  refreshBaseDelay : UInt64 := 5
  refreshStep : UInt64 := 5
  shared : SharedSettings := {}

/-- The settings of the telemetry endpoint. -/
structure GovernorSettings where
  apiUrl : Url :=
    { scheme := "https", host := some "api.governor.tanzu.vmware.com", path := .segments [""] }
  clusterId : String := ""
  proxy : Option Url := none
  timeout : UInt64 := 30
  multiplexing : Bool := false

/-- All settings. -/
structure Settings where
  basic : BasicSettings := {}
  auth : AuthSettings := {}
  governor : GovernorSettings := {}

/-! ## Trees -/

/-- A URL that may be absent as a tree. -/
def SettingTree.optionalUrl : Option Url → SettingTree
  | some u => .text u.text
  | none => .absent

/-- The settings of the process itself as a tree. -/
def BasicSettings.toTree (s : BasicSettings) : SettingTree := .ofList
  [("loglevel", .text s.logLevel), ("report_path", .text s.reportPath)]

/-- The settings of the shared record as a tree. -/
def SharedSettings.toTree (s : SharedSettings) : SettingTree := .ofList
  [("enabled", .bool s.enabled), ("database_url", .text s.databaseUrl), ("namespace", .text s.ns),
    ("record_name", .text s.recordName)]

/-- The settings of the issuer, the secret and the refreshes as a tree. -/
def AuthSettings.toTree (s : AuthSettings) : SettingTree := .ofList
  [("token_url", .text s.tokenUrl.text), ("proxy", .optionalUrl s.proxy),
    ("secret_root", .text s.secretRoot), ("secret_namespace", .text s.secretNamespace),
    ("secret_name", .text s.secretName), ("secret_key", .text s.secretKey),
    ("token_max_age_secs", .unsigned s.tokenMaxAge.toNat),
    ("refresh_max_attempts", .unsigned s.refreshAttempts.toNat),
    ("refresh_base_delay_secs", .unsigned s.refreshBaseDelay.toNat),
    ("refresh_step_secs", .unsigned s.refreshStep.toNat), ("shared", s.shared.toTree)]

/-- The settings of the telemetry endpoint as a tree. -/
def GovernorSettings.toTree (s : GovernorSettings) : SettingTree := .ofList
  [("api_url", .text s.apiUrl.text), ("cluster_id", .text s.clusterId),
    ("proxy", .optionalUrl s.proxy), ("timeout_secs", .unsigned s.timeout.toNat),
    ("enable_multiplexing", .bool s.multiplexing)]

/-- All settings as a tree. -/
def Settings.toTree (s : Settings) : SettingTree := .ofList
  [("basic", s.basic.toTree), ("auth", s.auth.toTree), ("governor", s.governor.toTree)]

/-! ## Shapes -/

namespace SettingReader

/-- Reads a text. -/
def string : SettingReader String := text "a string"

/-- Reads a text that is a path. -/
def path : SettingReader String := text "path string"

end SettingReader

open SettingReader

/-- The table of the process. -/
def BasicSettings.shape : Shape BasicSettings where
  name := "BasicConfig"
  slots :=
    [.of "loglevel" string fun v s => { s with logLevel := v },
      .of "report_path" path fun v s => { s with reportPath := v }]
  isStrict := false

/-- The table of the shared record. -/
def SharedSettings.shape : Shape SharedSettings where
  name := "SharedStoreConfig"
  slots :=
    [.of "enabled" bool fun v s => { s with enabled := v },
      .of "database_url" string fun v s => { s with databaseUrl := v },
      .of "namespace" string fun v s => { s with ns := v },
      .of "record_name" string fun v s => { s with recordName := v }]
  isStrict := true

/-- The table of the issuer. -/
def AuthSettings.shape : Shape AuthSettings where
  name := "AuthConfig"
  slots :=
    [.of "token_url" url fun v s => { s with tokenUrl := v },
      .of "proxy" (optional url) fun v s => { s with proxy := v },
      .of "secret_root" path fun v s => { s with secretRoot := v },
      .of "secret_namespace" string fun v s => { s with secretNamespace := v },
      .of "secret_name" string fun v s => { s with secretName := v },
      .of "secret_key" string fun v s => { s with secretKey := v },
      .of "token_max_age_secs" word64 fun v s => { s with tokenMaxAge := v },
      .of "refresh_max_attempts" word32 fun v s => { s with refreshAttempts := v },
      .of "refresh_base_delay_secs" word64 fun v s => { s with refreshBaseDelay := v },
      .of "refresh_step_secs" word64 fun v s => { s with refreshStep := v },
      .of "shared" (SharedSettings.shape.read {}) fun v s => { s with shared := v }]
  isStrict := true

/-- The table of the telemetry endpoint. -/
def GovernorSettings.shape : Shape GovernorSettings where
  name := "GovernorConfig"
  slots :=
    [.of "api_url" url fun v s => { s with apiUrl := v },
      .of "cluster_id" string fun v s => { s with clusterId := v },
      .of "proxy" (optional url) fun v s => { s with proxy := v },
      .of "timeout_secs" word64 fun v s => { s with timeout := v },
      .of "enable_multiplexing" bool fun v s => { s with multiplexing := v }]
  isStrict := true

namespace Settings

/-- How all settings are read; keys besides the tables are passed over. -/
def shape : Shape Settings where
  name := "Config"
  slots :=
    [.of "basic" (BasicSettings.shape.read {}) fun v s => { s with basic := v },
      .of "auth" (AuthSettings.shape.read {}) fun v s => { s with auth := v },
      .of "governor" (GovernorSettings.shape.read {}) fun v s => { s with governor := v }]
  isStrict := false

/-! ## Validity -/

/-- The first thing that is wrong with the settings. -/
def flaw? (s : Settings) : Option String :=
  if Text.isAllBlank s.governor.clusterId then
    some "governor.cluster_id must be set and non-empty"
  else if Text.isAllBlank s.auth.secretName then
    some "auth.secret_name must be set and non-empty"
  else if s.auth.refreshAttempts = 0 then
    some "auth.refresh_max_attempts must be at least 1"
  else if s.auth.shared.enabled && Text.isAllBlank s.auth.shared.recordName then
    some "auth.shared.record_name must be set when the shared store is enabled"
  else none

/-- The settings if nothing is wrong with them. -/
def validate (s : Settings) : Except SettingsError Settings :=
  match s.flaw? with
  | some reason => .error (.invalid reason)
  | none => .ok s

end Settings

/-- How tokens are refreshed under the settings. -/
def AuthSettings.refresh (s : AuthSettings) : RefreshSettings :=
  .make s.tokenMaxAge s.refreshAttempts s.refreshBaseDelay s.refreshStep

end Courier
