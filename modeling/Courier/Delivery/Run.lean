import Courier.Delivery.Calls
import Courier.Delivery.Error
import Courier.Secret.ApiToken
import Courier.Secret.Mounted
import Courier.Settings.Load
import Courier.Settings.VariableFile

/-! # A run of the program

    The settings are loaded, the report is read, a provider of tokens is
    built and proved by a first token, and the report is exported.  The
    first step that fails ends the run. -/

namespace Courier.Delivery

/-! ## Variables and settings -/

/-- The name of the file with variables. -/
def variableFile : String := ".env"

/-- The paths where the file with variables may be: in the directory where the program runs, or
    else in the one above it, and so on. -/
def variablePaths (depth : Nat) : List String :=
  (List.range (depth + 1)).map fun up => String.join (List.replicate up "../") ++ variableFile

/-- The first of some paths that leads to a file.  The search goes on where nothing is, and behind
    what is no file; any other fault ends it. -/
def Surroundings.firstFile? (s : Surroundings) : List String → Option String
  | [] => none
  | path :: more =>
    match s.isFile path with
    | .ok true => some path
    | .ok false => s.firstFile? more
    | .error fault => if fault.kind = .notFound then s.firstFile? more else none

/-- The bytes of the file with variables; one that is not found or cannot be read has none. -/
def Surroundings.variableBytes (s : Surroundings) : List UInt8 :=
  match (s.firstFile? (variablePaths s.depth)).map s.file with
  | some (.ok bytes) => bytes
  | _ => []

/-- The variables of the environment, and those of the file with variables. -/
def Surroundings.allVariables (s : Surroundings) : Except DeliveryError (List (String × String)) :=
  match VariableFile.unsettable? s.environment s.variableBytes with
  | some name => .error (.unsettable name)
  | none => .ok (VariableFile.extend s.environment s.variableBytes)

/-- The text of the file with settings, if there is such a file; it must then be readable. -/
def Surroundings.settingsText (s : Surroundings) : Except SettingsError (Option String) :=
  match s.isFile Settings.fileName with
  | .ok true =>
    match (s.file Settings.fileName).text with
    | .ok text => .ok (some text)
    | .error fault => .error (.unreadable ⟨[], .badValue fault.message⟩)
  | _ => .ok none

/-- The settings of a run, loaded from its file with settings and from its variables. -/
def Surroundings.settings (s : Surroundings) : Except DeliveryError Settings :=
  match s.allVariables with
  | .error e => .error e
  | .ok environment =>
    match s.settingsText with
    | .error cause => .error (.settings cause)
    | .ok text => (Settings.load text environment).mapError .settings

/-! ## The report and the secret -/

/-- The path of the report: the first argument, or else a setting. -/
def Surroundings.reportPath (s : Surroundings) (settings : Settings) : String :=
  s.arguments.head?.getD settings.basic.reportPath

/-- The report of a run, read from its file. -/
def Surroundings.report (s : Surroundings) (settings : Settings) : Except DeliveryError Report :=
  match s.file (s.reportPath settings) with
  | .error fault => .error (.reportUnread fault)
  | .ok bytes => (Report.ofBytes bytes).mapError .reportMalformed

/-- The secret that the settings name. -/
def secretRef (auth : AuthSettings) : SecretRef :=
  ⟨auth.secretNamespace, auth.secretName, auth.secretKey⟩

/-- The API token in the mounted secret. -/
def Surroundings.apiToken (s : Surroundings) (auth : AuthSettings) : Except SecretError String :=
  apiTokenOf (secretRef auth) ((secretRef auth).textIn s.file auth.secretRoot)

/-! ## Stages -/

/-- A provider before its first call, with the client for the issuer built and the database of the
    shared record opened. -/
def Surroundings.newProvider (s : Surroundings) (auth : AuthSettings) (log : Log) :
    Except DeliveryError Provider × Log :=
  match s.issuerClient auth with
  | .error reason => (.error (.issuer (.unreachable reason)), log)
  | .ok () =>
    if auth.shared.enabled then
      match DatabaseAddress.parse auth.shared.databaseUrl with
      | .error cause => (.error (.database cause), log)
      | .ok address =>
        match s.database address with
        | .error cause => (.error (.database cause), log)
        | .ok database =>
          (.ok (.shared auth.refresh ⟨auth.shared.ns, auth.shared.recordName⟩),
            { log with opened := some address, database := database })
    else (.ok (.alone ⟨auth.refresh, none⟩), log)

/-- A provider that a first token has proved, with the request that it sends for tokens. -/
def Surroundings.validProvider (s : Surroundings) (auth : AuthSettings) (log : Log) :
    Except DeliveryError (Provider × Request) × Log :=
  match s.newProvider auth log with
  | (.error e, log) => (.error e, log)
  | (.ok provider, log) =>
    match s.apiToken auth with
    | .error cause => (.error (.provider (.secret cause)), log)
    | .ok apiToken =>
      let request := grantRequest auth.tokenUrl apiToken
      match provider.prove s request log with
      | (.error cause, _, log) => (.error (.provider (.validation cause)), log)
      | (.ok _, provider, log) => (.ok (provider, request), log)

/-- The URL that the report is posted to, with the client for the telemetry endpoint built. -/
def Surroundings.target (s : Surroundings) (governor : GovernorSettings) : Except ExportError Url :=
  match s.telemetryClient governor with
  | .error reason => .error (.transport reason)
  | .ok () => Export.telemetryUrl governor.apiUrl governor.clusterId

/-- The export of a report with a token from a provider. -/
def Surroundings.deliver (s : Surroundings) (governor : GovernorSettings) (report : Report)
    (provider : Provider) (request : Request) (log : Log) : Except DeliveryError Unit × Log :=
  match s.target governor with
  | .error cause => (.error (.exporting cause), log)
  | .ok url =>
    let asked := provider.bearerToken s request log
    let post := Export.request url governor.multiplexing
    let exported := Export.run report (some asked.1) fun payload token =>
      (s.send (post payload token)).map fun answer => .ofStatus answer.status answer.headers
    let sent := (exported.1.map fun p => post p.1 p.2).filter Request.isSendable
    (exported.2.mapError .exporting, { asked.2.2 with posts := asked.2.2.posts ++ sent })

/-- A whole run: what it ends with, and its log. -/
def Surroundings.run (s : Surroundings) : Except DeliveryError Unit × Log :=
  match s.settings with
  | .error e => (.error e, {})
  | .ok settings =>
    match s.report settings with
    | .error e => (.error e, {})
    | .ok report =>
      match s.validProvider settings.auth {} with
      | (.error e, log) => (.error e, log)
      | (.ok (provider, request), log) =>
        s.deliver settings.governor report provider request log

end Courier.Delivery
