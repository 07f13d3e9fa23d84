import Courier.Delivery.Run
import Courier.Proofs.Local.Outcome
import Courier.Proofs.Settings.Override

/-! # Runs — what must be good before anything is sent

    A run asks the issuer for tokens while its provider is proved and once
    more before it posts, and it posts at most once, at its end.  The calls
    of a provider only ever add the request for a token to the log, by
    induction on the events that they wait for; everything else is the
    order in which the stages of a run come, each with its own way to
    fail.

    The theorem about runs (`run_is_safe`) says both what a run never does
    and what it does: only what is due is posted, and what is due is. -/

namespace Courier.Delivery

/-! ## Requests for tokens -/

/-- From one log to the next nothing was posted, and every request for a token was allowed. -/
structure Asks (allowed : Request → Prop) (log log' : Log) : Prop where
  posts : log'.posts = log.posts
  asked : ∀ r ∈ log'.tokenRequests, r ∈ log.tokenRequests ∨ allowed r

section Asks

variable {allowed : Request → Prop} {log log' log'' : Log}

/-- Nothing was asked for where neither list of requests has grown. -/
theorem asks_of_same (posts : log'.posts = log.posts)
    (asked : log'.tokenRequests = log.tokenRequests) : Asks allowed log log' where
  posts := posts
  asked _ mem := Or.inl (asked ▸ mem)

/-- What holds from one log to the next, and from that to a third, holds from the first to the
    third. -/
theorem Asks.trans (h : Asks allowed log log') (h' : Asks allowed log' log'') :
    Asks allowed log log'' where
  posts := h'.posts.trans h.posts
  asked r mem := by
    rcases h'.asked r mem with before | may
    · exact h.asked r before
    · exact Or.inr may

/-- More requests may be allowed than were made. -/
theorem Asks.mono {wider : Request → Prop} (h : Asks allowed log log')
    (le : ∀ r, allowed r → wider r) : Asks wider log log' where
  posts := h.posts
  asked r mem := (h.asked r mem).imp_right (le r)

end Asks

section Calls

variable (s : Surroundings) (request : Request)

/-- One event of a refresh is at most one request. -/
theorem serve_asks (log : Log) (state : Refreshing) :
    Asks (· = request) log (s.serve request log state).2 := by
  cases state with
  | awaiting =>
      refine ⟨rfl, ?_⟩
      intro r mem
      rcases List.mem_append.mp mem with before | new
      · exact Or.inl before
      · exact Or.inr (List.mem_singleton.mp new)
  | _ => exact asks_of_same rfl rfl

/-- A call of a provider with a cache of its own only asks for tokens, with its own request. -/
theorem finishLocal_asks (p : LocalProvider) (call : LocalCall) (log : Log) :
    Asks (· = request) log (s.finishLocal request p call log).2.2 := by
  induction p, call, log using Surroundings.finishLocal.induct s request with
  | case1 p log result =>
      rw [Surroundings.finishLocal]
      exact asks_of_same rfl rfl
  | case2 p log state served stepped ih =>
      rw [Surroundings.finishLocal]
      exact (serve_asks s request log state).trans ih

/-- So does a call of a provider with a shared record. -/
theorem finishShared_asks (settings : RefreshSettings) (location : Location) (call : SharedCall)
    (log : Log) :
    Asks (· = request) log (s.finishShared settings location request call log).2 := by
  -- the database answers without a request; only a refresh makes one
  induction call, log using Surroundings.finishShared.induct s settings location request with
  | case1 log result =>
      rw [Surroundings.finishShared]
      exact asks_of_same rfl rfl
  | case2 log answered ih =>
      have read : Asks (· = request) log answered.2.afterReading := asks_of_same rfl rfl
      rw [Surroundings.finishShared]
      exact read.trans ih
  | case3 log round fresh answered ih =>
      have read : Asks (· = request) log answered.2.afterReading := asks_of_same rfl rfl
      rw [Surroundings.finishShared]
      exact read.trans ih
  | case4 log round fresh edited answered ih =>
      have written : Asks (· = request) log answered.2 := asks_of_same rfl rfl
      rw [Surroundings.finishShared]
      exact written.trans ih
  | case5 log state served ih =>
      rw [Surroundings.finishShared]
      exact (serve_asks s request log state).trans ih

/-- A call of a provider posts nothing, and asks for tokens with its own request only. -/
theorem bearerToken_asks (p : Provider) (log : Log) :
    Asks (· = request) log (p.bearerToken s request log).2.2 := by
  cases p with
  | alone provider =>
      have read : Asks (· = request) log log.afterReading := asks_of_same rfl rfl
      exact read.trans (finishLocal_asks s request provider _ log.afterReading)
  | shared settings location => exact finishShared_asks s request settings location .looking log

/-- So does the call that proves a provider. -/
theorem prove_asks (p : Provider) (log : Log) :
    Asks (· = request) log (p.prove s request log).2.2 := by
  cases p with
  | alone provider => exact finishLocal_asks s request provider _ log
  | shared settings location => exact finishShared_asks s request settings location .looking log

end Calls

/-! ## Stages -/

/-- The API token is what the mounted secret holds, which is not blank. -/
structure HasApiToken (s : Surroundings) (auth : AuthSettings) (apiToken : String) : Prop where
  read : s.apiToken auth = .ok apiToken
  mounted : ∃ value, (secretRef auth).textIn s.file auth.secretRoot = .ok value ∧
    Text.isAllBlank value = false ∧ apiToken = Text.trim value

/-- An API token that was read is what trimming leaves of a mounted secret with something in it. -/
theorem hasApiToken_of_ok {s : Surroundings} {auth : AuthSettings} {apiToken : String}
    (read : s.apiToken auth = .ok apiToken) : HasApiToken s auth apiToken := by
  refine ⟨read, ?_⟩
  rw [Surroundings.apiToken] at read
  cases found : (secretRef auth).textIn s.file auth.secretRoot with
  | error fault =>
      rw [found] at read
      exact nomatch read
  | ok value =>
      rw [found, apiTokenOf] at read
      split at read
      · exact nomatch read
      · next notBlank =>
          refine ⟨value, rfl, Bool.eq_false_iff.mpr fun blank => notBlank ?_,
            (Except.ok.inj read).symm⟩
          have all := (Text.trimChars_eq_nil_iff value.toList).mpr (List.all_eq_true.mp blank)
          rw [Text.trim, all]

/-- A request for a token under the settings, with the API token. -/
def MayAsk (s : Surroundings) (auth : AuthSettings) (r : Request) : Prop :=
  ∃ apiToken, HasApiToken s auth apiToken ∧ r = grantRequest auth.tokenUrl apiToken

/-- A provider is built without a request, however that ends. -/
theorem newProvider_asks (s : Surroundings) (auth : AuthSettings) (log : Log) :
    Asks (MayAsk s auth) log (s.newProvider auth log).2 := by
  rw [Surroundings.newProvider]
  cases s.issuerClient auth with
  | error reason => exact asks_of_same rfl rfl
  | ok _ =>
      dsimp only
      split
      · split
        · exact asks_of_same rfl rfl
        · split
          · exact asks_of_same rfl rfl
          · exact asks_of_same rfl rfl
      · exact asks_of_same rfl rfl

/-- What proving a provider comes to. -/
inductive Proved (s : Surroundings) (auth : AuthSettings) (log : Log) :
    Except DeliveryError (Provider × Request) × Log → Prop where
  | failed {e : DeliveryError} {log' : Log} (asks : Asks (MayAsk s auth) log log') :
      Proved s auth log (.error e, log')
  | valid {provider : Provider} {apiToken : String} {log' : Log}
      (asks : Asks (MayAsk s auth) log log') (token : HasApiToken s auth apiToken) :
      Proved s auth log (.ok (provider, grantRequest auth.tokenUrl apiToken), log')

/-- Proving a provider fails, or gives one that sends the API token in the mounted secret. -/
theorem validProvider_proved (s : Surroundings) (auth : AuthSettings) (log : Log) :
    Proved s auth log (s.validProvider auth log) := by
  have opened := newProvider_asks s auth log
  rw [Surroundings.validProvider]
  cases built : s.newProvider auth log with
  | mk outcome log₁ =>
      rw [built] at opened
      cases outcome with
      | error e => exact .failed opened
      | ok provider =>
          dsimp only
          cases read : s.apiToken auth with
          | error cause => exact .failed opened
          | ok apiToken =>
              have token := hasApiToken_of_ok read
              have asked := prove_asks s (grantRequest auth.tokenUrl apiToken) provider log₁
              have asks := opened.trans (asked.mono fun r same => ⟨apiToken, token, same⟩)
              dsimp only
              cases called : provider.prove s (grantRequest auth.tokenUrl apiToken) log₁ with
              | mk result rest =>
                  rw [called] at asks
                  cases result with
                  | error cause => exact .failed asks
                  | ok first => exact .valid asks token

/-- Nothing is posted while a provider is proved. -/
theorem Proved.posts {s : Surroundings} {auth : AuthSettings} {log : Log}
    {ended : Except DeliveryError (Provider × Request) × Log} (h : Proved s auth log ended) :
    ended.2.posts = log.posts := by
  cases h with
  | failed asks => exact asks.posts
  | valid asks => exact asks.posts

/-- What delivering a report comes to: it fails and nothing is posted, or a post that can be sent is
    made with a token that is not empty, and its answer decides. -/
inductive Delivered (s : Surroundings) (governor : GovernorSettings) (report : Report)
    (provider : Provider) (request : Request) (log : Log) :
    Except DeliveryError Unit × Log → Prop where
  | failed {e : DeliveryError} {log' : Log} (asks : Asks (· = request) log log') :
      Delivered s governor report provider request log (.error e, log')
  | posted {url : Url} {token : String} {log' : Log} {post : Request}
      (asks : Asks (· = request) log log')
      (target : s.target governor = .ok url)
      (asked : (provider.bearerToken s request log).1 = .ok token) (some : token ≠ "")
      (form : post = Export.request url governor.multiplexing (.ofReport report) token)
      (sendable : post.isSendable = true) :
      Delivered s governor report provider request log
        ((Export.judge ((s.telemetry post).map fun answer => .ofStatus answer.status answer.headers)
          |>.mapError .exporting), { log' with posts := log'.posts ++ [post] })

/-- Delivering a report comes to one of these. -/
theorem deliver_delivered (s : Surroundings) (governor : GovernorSettings) (report : Report)
    (provider : Provider) (request : Request) (log : Log) :
    Delivered s governor report provider request log
      (s.deliver governor report provider request log) := by
  have asks := bearerToken_asks s request provider log
  -- where nothing is sent the log gains no post
  have nothing : Asks (· = request) log
      { (provider.bearerToken s request log).2.2 with
        posts := (provider.bearerToken s request log).2.2.posts ++ [] } :=
    ⟨by rw [List.append_nil, asks.posts], asks.asked⟩
  rw [Surroundings.deliver]
  cases target : s.target governor with
  | error cause => exact .failed (asks_of_same rfl rfl)
  | ok url =>
      dsimp only
      cases asked : (provider.bearerToken s request log).1 with
      | error cause => exact .failed nothing
      | ok token =>
          rw [Export.run, Export.tokenOf]
          by_cases empty : token.isEmpty = true
          · rw [if_pos empty]
            exact .failed nothing
          · have some : token ≠ "" := by
              rintro rfl
              exact empty rfl
            rw [if_neg empty]
            dsimp only
            by_cases sendable : (Export.request url governor.multiplexing (.ofReport report)
                token).isSendable = true
            · rw [List.map_cons, List.map_nil, List.filter_cons_of_pos sendable, List.filter_nil,
                Surroundings.send, if_pos sendable]
              exact .posted asks target asked some rfl sendable
            · rw [List.map_cons, List.map_nil, List.filter_cons_of_neg sendable, List.filter_nil,
                Surroundings.send, if_neg sendable]
              exact .failed nothing

/-- Settings and a report that a run has found good. -/
structure Good (s : Surroundings) (settings : Settings) (report : Report) : Prop where
  loaded : s.settings = .ok settings
  valid : settings.flaw? = none
  report : s.report settings = .ok report

/-- Settings are loaded only if they are valid. -/
theorem flaw?_of_load {file : Option String} {environment : List (String × String)}
    {settings : Settings} (loaded : Settings.load file environment = .ok settings) :
    settings.flaw? = none := by
  rw [Settings.load] at loaded
  split at loaded
  · cases loaded
  · split at loaded
    · cases loaded
    · next found _ =>
        rw [Settings.validate] at loaded
        split at loaded
        · cases loaded
        · next none =>
            rw [← Except.ok.inj loaded]
            exact none

/-- So are those of a run. -/
theorem flaw?_of_loaded {s : Surroundings} {settings : Settings}
    (loaded : s.settings = .ok settings) : settings.flaw? = none := by
  rw [Surroundings.settings] at loaded
  split at loaded
  · cases loaded
  · split at loaded
    · cases loaded
    · next environment _ _ text _ =>
        cases read : Settings.load text environment with
        | error cause =>
            rw [read] at loaded
            cases loaded
        | ok found =>
            rw [read] at loaded
            rw [← Except.ok.inj loaded]
            exact flaw?_of_load read

/-! ## Runs -/

/-- What a post of a run rests on: good settings and a good report, an API token that was read, a
    provider that was proved, a client for the telemetry endpoint, and a token that is not empty and
    can be sent.  Its body is the payload of the report. -/
structure Due (s : Surroundings) (post : Request) (settings : Settings) (report : Report)
    (apiToken : String) (provider : Provider) (log : Log) (token : String) (url : Url) :
    Prop where
  good : Good s settings report
  mounted : HasApiToken s settings.auth apiToken
  proved : s.validProvider settings.auth {}
    = (.ok (provider, grantRequest settings.auth.tokenUrl apiToken), log)
  target : s.target settings.governor = .ok url
  obtained : (provider.bearerToken s (grantRequest settings.auth.tokenUrl apiToken) log).1
    = .ok token
  some : token ≠ ""
  form : post = Export.request url settings.governor.multiplexing (.ofReport report) token
  body : post.body = (Payload.ofReport report).body
  sendable : post.isSendable = true

/-- Whether a post is due in a run. -/
def IsDue (s : Surroundings) (post : Request) : Prop :=
  ∃ settings report apiToken provider log token url,
    Due s post settings report apiToken provider log token url

/-- The answer 204 is what a post must come to. -/
theorem judge_eq_ok_iff (exchange : Exchange) :
    ((Export.judge (exchange.map fun answer => .ofStatus answer.status answer.headers)).mapError
        DeliveryError.exporting) = .ok () ↔
      ∃ answer, exchange = .ok answer ∧ answer.status.code = 204 := by
  cases exchange with
  | error reason =>
      constructor
      · intro done
        exact nomatch done
      · rintro ⟨answer, same, -⟩
        exact nomatch same
  | ok answer =>
      show ((if answer.status.code = Export.successStatus then _ else _ : Except _ _).mapError _)
        = _ ↔ _
      by_cases success : answer.status.code = Export.successStatus
      · rw [if_pos success]
        exact ⟨fun _ => ⟨answer, rfl, success⟩, fun _ => rfl⟩
      · rw [if_neg success]
        constructor
        · intro done
          exact nomatch done
        · rintro ⟨answer', same, code⟩
          rw [← Except.ok.inj same] at code
          exact absurd code success

/-- What is safe about a run that ends in this way. -/
structure Safe (s : Surroundings) (ended : Except DeliveryError Unit × Log) : Prop where
  /-- At most one report is posted. -/
  once : ended.2.posts.length ≤ 1
  /-- Only what is due is posted. -/
  due : ∀ post ∈ ended.2.posts, IsDue s post
  /-- Tokens are asked for with good settings, a good report and the API token. -/
  asked : ∀ r ∈ ended.2.tokenRequests, ∃ settings report,
    Good s settings report ∧ MayAsk s settings.auth r
  /-- Success is a post that was answered 204. -/
  success : ended.1 = .ok () ↔ ∃ post answer,
    ended.2.posts = [post] ∧ s.telemetry post = .ok answer ∧ answer.status.code = 204

/-- A run that fails before its post is safe if its requests for tokens are. -/
theorem safe_of_unposted {s : Surroundings} {e : DeliveryError} {log : Log}
    (none : log.posts = []) (asked : ∀ r ∈ log.tokenRequests, ∃ settings report,
      Good s settings report ∧ MayAsk s settings.auth r) : Safe s (.error e, log) where
  once := by
    dsimp only
    rw [none]
    exact Nat.zero_le _
  due post mem := by
    dsimp only at mem
    rw [none] at mem
    exact nomatch mem
  asked := asked
  success := by
    constructor
    · intro done
      exact nomatch done
    · rintro ⟨post, answer, listed, -⟩
      dsimp only at listed
      rw [none] at listed
      exact nomatch listed

/-- Behind good settings and a good report, every request for a token is one that may be made. -/
theorem Asks.good {s : Surroundings} {settings : Settings} {report : Report} {log : Log}
    (asks : Asks (MayAsk s settings.auth) {} log) (good : Good s settings report) :
    ∀ r ∈ log.tokenRequests, ∃ settings report,
      Good s settings report ∧ MayAsk s settings.auth r := by
  intro r mem
  rcases asks.asked r mem with before | allowed
  · exact nomatch before
  · exact ⟨settings, report, good, allowed⟩

/-- With a provider that was proved, delivering the report is safe. -/
theorem safe_of_delivered {s : Surroundings} {settings : Settings} {report : Report}
    {provider : Provider} {apiToken : String} {log : Log} (good : Good s settings report)
    (asks : Asks (MayAsk s settings.auth) {} log)
    (token : HasApiToken s settings.auth apiToken)
    (proved : s.validProvider settings.auth {}
      = (.ok (provider, grantRequest settings.auth.tokenUrl apiToken), log))
    {ended : Except DeliveryError Unit × Log}
    (h : Delivered s settings.governor report provider
      (grantRequest settings.auth.tokenUrl apiToken) log ended) : Safe s ended := by
  cases h with
  | failed more =>
      have all := asks.trans (more.mono fun r same => ⟨apiToken, token, same⟩)
      exact safe_of_unposted all.posts (all.good good)
  | @posted url bearer log' post more target obtained some form sendable =>
      have all := asks.trans (more.mono fun r same => ⟨apiToken, token, same⟩)
      -- nothing was posted before, so this is the only post
      have only : log'.posts ++ [post] = [post] := by
        rw [all.posts]
        rfl
      constructor
      · dsimp only
        rw [only]
        exact Nat.le_refl _
      · intro post' mem
        dsimp only at mem
        rw [only] at mem
        rw [List.mem_singleton.mp mem]
        have body : post.body = (Payload.ofReport report).body := by
          rw [form]
          rfl
        exact ⟨settings, report, apiToken, provider, log, bearer, url, good, token, proved, target,
          obtained, some, form, body, sendable⟩
      · intro r mem
        exact all.good good r mem
      · dsimp only
        rw [judge_eq_ok_iff, only]
        constructor
        · rintro ⟨answer, answered, code⟩
          exact ⟨post, answer, rfl, answered, code⟩
        · rintro ⟨post', answer, listed, answered, code⟩
          rw [← (List.cons.inj listed).1] at answered
          exact ⟨answer, answered, code⟩

/-- A run is safe, whatever surrounds it. -/
theorem safe_run (s : Surroundings) : Safe s s.run := by
  have nothing : ∀ r ∈ ({} : Log).tokenRequests, ∃ settings report,
      Good s settings report ∧ MayAsk s settings.auth r := by
    intro r mem
    exact nomatch mem
  rw [Surroundings.run]
  cases loaded : s.settings with
  | error e => exact safe_of_unposted rfl nothing
  | ok settings =>
      dsimp only
      cases read : s.report settings with
      | error e => exact safe_of_unposted rfl nothing
      | ok report =>
          have good : Good s settings report := ⟨loaded, flaw?_of_loaded loaded, read⟩
          have stage := validProvider_proved s settings.auth {}
          dsimp only
          cases proved : s.validProvider settings.auth {} with
          | mk outcome log =>
              rw [proved] at stage
              cases stage with
              | failed asks => exact safe_of_unposted asks.posts (asks.good good)
              | valid asks token =>
                  exact safe_of_delivered good asks token proved (deliver_delivered ..)

/-- What is due is posted, and it is all that is. -/
theorem posts_of_due {s : Surroundings} {post : Request} (h : IsDue s post) :
    s.run.2.posts = [post] := by
  obtain ⟨settings, report, apiToken, provider, log, token, url, due⟩ := h
  have before := (validProvider_proved s settings.auth {}).posts
  rw [due.proved] at before
  dsimp only at before
  have asks := bearerToken_asks s (grantRequest settings.auth.tokenUrl apiToken) provider log
  have some : token.isEmpty = false := by
    refine Bool.eq_false_iff.mpr fun empty => due.some ?_
    exact String.isEmpty_iff.mp empty
  -- the stages of the run, one after the other, as what is due says that they went
  rw [Surroundings.run, due.good.loaded]
  dsimp only
  rw [due.good.report]
  dsimp only
  rw [due.proved]
  dsimp only
  rw [Surroundings.deliver, due.target]
  dsimp only
  rw [due.obtained, Export.run, Export.tokenOf, some, if_neg Bool.false_ne_true]
  dsimp only
  rw [List.map_cons, List.map_nil, ← due.form, List.filter_cons_of_pos due.sendable,
    List.filter_nil, asks.posts, before]
  rfl

/-! ## A run that posts -/

/-- A refresh whose first request is granted ends with that grant. -/
theorem finishLocal_of_granted {s : Surroundings} {request : Request} {log : Log} {grant : Grant}
    (p : LocalProvider)
    (granted : Grant.ofExchange (s.issuer log.tokenRequests.length request) = .ok grant) :
    s.finishLocal request p (.refreshing (.start p.settings)) log =
      (.ok grant.token,
        { p with
          cached := some (.issued grant.token grant.lifetime p.settings.maxAge
            (s.clock log.readings)) },
        { log.afterReading with tokenRequests := log.tokenRequests ++ [request] }) := by
  -- the request is sent, it is answered, and the refresh is done
  rw [Surroundings.finishLocal]
  show s.finishLocal request p (.refreshing (.awaiting _ _ (s.clock log.readings)))
    log.afterReading = _
  rw [Surroundings.finishLocal]
  dsimp only [Surroundings.serve, LocalProvider.step, Log.afterReading, Refreshing.step]
  rw [granted]
  dsimp only [refreshAttempt]
  show s.finishLocal request { p with cached := _ } (.done _) _ = _
  rw [Surroundings.finishLocal]
  rfl

/-- A result that is one when its failures are forgotten is a result. -/
theorem eq_ok_of_toOption {ε α : Type} {r : Except ε α} {a : α} (h : r.toOption = some a) :
    r = .ok a := by
  cases r with
  | error e => exact nomatch h
  | ok b => exact congrArg Except.ok (Option.some.inj h)

/-- An exchange that is answered with the status of a code, if there is one, and a body. -/
def answered (code : Nat) (body : String) : Exchange :=
  match Status.ofCode? code with
  | some status => .ok ⟨status, [], Utf8.ofString body⟩
  | none => .error "invalid status code"

/-- Surroundings in which a run posts: two variables name the cluster and the secret, there is no
    file with settings, and both other sides answer well. -/
def prompt : Surroundings where
  file path :=
    if path = "report.json" then
      .ok (Utf8.ofString ("\x7b\"spec\":\x7b\"namespaceAssessments\":["
        ++ "\x7b\"namespace\":\x7b\"name\":\"n\"\x7d,\"workloadAssessments\":["
        ++ "\x7b\"workload\":\x7b\"name\":\"web\",\"replicas\":2\x7d\x7d]\x7d]\x7d\x7d"))
    else if path = "/etc/governor/secrets/cnsi-system/governor/accessSecret" then
      .ok (Utf8.ofString "api-token\n")
    else .error .missing
  environment :=
    [("GOVERNOR_GOVERNOR__CLUSTER_ID", "c-1"), ("GOVERNOR_AUTH__SECRET_NAME", "governor")]
  arguments := []
  database _ := .ok {}
  clock _ := .epoch
  issuer _ _ := answered 200 "\x7b\"access_token\":\"tok-1\",\"expires_in\":60\x7d"
  telemetry _ := answered 204 ""

namespace Prompt

/-- The settings of that run. -/
def settings : Settings :=
  { auth := { secretName := "governor" }, governor := { clusterId := "c-1" } }

/-- The report of that run. -/
def report : Report := ⟨[{ name := "n", workloads := [{ name := "web", replicas := 2 }] }]⟩

/-- The request for a token of that run. -/
def asking : Request := grantRequest settings.auth.tokenUrl "api-token"

/-- The provider that is proved in that run. -/
def provider : LocalProvider :=
  ⟨settings.auth.refresh,
    some (.issued "tok-1" (.ofSeconds 60) settings.auth.refresh.maxAge .epoch)⟩

/-- The log behind that. -/
def log : Log := { readings := 1, tokenRequests := [asking] }

open Variable in
/-- The two variables of that run set the cluster and the secret in any settings below them. -/
theorem overlaid (s : Settings) :
    (s.toTree.merge (.table [])).merge (layer prompt.environment) =
      ({ s with
        auth := { s.auth with secretName := "governor" },
        governor := { s.governor with clusterId := "c-1" } } : Settings).toTree := by
  have cluster : tree? ("GOVERNOR_GOVERNOR__CLUSTER_ID", "c-1")
      = some (.nested (.text "c-1") ["governor", "cluster_id"]) := rfl
  have secret : tree? ("GOVERNOR_AUTH__SECRET_NAME", "governor")
      = some (.nested (.text "governor") ["auth", "secret_name"]) := rfl
  have first : layer [("GOVERNOR_GOVERNOR__CLUSTER_ID", "c-1")] = (layer []).merge _ :=
    @layer_concat [] _ _ cluster
  have second : layer prompt.environment =
      (layer [("GOVERNOR_GOVERNOR__CLUSTER_ID", "c-1")]).merge _ :=
    @layer_concat [("GOVERNOR_GOVERNOR__CLUSTER_ID", "c-1")] _ _ secret
  rw [second, first]
  cbv

/-- The settings of that run are loaded from its two variables. -/
theorem loaded : prompt.settings = .ok settings := by
  -- `overlaid` is about any settings, so that the texts of the default URLs are not computed here
  have layers : Settings.layers (.table []) prompt.environment = settings.toTree := overlaid {}
  have noProxy : ∀ url ∈ (none : Option Url), url.IsReadable :=
    fun url mem => absurd mem (Option.not_mem_none url)
  have readable : settings.HasReadableUrls :=
    ⟨Settings.hasReadableUrls_default.tokenUrl, noProxy, Settings.hasReadableUrls_default.apiUrl,
      noProxy⟩
  have read : Settings.shape.read {} (Settings.layers (.table []) prompt.environment)
      = .ok settings := layers ▸ Settings.read_toTree readable
  have valid : settings.validate = .ok settings := by rfl
  have found : Settings.load none prompt.environment = .ok settings :=
    (Settings.load_eq_ok_iff rfl).mpr ⟨read, valid⟩
  have all : prompt.allVariables = .ok prompt.environment := rfl
  have noFile : prompt.settingsText = .ok none := rfl
  rw [Surroundings.settings, all]
  dsimp only
  rw [noFile]
  dsimp only
  rw [found]
  rfl

/-- The provider of that run is proved by one request. -/
theorem proved : prompt.validProvider settings.auth {} =
    (.ok (.alone provider, asking), log) := by
  have built : prompt.newProvider settings.auth {}
      = (.ok (.alone ⟨settings.auth.refresh, none⟩), {}) := rfl
  have apiToken : prompt.apiToken settings.auth = .ok "api-token" :=
    eq_ok_of_toOption (by decide +kernel)
  have granted : Grant.ofExchange (prompt.issuer ({} : Log).tokenRequests.length asking)
      = .ok ⟨"tok-1", 60⟩ := eq_ok_of_toOption (by decide +kernel)
  have first : (Provider.alone ⟨settings.auth.refresh, none⟩).prove prompt asking {} =
      (.ok "tok-1", .alone provider, log) := by
    rw [Provider.prove]
    dsimp only
    rw [finishLocal_of_granted ⟨settings.auth.refresh, none⟩ granted]
    rfl
  rw [Surroundings.validProvider, built]
  dsimp only
  rw [apiToken]
  dsimp only
  rw [← asking, first]

/-- The credential that proved the provider is still usable when the report is delivered. -/
theorem obtained : ((Provider.alone provider).bearerToken prompt asking log).1
    = .ok "tok-1" := by
  have usable : (Credential.issued "tok-1" (.ofSeconds 60) settings.auth.refresh.maxAge
      .epoch).isUsableAt .epoch = true := by decide
  have entered : provider.enter (prompt.clock log.readings) = .done (.ok "tok-1") :=
    LocalProvider.enter_of_usable rfl usable
  rw [Provider.bearerToken]
  dsimp only
  rw [entered, Surroundings.finishLocal]

/-- What is posted in that run. -/
theorem isDue : ∃ post, IsDue prompt post ∧ post.body = (Payload.ofReport report).body := by
  have good : Good prompt settings report :=
    ⟨loaded, flaw?_of_loaded loaded, eq_ok_of_toOption (by decide +kernel)⟩
  have apiToken : prompt.apiToken settings.auth = .ok "api-token" :=
    eq_ok_of_toOption (by decide +kernel)
  exact ⟨_, ⟨settings, report, "api-token", .alone provider, log, "tok-1", _, good,
    hasApiToken_of_ok apiToken, proved, rfl, obtained, by decide, rfl, rfl, by decide +kernel⟩,
    rfl⟩

end Prompt

/-- **SAFETY OF A RUN**: whatever surrounds it, a run posts at most once, and only what is due; it
    asks for tokens only with good settings, a good report and the API token; and it succeeds
    exactly if its post was answered 204.  What is due is posted. -/
theorem run_is_safe (s : Surroundings) :
    Safe s s.run ∧ ∀ post, IsDue s post → s.run.2.posts = [post] :=
  ⟨safe_run s, fun _ => posts_of_due⟩

/-- A run with nothing in its way posts the payload of its report, and succeeds. -/
theorem run_is_safe_prompt : ∃ post, prompt.run.2.posts = [post] ∧
    post.body = "\x7b\"workloads\":[\x7b\"name\":\"web\",\"kind\":\"\",\"namespace\":\"n\","
      ++ "\"replicas\":2,\"containers\":[]\x7d]\x7d" ∧
    prompt.run.1 = .ok () := by
  obtain ⟨post, due, body⟩ := Prompt.isDue
  obtain ⟨safe, posted⟩ := run_is_safe prompt
  have posts := posted post due
  exact ⟨post, posts, body, safe.success.mpr ⟨post, _, posts, rfl, rfl⟩⟩

/-- A file with settings that must not be read ends a run at once; it does not count as missing. -/
example :
    let s : Surroundings := {
      file := fun _ => .error .forbidden
      isFile := fun path => .ok (path == Settings.fileName)
      environment := [("GOVERNOR_GOVERNOR__CLUSTER_ID", "c-1")]
      arguments := ["report.json"]
      database := fun _ => .ok {}
      clock := fun _ => .epoch
      issuer := fun _ _ => .error "refused"
      telemetry := fun _ => .error "refused" }
    (s.run.1.map fun _ => "", s.run.2.tokenRequests.length, s.run.2.posts.length) =
      (.error (.settings (.unreadable ⟨[], .badValue FileFault.forbidden.message⟩)), 0, 0) :=
  rfl

end Courier.Delivery
