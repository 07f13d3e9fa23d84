import Courier.Delivery.Surroundings

/-! # Calls served to their end

    Every event that a call waits for is taken from the surroundings until
    the call is done.  The weights show that this comes to an end whatever
    the surroundings do. -/

namespace Courier.Delivery

/-- The result of a call of a provider with a cache of its own, and what it leaves behind. -/
def Surroundings.finishLocal (s : Surroundings) (request : Request) (p : LocalProvider)
    (call : LocalCall) (log : Log) : Except TokenError String × LocalProvider × Log :=
  match call with
  | .done result => (result, p, log)
  | .refreshing state =>
    let served := s.serve request log state
    let stepped := p.step (.refreshing state) served.1
    s.finishLocal request stepped.1 stepped.2 served.2
termination_by call.weight
decreasing_by exact p.weight_step_lt (s.serve_expected request log state)

/-- The result of a call of a provider with a shared record, and the log after it. -/
def Surroundings.finishShared (s : Surroundings) (settings : RefreshSettings)
    (location : Location) (request : Request) (call : SharedCall) (log : Log) :
    Except TokenError String × Log :=
  match call with
  | .done result => (result, log)
  | .looking =>
    let answered := s.read location log
    s.finishShared settings location request
      (SharedCall.looking.step settings (.read answered.1 (s.clock log.readings)))
      answered.2.afterReading
  | .rereading round fresh =>
    let answered := s.read location log
    s.finishShared settings location request
      ((SharedCall.rereading round fresh).step settings
        (.read answered.1 (s.clock log.readings)))
      answered.2.afterReading
  | .writing round fresh edited =>
    let answered := s.write edited log
    s.finishShared settings location request
      ((SharedCall.writing round fresh edited).step settings (.written answered.1)) answered.2
  | .refreshing state =>
    let served := s.serve request log state
    s.finishShared settings location request
      ((SharedCall.refreshing state).step settings (.refresh served.1)) served.2
termination_by call.weight settings
decreasing_by
  · exact SharedCall.weight_looking_lt ..
  · exact SharedCall.weight_rereading_lt ..
  · exact SharedCall.weight_writing_lt ..
  · exact SharedCall.weight_refresh_lt settings (s.serve_expected request log state)

/-- A provider of tokens. -/
inductive Provider where
  /-- A provider with a cache of its own. -/
  | alone (provider : LocalProvider)
  /-- A provider with a shared record. -/
  | shared (settings : RefreshSettings) (location : Location)

/-- A token from a provider, the provider and the log after the call. -/
def Provider.bearerToken (s : Surroundings) (request : Request) (p : Provider) (log : Log) :
    Except TokenError String × Provider × Log :=
  match p with
  | .alone provider =>
    let ended := s.finishLocal request provider (provider.enter (s.clock log.readings))
      log.afterReading
    (ended.1, .alone ended.2.1, ended.2.2)
  | .shared settings location =>
    let ended := s.finishShared settings location request .looking log
    (ended.1, p, ended.2)

/-- The token that proves a new provider, the provider and the log after the call: one with a cache
    of its own refreshes without a look at the cache, and one with a shared record is called. -/
def Provider.prove (s : Surroundings) (request : Request) (p : Provider) (log : Log) :
    Except TokenError String × Provider × Log :=
  match p with
  | .alone provider =>
    let ended := s.finishLocal request provider (.refreshing (.start provider.settings)) log
    (ended.1, .alone ended.2.1, ended.2.2)
  | .shared settings location => (Provider.shared settings location).bearerToken s request log

end Courier.Delivery
