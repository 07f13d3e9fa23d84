import Courier.Settings.Basic
import Courier.Store.Address
import Courier.Store.Sqlite
import Courier.Token.Issuer
import Courier.Token.Weight

/-! # Surroundings — everything around one run of the program

    What the files hold, what the clock reads, what the other sides answer,
    and what other programs do to the database.  The log of a run says how
    often they have been asked. -/

namespace Courier.Delivery

/-- How everything around a run behaves.  What has a default is quiet by itself: nothing fails, and
    nobody else is there. -/
structure Surroundings where
  /-- The bytes of the file that a path leads to. -/
  file : String → FileBytes
  /-- Whether a path leads to a file, or why that is not known; the file is not opened for it. -/
  isFile : String → Except FileFault Bool := fun path => (file path).isFile
  /-- How many directories are above the one where the program runs. -/
  depth : Nat := 0
  /-- The variables of the environment. -/
  environment : List (String × String)
  /-- What the program is called with. -/
  arguments : List String
  /-- What building the client for the issuer comes to. -/
  issuerClient : AuthSettings → Except String Unit := fun _ => .ok ()
  /-- What building the client for the telemetry endpoint comes to. -/
  telemetryClient : GovernorSettings → Except String Unit := fun _ => .ok ()
  /-- The database at an address, opened or created. -/
  database : DatabaseAddress → Except StoreError Database
  /-- What other programs make of the database before the operation of the given number. -/
  meanwhile : Nat → Database → Database := fun _ database => database
  /-- Why the operation of the given number on the database fails, if it does. -/
  storeFault? : Nat → Option StoreError := fun _ => none
  /-- What the clock reads the given time. -/
  clock : Nat → Instant
  /-- Whether the program is told to end while it waits behind the given number of readings. -/
  stops : Nat → Bool := fun _ => false
  /-- What a request of the given number to the issuer comes to. -/
  issuer : Nat → Request → Exchange
  /-- What a request to the telemetry endpoint comes to. -/
  telemetry : Request → Exchange

/-- The reason why a request with a header that is no header text is not sent. -/
def notSendable : String := "builder error: failed to parse header value"

/-- What a telemetry request comes to: only a sendable one is sent. -/
def Surroundings.send (s : Surroundings) (request : Request) : Exchange :=
  if request.isSendable then s.telemetry request else .error notSendable

/-- What a run has asked for so far. -/
structure Log where
  /-- How often the clock was read. -/
  readings : Nat := 0
  /-- The requests for tokens, in order. -/
  tokenRequests : List Request := []
  /-- The reports that were posted, in order. -/
  posts : List Request := []
  /-- The address of the database, once it was opened. -/
  opened : Option DatabaseAddress := none
  /-- The database as this program knows it. -/
  database : Database := {}
  /-- How many operations on the database there were. -/
  operations : Nat := 0

/-- The log after one more reading of the clock. -/
def Log.afterReading (log : Log) : Log := { log with readings := log.readings + 1 }

/-- An operation on the database, and the log after it.  Others may have changed the database
    before, and an operation that fails changes nothing. -/
def Surroundings.operate (s : Surroundings) (log : Log)
    (operation : Database → Except StoreError Record × Database) :
    Except StoreError Record × Log :=
  let database := s.meanwhile log.operations log.database
  let done : Except StoreError Record × Database := match s.storeFault? log.operations with
    | some cause => (.error cause, database)
    | none => operation database
  (done.1, { log with database := done.2, operations := log.operations + 1 })

/-- The shared record, read from the database. -/
def Surroundings.read (s : Surroundings) (location : Location) (log : Log) :
    Except StoreError Record × Log :=
  s.operate log fun database => database.getOrCreate location

/-- An edited record, written to the database. -/
def Surroundings.write (s : Surroundings) (edited : Record) (log : Log) :
    Except StoreError Record × Log :=
  s.operate log fun database => database.update edited

/-- What happens next to a refresh, and the log after it. -/
def Surroundings.serve (s : Surroundings) (request : Request) (log : Log) :
    Refreshing → RefreshEvent × Log
  | .due .. => (.sent (s.clock log.readings), log.afterReading)
  | .awaiting .. =>
    (.answered (Grant.ofExchange (s.issuer log.tokenRequests.length request)),
      { log with tokenRequests := log.tokenRequests ++ [request] })
  | .pausing .. => (if s.stops log.readings then .cancelled else .woken, log)
  | .ended _ => (.woken, log)

/-- The event that happens next is one that the refresh waits for. -/
theorem Surroundings.serve_expected (s : Surroundings) (request : Request) (log : Log)
    (state : Refreshing) : state.expects (s.serve request log state).1 := by
  cases state with
  | pausing engine backoff wait =>
    rw [serve]
    cases s.stops log.readings <;> exact trivial
  | due engine backoff => exact trivial
  | awaiting engine backoff requestedAt => exact trivial
  | ended result => exact trivial

end Courier.Delivery
