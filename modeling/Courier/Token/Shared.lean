import Courier.Token.Refreshing

/-! # The provider of many replicas — a credential in a shared record

    A call reads the record and answers from it if the credential there is
    usable.  Otherwise it refreshes, and then publishes: it reads the record
    again, adopts a usable credential that another writer stored, and else
    writes its own under the version it read.  A conflict starts another
    round, of which there are three. -/

namespace Courier

/-- A call of a shared provider, from the moment it holds its replica's lock. -/
inductive SharedCall where
  /-- About to read the record. -/
  | looking
  | refreshing (state : Refreshing)
  /-- About to read the record again, in the given round. -/
  | rereading (round : Nat) (fresh : Credential)
  /-- About to write the record as edited, in the given round. -/
  | writing (round : Nat) (fresh : Credential) (edited : Record)
  | done (result : Except TokenError String)

/-- What happens to a call of a shared provider. -/
inductive SharedEvent where
  /-- The store answered a read, and the clock read as given behind it. -/
  | read (answer : Except StoreError Record) (now : Instant)
  | refresh (event : RefreshEvent)
  /-- The store answered a write. -/
  | written (answer : Except StoreError Record)

namespace SharedCall

/-- The number of rounds of reading and writing before a call gives up. -/
def maxRounds : Nat := 3

/-- The call once a refresh stands there. -/
def ofRefreshing : Refreshing → SharedCall
  | .ended (.ok fresh) => rereading 1 fresh
  | .ended (.error cause) => done (.error (.refresh cause))
  | state => refreshing state

/-- The call after a conflict in a round. -/
def afterConflict (round : Nat) (fresh : Credential) : SharedCall :=
  if round < maxRounds then rereading (round + 1) fresh
  else done (.error (.conflictsExhausted (.ofNat maxRounds)))

/-- The call after an event; events that do not apply change nothing. -/
def step (settings : RefreshSettings) : SharedCall → SharedEvent → SharedCall
  | looking, .read answer now =>
    match answer with
    | .error cause => done (.error (.store cause))
    | .ok record =>
      match Credential.usableIn? record now with
      | some credential => done (.ok credential.token)
      | none => refreshing (.start settings)
  | refreshing state, .refresh event => ofRefreshing (state.step settings.maxAge event)
  | rereading round fresh, .read answer now =>
    match answer with
    | .error cause => done (.error (.store cause))
    | .ok record =>
      match Credential.usableIn? record now with
      | some existing => done (.ok existing.token)
      | none => writing round fresh (fresh.writeTo record)
  | writing round fresh _, .written answer =>
    match answer with
    | .ok _ => done (.ok fresh.token)
    | .error (.conflict ..) => afterConflict round fresh
    | .error cause => done (.error (.store cause))
  | call, _ => call

end SharedCall

end Courier
