import Courier.Store.Basic
import Courier.Time.Clock
import Courier.Token.Local
import Courier.Token.Shared

/-! # The stage of a rehearsal

    A rehearsal plays calls of providers against a scripted issuer and a
    record store, with a clock that moves when told to.  Hooks act just
    before the store is asked: they move the clock, write as a competitor
    would, or make the store fail. -/

namespace Courier.Rehearsal

/-- A scripted answer of the issuer: how many milliseconds it takes, and how the clock moves
    meanwhile. -/
structure Answer where
  answer : Except IssuerError Grant
  takes : Nat := 0
  advance : Option Span := none

/-- What happens just before the store is asked. -/
structure Hook where
  advance : Option Span := none
  edit : Option (List (String × Option String)) := none
  failure : Option StoreError := none

/-- Everything that the calls of a rehearsal share. -/
structure Stage where
  clock : Clock
  millis : Nat := 0
  script : List Answer := []
  /-- The API tokens that the issuer was given, in order. -/
  seen : List String := []
  store : Store := .memory {}
  location : Location := ⟨"cnsi-system", "governor-access-token"⟩
  readHooks : List (Option Hook) := []
  writeHooks : List (Option Hook) := []
  /-- The hook of every write behind the listed ones. -/
  laterWrites : Option Hook := none
  provider : LocalProvider

namespace Stage

/-- Moves the clock on. -/
def advance (s : Stage) (span : Option Span) : Stage :=
  match span with
  | some span => { s with clock := s.clock.advance span }
  | none => s

/-- Acts out a hook; the failure that it ends in, if any. -/
def act (s : Stage) (hook : Option Hook) : Option StoreError × Stage :=
  match hook with
  | none => (none, s)
  | some hook =>
    let s := s.advance hook.advance
    let s := match hook.edit with
      | some edits => { s with store := (s.store.edit s.location edits).2 }
      | none => s
    (hook.failure, s)

/-- Reads the record behind the next hook for reads. -/
def read (s : Stage) : Except StoreError Record × Stage :=
  match { s with readHooks := s.readHooks.drop 1 }.act (s.readHooks.head?.join) with
  | (some failure, s) => (.error failure, s)
  | (none, s) =>
    let (answer, store) := s.store.getOrCreate s.location
    (answer, { s with store })

/-- Writes a record behind the next hook for writes. -/
def write (s : Stage) (record : Record) : Except StoreError Record × Stage :=
  let hook := match s.writeHooks with
    | hook :: _ => hook
    | [] => s.laterWrites
  match { s with writeHooks := s.writeHooks.drop 1 }.act hook with
  | (some failure, s) => (.error failure, s)
  | (none, s) =>
    let (answer, store) := s.store.update record
    (answer, { s with store })

/-- Sends a request: the next scripted answer, or an answer without a token. -/
def ask (s : Stage) (apiToken : String) : Answer × Stage :=
  let s := { s with seen := s.seen ++ [apiToken] }
  match s.script with
  | next :: rest => (next, { s with script := rest })
  | [] => (⟨.error .noToken, 0, none⟩, s)

end Stage

end Courier.Rehearsal
