import Courier.Delivery.Run
import Std.Time.DateTime.Timestamp

/-! # The program

    Reads the files that a run asks for, and ends with the line of the
    first failure.  It has no transport: every request goes unanswered, and
    databases start out empty. -/

namespace Courier.Program

/-- The bytes of a file, or why they cannot be read. -/
def readFile (path : String) : IO FileBytes := do
  if path.toList.contains '\x00' then return .error .nulInPath
  try
    return .ok (← IO.FS.readBinFile path).toList
  catch e =>
    match e with
    | .noFileOrDirectory .. => return .error .missing
    | .inappropriateType .. => return .error .isADirectory
    | .permissionDenied .. => return .error .forbidden
    | _ => return .error ⟨.other, toString e⟩

/-- The variables in a block of settings with a NUL behind each. -/
def variablesOf (block : List UInt8) : List (String × String) :=
  (Text.pieces (· == '\x00') (Utf8.decodeLossy block)).filterMap fun piece =>
    if piece.contains '=' then
      some (String.ofList (piece.takeWhile (· != '=')),
        String.ofList ((piece.dropWhile (· != '=')).drop 1))
    else none

/-- The variables of the environment. -/
def environment : IO (List (String × String)) := do
  match ← readFile "/proc/self/environ" with
  | .ok block => return variablesOf block
  | .error _ => return []

/-- How many directories are above the one where the program runs. -/
def depth : IO Nat := return (Path.parts (← IO.currentDir).toString).length - 1

/-- What the clock reads now. -/
def now : IO Instant := do
  let t ← Std.Time.Timestamp.now
  let total := t.toNanosecondsSinceUnixEpoch.val
  return (Instant.ofParts? (total / Span.perSecond) (total % Span.perSecond).toNat).getD .epoch

/-- The reason why no request is answered. -/
def noTransport : String := "error sending request"

/-- What surrounds a run, with the files that were read. -/
def surroundings (files : List (String × FileBytes)) (depth : Nat)
    (environment : List (String × String)) (arguments : List String) (now : Instant) :
    Delivery.Surroundings where
  file path := (files.lookup path).getD (.error .missing)
  depth
  environment
  arguments
  database _ := .ok {}
  clock _ := now
  issuer _ _ := .error noTransport
  telemetry _ := .error noTransport

/-- The paths that a run reads behind its settings. -/
def pathsBehind (s : Delivery.Surroundings) : List String :=
  match s.settings with
  | .error _ => []
  | .ok settings =>
    let secret := (Delivery.secretRef settings.auth).path settings.auth.secretRoot
    s.reportPath settings :: secret.toOption.toList

/-- The paths with what is read behind them. -/
def readAll (paths : List String) : IO (List (String × FileBytes)) :=
  paths.mapM fun path => return (path, ← readFile path)

end Courier.Program

open Courier Courier.Program in
/-- Runs the program once. -/
def main (arguments : List String) : IO UInt32 := do
  let environment ← environment
  let now ← now
  let depth ← depth
  let first ← readAll (Settings.fileName :: Delivery.variablePaths depth)
  let behind ← readAll (pathsBehind (surroundings first depth environment arguments now))
  match (surroundings (first ++ behind) depth environment arguments now).run.1 with
  | .ok () => return 0
  | .error e =>
    IO.eprintln e.line
    return 1
