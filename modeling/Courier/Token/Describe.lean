import Courier.Time.Clock
import Courier.Token.Local
import Courier.Token.Shared

/-! # Providers as logs show them

    A description names the clock, the settings, the location and whether
    a credential is cached.  The API token and the texts of granted tokens
    have no part in it. -/

namespace Courier

/-- A whole part and a fraction of `width` digits, without zeros at the end. -/
def decimalText (whole fraction width : Nat) : String :=
  let digits := (Numeral.padded width fraction).toList
  let kept := (digits.reverse.dropWhile (· == '0')).reverse
  toString whole ++ if kept.isEmpty then "" else "." ++ String.ofList kept

/-- A span in the largest unit of which it holds at least one. -/
def Span.describe (s : Span) : String :=
  if 0 < s.secs then decimalText s.secs s.nanos 9 ++ "s"
  else if 1000000 ≤ s.nanos then decimalText (s.nanos / 1000000) (s.nanos % 1000000) 6 ++ "ms"
  else if 1000 ≤ s.nanos then decimalText (s.nanos / 1000) (s.nanos % 1000) 3 ++ "µs"
  else toString s.nanos ++ "ns"

/-- Fields of a description between braces. -/
def braced (name : String) (fields : List (String × String)) : String :=
  let parts := fields.map fun f => if f.2 = "" then f.1 else f.1 ++ ": " ++ f.2
  name ++ " \x7b " ++ ", ".intercalate parts ++ " \x7d"

/-- The mark of a description that leaves fields out. -/
def andMore : String × String := ("..", "")

/-- A decimal with a point, and a power of ten outside the sizes from 10^-5 to 10^16. -/
def Decimal.describe (d : Decimal) : String :=
  let d := d.stripped
  let digits := Nat.toDigits 10 d.digits
  let point : Int := digits.length + d.exponent
  if d.digits = 0 ∨ (-4 ≤ point ∧ point ≤ 16) then
    let plain := d.plain
    if plain.contains '.' then plain else plain ++ ".0"
  else
    let fraction := digits.drop 1
    String.ofList (digits.take 1 ++ if fraction.isEmpty then [] else '.' :: fraction)
      ++ "e" ++ toString (point - 1)

/-- A delay policy as logs show it. -/
def DelayPolicy.describe : DelayPolicy → String
  | fixed wait => "Fixed(" ++ wait.describe ++ ")"
  | increment base step => braced "Increment" [("base", base.describe), ("step", step.describe)]
  | scaled base factor =>
    braced "Exponential" [("base", base.describe), ("factor", factor.text Decimal.describe)]

/-- A retry policy as logs show it. -/
def RetryPolicy.describe (p : RetryPolicy) : String :=
  braced "RetryPolicy" [("name", Text.quoted p.name), ("max_attempts", toString p.budget.toNat),
    ("delay", p.delays.describe)]

/-- Settings as logs show them. -/
def RefreshSettings.describe (s : RefreshSettings) : String :=
  braced "RefreshSettings" [("max_age", s.maxAge.describe), ("policy", s.policy.describe)]

/-- A clock that moves when told to, as logs show it. -/
def Clock.describe (c : Clock) : String :=
  braced "ManualClock" [("now", braced "Mutex"
    [("data", Rfc3339.formatZ c.now), ("poisoned", "false"), andMore])]

/-- The clock that a provider reads. -/
inductive Timepiece where
  /-- The clock of the system. -/
  | system
  | manual (c : Clock)

/-- A clock as logs show it. -/
def Timepiece.describe : Timepiece → String
  | system => "SystemClock"
  | manual c => c.describe

/-- What both kinds of provider use to refresh, as logs show it. -/
def describeRefresher (clock : Timepiece) (s : RefreshSettings) : String :=
  braced "TokenRefresher" [("clock", clock.describe), ("settings", s.describe), andMore]

/-- What is in a cache as logs show it. -/
def describeCached : Option Credential → String
  | some credential => "Some(" ++ credential.describe ++ ")"
  | none => "None"

/-- A cache behind its lock, out of sight while somebody holds the lock. -/
def describeCache (held : Bool) (cached : Option Credential) : String :=
  braced "Mutex" [("data", if held then Text.quoted "<locked>" else describeCached cached)]

/-- A provider of one process around its refresher and its cache. -/
def aroundCache (refresher cache : String) : String :=
  braced "CredentialProvider" [("refresher", refresher), ("cached", cache)]

/-- A shared provider around its refresher. -/
def aroundLocation (refresher : String) (l : Location) : String :=
  braced "SharedCredentialProvider" [("refresher", refresher),
    ("location", braced "RecordRef" [("namespace", Text.quoted l.ns), ("name", Text.quoted l.name)]),
    andMore]

/-- A provider of one process as logs show it between its calls. -/
def LocalProvider.describe (p : LocalProvider) (c : Clock) : String :=
  aroundCache (describeRefresher (.manual c) p.settings) (describeCache false p.cached)

/-- A shared provider as logs show it. -/
def describeShared (c : Clock) (s : RefreshSettings) (l : Location) : String :=
  aroundLocation (describeRefresher (.manual c) s) l

/-- What a provider of either kind refreshes with; the API token goes to the issuer. -/
structure Refresher where
  apiToken : String
  clock : Timepiece
  settings : RefreshSettings

namespace Refresher

/-- The refresher as logs show it: without its API token. -/
def describe (r : Refresher) : String := describeRefresher r.clock r.settings

/-- The provider of one process that has the refresher, while a call may hold the lock. -/
def describeLocal (r : Refresher) (held : Bool) (cached : Option Credential) : String :=
  aroundCache r.describe (describeCache held cached)

/-- The shared provider that has the refresher. -/
def describeShared (r : Refresher) (l : Location) : String := aroundLocation r.describe l

end Refresher

end Courier
