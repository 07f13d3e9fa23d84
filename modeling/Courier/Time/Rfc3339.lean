import Courier.Time.Calendar
import Courier.Time.Instant
import Courier.Text.Numeral

/-! # RFC 3339 — instants as text

    Written in universal time with the shortest exact fraction of three
    digits, six or nine; years outside 0 to 9999 carry a sign.  Read with
    four digits of year and any offset below a day. -/

namespace Courier.Rfc3339

/-- The number of seconds in a day without a leap second. -/
def secondsPerDay : Int := 86400

/-- A year: four digits, with a sign outside 0 to 9999. -/
def year (y : Int) : String :=
  if 0 ≤ y ∧ y ≤ 9999 then Numeral.padded 4 y.toNat
  else (if y < 0 then "-" else "+") ++ Numeral.padded 4 y.natAbs

/-- A fraction of a second, in groups of three digits. -/
def fraction (nanos : Nat) : String :=
  if nanos = 0 then ""
  else if nanos % 1000000 = 0 then "." ++ Numeral.padded 3 (nanos / 1000000)
  else if nanos % 1000 = 0 then "." ++ Numeral.padded 6 (nanos / 1000)
  else "." ++ Numeral.padded 9 nanos

/-- Date and time of day in universal time, without an offset. A leap second is second sixty. -/
def dateAndTime (t : Instant) : String :=
  let date := Date.ofDays (t.secs / secondsPerDay)
  let ofDay := (t.secs % secondsPerDay).toNat
  let second := ofDay % 60 + if t.inLeapSecond then 1 else 0
  let nanos := if t.inLeapSecond then t.nanos - Span.perSecond else t.nanos
  year date.year ++ "-" ++ Numeral.padded 2 date.month ++ "-" ++ Numeral.padded 2 date.day
    ++ "T" ++ Numeral.padded 2 (ofDay / 3600) ++ ":" ++ Numeral.padded 2 (ofDay / 60 % 60)
    ++ ":" ++ Numeral.padded 2 second ++ fraction nanos

/-- The instant with a numeric offset of zero. -/
def format (t : Instant) : String := dateAndTime t ++ "+00:00"

/-- The instant with the letter for an offset of zero. -/
def formatZ (t : Instant) : String := dateAndTime t ++ "Z"

/-! ## Reading -/

/-- A number of exactly `count` digits, and the rest. -/
def digits? : (count acc : Nat) → List Char → Option (Nat × List Char)
  | 0, acc, rest => some (acc, rest)
  | _ + 1, _, [] => none
  | count + 1, acc, c :: rest =>
    (Numeral.digit? c).bind fun d => digits? count (10 * acc + d) rest

/-- The rest behind a given character. -/
def after? (c : Char) : List Char → Option (List Char)
  | d :: rest => if c = d then some rest else none
  | [] => none

/-- Two numbers of two digits with a mark behind each but the last, as `12:34:56`. -/
def triple? (first : Nat) (mark : Char) (cs : List Char) :
    Option ((Nat × Nat × Nat) × List Char) := do
  let (a, cs) ← digits? first 0 cs
  let (b, cs) ← digits? 2 0 (← after? mark cs)
  let (c, cs) ← digits? 2 0 (← after? mark cs)
  some ((a, b, c), cs)

/-- Nanoseconds of the leading digits, of which nine count; the rest behind all digits. -/
def nanos? (cs : List Char) : Option (Nat × List Char) :=
  let ds := cs.takeWhile fun c => (Numeral.digit? c).isSome
  if ds.isEmpty then none
  else
    let nine := (ds ++ List.replicate 9 '0').take 9
    (digits? 9 0 nine).map fun found => (found.1, cs.drop ds.length)

/-- An optional fraction of a second. -/
def fraction? : List Char → Option (Nat × List Char)
  | '.' :: rest => nanos? rest
  | cs => some (0, cs)

/-- An offset from universal time in seconds. -/
def offset? : List Char → Option (Int × List Char)
  | 'Z' :: rest => some (0, rest)
  | 'z' :: rest => some (0, rest)
  | sign :: rest => do
    let negative ← if sign = '+' then some false
      else if sign = '-' ∨ sign = '−' then some true else none
    let (hours, rest) ← digits? 2 0 rest
    let (minutes, rest) ← digits? 2 0 (← after? ':' rest)
    if 59 < minutes ∨ 23 < hours then none
    else
      let seconds : Int := (hours * 3600 + minutes * 60 : Nat)
      some (if negative then -seconds else seconds, rest)
  | [] => none

/-- The instant that a text stands for. -/
def parse? (s : String) : Option Instant := do
  let ((y, m, d), cs) ← triple? 4 '-' s.toList
  let cs ← match cs with
    | c :: rest => if c = 'T' ∨ c = 't' ∨ c = ' ' then some rest else none
    | [] => none
  let ((hour, minute, second), cs) ← triple? 2 ':' cs
  let (nanos, cs) ← fraction? cs
  let (offset, cs) ← offset? cs
  let date : Date := ⟨y, m, d⟩
  if !cs.isEmpty ∨ !date.isValid ∨ 23 < hour ∨ 59 < minute ∨ 60 < second then none
  else
    let leap := second == 60
    let ofDay : Int := (hour * 3600 + minute * 60 + (if leap then 59 else second) : Nat)
    Instant.ofParts? (date.toDays * secondsPerDay + ofDay - offset)
      (nanos + if leap then Span.perSecond else 0)

end Courier.Rfc3339
