/-! # The Gregorian calendar — dates and day numbers

    Day zero is 1 January 1970.  Years are counted from March, so that the
    leap day is the last day of its year; four hundred such years form an
    era of 146097 days, which splits into centuries, groups of four years
    and years, each shortened only at its end. -/

namespace Courier

/-- A date of the calendar. -/
structure Date where
  year : Int
  month : Nat
  day : Nat
  deriving DecidableEq, Repr

namespace Date

/-- Whether the year has a leap day. -/
def isLeapYear (year : Int) : Bool :=
  year % 4 == 0 && (year % 100 != 0 || year % 400 == 0)

/-- The number of days in a month of a year. -/
def daysInMonth (year : Int) (month : Nat) : Nat :=
  if month = 2 then if isLeapYear year then 29 else 28
  else if month = 4 ∨ month = 6 ∨ month = 9 ∨ month = 11 then 30
  else 31

/-- Whether there is such a date. -/
def isValid (d : Date) : Bool :=
  1 ≤ d.month && d.month ≤ 12 && 1 ≤ d.day && d.day ≤ daysInMonth d.year d.month

/-- The number of days in four hundred years. -/
def daysPerEra : Int := 146097

/-- The day number of 1 March of the year zero, negated. -/
def epochShift : Int := 719468

/-- Days before a month, counted from 1 March; March has index zero. -/
def daysBeforeMonth (index : Nat) : Nat := (153 * index + 2) / 5

/-- The number of days since the epoch. -/
def toDays (d : Date) : Int :=
  let year := if d.month ≤ 2 then d.year - 1 else d.year
  let ofEra := year % 400
  let index := (d.month + 9) % 12
  year / 400 * daysPerEra + (ofEra * 365 + ofEra / 4 - ofEra / 100)
    + daysBeforeMonth index + d.day - 1 - epochShift

/-- The date with the given number of days since the epoch. -/
def ofDays (n : Int) : Date :=
  let shifted := n + epochShift
  let era := shifted / daysPerEra
  let ofEra := shifted % daysPerEra
  let century := min (ofEra / 36524) 3
  let ofCentury := ofEra - century * 36524
  let four := ofCentury / 1461
  let ofFour := ofCentury - four * 1461
  let one := min (ofFour / 365) 3
  let ofYear := (ofFour - one * 365).toNat
  let index := (5 * ofYear + 2) / 153
  let month := if index < 10 then index + 3 else index - 9
  let year := era * 400 + century * 100 + four * 4 + one
  ⟨if month ≤ 2 then year + 1 else year, month, ofYear - daysBeforeMonth index + 1⟩

end Date

end Courier
