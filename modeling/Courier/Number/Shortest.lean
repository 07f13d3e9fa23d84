import Courier.Number.Double

/-! # Shortest decimals — the fewest digits that read back

    A finite double owns the interval of reals that round to it; the ends
    belong to it when its significand is even.  For one digit, then two,
    and so on, the two neighbours of the value on that decimal grid are
    tested; the first grid with a hit wins, and of two hits the nearer
    one.  `Decimal.plain` and `Decimal.compact` are the two ways in which
    the result is written. -/

namespace Courier

/-- A decimal number: `digits` times ten to the power `exponent`. -/
structure Decimal where
  digits : Nat
  exponent : Int
  deriving DecidableEq, Repr

namespace Magnitude

/-- The double nearest to a decimal number. -/
def ofDecimal (d : Decimal) : Magnitude :=
  if 0 ≤ d.exponent then round (d.digits * Nat.pow 10 d.exponent.toNat * unitsPerOne) 1
  else round (d.digits * unitsPerOne) (Nat.pow 10 (-d.exponent).toNat)

/-- The ends of the interval that rounds to `units` units, in quarters of a unit. -/
def quarterBounds (units : Nat) : Nat × Nat :=
  let gap := spacing units
  let below := if 1 < gap ∧ units = Nat.pow 2 units.log2 then gap else 2 * gap
  (4 * units - below, 4 * units + 2 * gap)

/-- The power of ten of the first digit of a positive size. -/
def leadingPower (units : Nat) : Int :=
  let scaled := units * Nat.pow 10 400 / unitsPerOne
  ((Nat.toDigits 10 scaled).length : Int) - 401

/-- A decimal and a bound in quarters of a unit, brought to a common scale. -/
def onScale (d : Decimal) (quarters : Nat) : Nat × Nat :=
  if 0 ≤ d.exponent then (d.digits * Nat.pow 10 d.exponent.toNat * (4 * unitsPerOne), quarters)
  else (d.digits * (4 * unitsPerOne), quarters * Nat.pow 10 (-d.exponent).toNat)

/-- Whether the decimal number rounds to `units` units. -/
def owns (units : Nat) (d : Decimal) : Bool :=
  let bounds := quarterBounds units
  let low := onScale d bounds.1
  let high := onScale d bounds.2
  if units / spacing units % 2 = 0 then low.2 ≤ low.1 && high.1 ≤ high.2
  else low.2 < low.1 && high.1 < high.2

/-- The decimal with `count` digits nearest to `units` units, if one rounds to it. -/
def withDigits? (units count : Nat) : Option Decimal :=
  let exponent := leadingPower units - (count - 1 : Nat)
  let below : Decimal :=
    if 0 ≤ exponent then ⟨units / (unitsPerOne * Nat.pow 10 exponent.toNat), exponent⟩
    else ⟨units * Nat.pow 10 (-exponent).toNat / unitsPerOne, exponent⟩
  let above : Decimal := ⟨below.digits + 1, exponent⟩
  match owns units below, owns units above with
  | true, false => some below
  | false, true => some above
  | false, false => none
  | true, true =>
    let value := onScale below (4 * units)
    let upper := onScale above (4 * units)
    if 2 * value.2 < value.1 + upper.1 then some below
    else if value.1 + upper.1 < 2 * value.2 then some above
    else if below.digits % 2 = 0 then some below else some above

/-- The decimal with the fewest digits that rounds to `units` units. -/
def shortest (units : Nat) : Decimal :=
  if units = 0 then ⟨0, 0⟩
  else ((List.range 17).findSome? fun n => withDigits? units (n + 1)).getD ⟨0, 0⟩

end Magnitude

namespace Decimal

/-- The decimal without zeros at the end of its digits. -/
def stripped (d : Decimal) : Decimal :=
  if h : d.digits ≠ 0 ∧ d.digits % 10 = 0 then stripped ⟨d.digits / 10, d.exponent + 1⟩ else d
termination_by d.digits
decreasing_by omega

/-- The digits with a point after the first `point` of them; zeros fill both sides. -/
def positional (digits : List Char) (point : Int) : List Char × List Char :=
  if point ≤ 0 then (['0'], List.replicate (-point).toNat '0' ++ digits)
  else
    let whole := point.toNat
    (digits.take whole ++ List.replicate (whole - digits.length) '0', digits.drop whole)

/-- All digits around a point; a whole number has none. -/
def plain (d : Decimal) : String :=
  let d := d.stripped
  let digits := Nat.toDigits 10 d.digits
  let parts := positional digits (digits.length + d.exponent)
  String.ofList (parts.1 ++ if parts.2.isEmpty then [] else '.' :: parts.2)

/-- All digits around a point while the point stands at most sixteen places after the first
    digit and at most four zeros lie between; else one digit before the point and a signed
    power of ten. -/
def compact (d : Decimal) : String :=
  let d := d.stripped
  let digits := Nat.toDigits 10 d.digits
  let point : Int := digits.length + d.exponent
  if -5 < point ∧ point ≤ 16 then
    let parts := positional digits point
    String.ofList (parts.1 ++ '.' :: if parts.2.isEmpty then ['0'] else parts.2)
  else
    let fraction := digits.drop 1
    let power := point - 1
    String.ofList (digits.take 1 ++ if fraction.isEmpty then [] else '.' :: fraction)
      ++ (if 0 ≤ power then "e+" else "e-") ++ toString power.natAbs

end Decimal

namespace Double

/-- The double written by `layout`, or the words for what is no finite number. -/
def text (layout : Decimal → String) : Double → String
  | nan => "NaN"
  | signed negative m =>
    (if negative then "-" else "") ++ match m with
      | .infinite => "inf"
      | .finite units => layout (Magnitude.shortest units)

end Double

end Courier
