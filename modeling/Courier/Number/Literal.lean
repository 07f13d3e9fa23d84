import Courier.Number.Shortest
import Courier.Text.Numeral

/-! # Decimal literals — doubles in plain text

    A literal is a sign, digits around a point, and a power of ten, of
    which only some digits are required.  Its double is the one nearest to
    the exact value. -/

namespace Courier

/-- Whether the character is an ASCII digit. -/
def Numeral.isDigit (c : Char) : Bool := '0' ≤ c && c ≤ '9'

/-- The power of ten behind its letter; none written means zero. -/
def Decimal.readPower? : List Char → Option Int
  | [] => some 0
  | c :: rest =>
    if c = 'e' ∨ c = 'E' then
      match rest with
      | '-' :: digits => (Numeral.natural? digits).map fun n => -(n : Int)
      | '+' :: digits => (Numeral.natural? digits).map Int.ofNat
      | digits => (Numeral.natural? digits).map Int.ofNat
    else none

/-- The decimal number of digits with at most one point among them and a power behind them. -/
def Decimal.read? (cs : List Char) : Option Decimal :=
  let whole := cs.takeWhile Numeral.isDigit
  let behind := cs.dropWhile Numeral.isDigit
  let fraction := match behind with
    | '.' :: rest => rest.takeWhile Numeral.isDigit
    | _ => []
  let tail := match behind with
    | '.' :: rest => rest.dropWhile Numeral.isDigit
    | _ => behind
  match Numeral.natural? (whole ++ fraction), Decimal.readPower? tail with
  | some digits, some power => some ⟨digits, power - fraction.length⟩
  | _, _ => none

namespace Double

/-- The powers of ten past which every double is infinite, or zero. -/
def powerBound : Int := 400

/-- The double nearest to a decimal number with a sign. -/
def ofDecimal (negative : Bool) (d : Decimal) : Double :=
  let point := (Nat.toDigits 10 d.digits).length + d.exponent
  if d.digits = 0 ∨ point < -powerBound then signed negative (.finite 0)
  else if powerBound < point then signed negative .infinite
  else signed negative (Magnitude.ofDecimal d)

/-- The number that a decimal literal stands for. -/
def read? (cs : List Char) : Option Double :=
  match cs with
  | '-' :: rest => (Decimal.read? rest).map (ofDecimal true)
  | '+' :: rest => (Decimal.read? rest).map (ofDecimal false)
  | _ => (Decimal.read? cs).map (ofDecimal false)

end Double

end Courier
