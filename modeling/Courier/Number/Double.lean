/-! # Doubles — 64-bit binary floating point on natural numbers

    The size of a finite double is a whole number of units of 2^-1074, so
    every operation is exact arithmetic on naturals followed by one
    rounding to 53 significant bits, ties to even.  Sizes past the largest
    finite double become infinite. -/

namespace Courier

/-- The size of a double: a count of units of 2^-1074, or infinite. -/
inductive Magnitude where
  | finite (units : Nat)
  | infinite
  deriving DecidableEq, Repr

namespace Magnitude

/-- The number of units in one. -/
def unitsPerOne : Nat := Nat.pow 2 1074

/-- The whole number nearest to `num / den`; a tie goes to the even neighbour. -/
def nearestEven (num den : Nat) : Nat :=
  let q := num / den
  let r := num % den
  if 2 * r < den then q
  else if den < 2 * r then q + 1
  else if q % 2 = 0 then q else q + 1

/-- The spacing of the doubles around `units` units: one unit up to 53 bits, then 2^(bits - 53). -/
def spacing (units : Nat) : Nat := Nat.pow 2 (units.log2 + 1 - 53)

/-- The double nearest to `num / den` units, ties to even. -/
def round (num den : Nat) : Magnitude :=
  let gap := spacing (num / den)
  let units := nearestEven num (den * gap) * gap
  if units < Nat.pow 2 (1024 + 1074) then finite units else infinite

/-- The double nearest to the whole number `n`. -/
def ofNat (n : Nat) : Magnitude := round (n * unitsPerOne) 1

/-- The magnitude one. -/
def one : Magnitude := finite unitsPerOne

/-- The rounded sum. -/
def add : Magnitude → Magnitude → Magnitude
  | finite a, finite b => round (a + b) 1
  | _, _ => infinite

/-- The rounded product of two sizes. -/
def mul : Magnitude → Magnitude → Magnitude
  | finite a, finite b => round (a * b) unitsPerOne
  | _, _ => infinite

/-- The rounded quotient of two sizes with a positive finite divisor. -/
def div : Magnitude → Magnitude → Magnitude
  | finite a, finite b => round (a * unitsPerOne) b
  | a, _ => a

/-- Whether the size is at most another one. -/
def le : Magnitude → Magnitude → Bool
  | finite a, finite b => decide (a ≤ b)
  | _, infinite => true
  | infinite, finite _ => false

/-- The product of `result` and the `n`-th power of `square`, by repeated squaring: the binary
    digits of `n` are taken from the lowest one up, and every product is rounded. -/
def powFrom (result square : Magnitude) (n : Nat) : Magnitude :=
  let next := if n % 2 = 1 then result.mul square else result
  if n < 2 then next else powFrom next (square.mul square) (n / 2)
termination_by n
decreasing_by omega

/-- The `n`-th power by repeated squaring. -/
def pow (a : Magnitude) (n : Nat) : Magnitude := powFrom one a n

end Magnitude

/-- A double: not a number, or a sign and a size. -/
inductive Double where
  | nan
  | signed (negative : Bool) (size : Magnitude)
  deriving DecidableEq, Repr

namespace Double

/-- The double with the given 64 bits: sign, eleven bits of exponent, 52 bits of fraction. -/
def ofBits (bits : UInt64) : Double :=
  let n := bits.toNat
  let negative := decide (9223372036854775808 ≤ n)
  let exponent := n / Nat.pow 2 52 % Nat.pow 2 11
  let fraction := n % Nat.pow 2 52
  if exponent = 2047 then
    if fraction = 0 then signed negative .infinite else nan
  else if exponent = 0 then signed negative (.finite fraction)
  else signed negative (.finite ((Nat.pow 2 52 + fraction) * Nat.pow 2 (exponent - 1)))

/-- The larger of the double and one; one where it is not a number. -/
def atLeastOne : Double → Double
  | signed false size => if Magnitude.one.le size then signed false size else signed false .one
  | _ => signed false .one

/-- The size of the double; infinite where it is not a number. -/
def size : Double → Magnitude
  | signed _ m => m
  | nan => .infinite

end Double

end Courier
