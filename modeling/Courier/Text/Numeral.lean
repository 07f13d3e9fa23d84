/-! # Numerals — decimal numbers in plain text

    A numeral is one or more ASCII digits; leading zeros count for
    nothing.  A word may carry one plus sign, a signed number one sign. -/

namespace Courier.Numeral

/-- The value of an ASCII digit. -/
def digit? (c : Char) : Option Nat :=
  if '0' ≤ c ∧ c ≤ '9' then some (c.toNat - '0'.toNat) else none

/-- The value of a hexadecimal digit. -/
def hexDigit? (c : Char) : Option Nat :=
  if '0' ≤ c ∧ c ≤ '9' then some (c.toNat - 48)
  else if 'a' ≤ c ∧ c ≤ 'f' then some (c.toNat - 87)
  else if 'A' ≤ c ∧ c ≤ 'F' then some (c.toNat - 55)
  else none

/-- The value of digits that follow a number `n`. -/
def continued? (n : Nat) : List Char → Option Nat
  | [] => some n
  | c :: rest => (digit? c).bind fun d => continued? (10 * n + d) rest

/-- The value of one or more digits. -/
def natural? : List Char → Option Nat
  | [] => none
  | cs => continued? 0 cs

/-- A number below `2 ^ bits`, with at most one plus sign in front. -/
def word? (bits : Nat) (cs : List Char) : Option Nat :=
  let digits := match cs with
    | '+' :: rest => rest
    | _ => cs
  (natural? digits).filter (· < Nat.pow 2 bits)

/-- A number from `-2 ^ (bits - 1)` to below `2 ^ (bits - 1)`, with at most one sign in front. -/
def signed? (bits : Nat) (cs : List Char) : Option Int :=
  match cs with
  | '-' :: rest => ((natural? rest).filter (· ≤ Nat.pow 2 (bits - 1))).map fun n => -(n : Int)
  | '+' :: rest => ((natural? rest).filter (· < Nat.pow 2 (bits - 1))).map Int.ofNat
  | _ => ((natural? cs).filter (· < Nat.pow 2 (bits - 1))).map Int.ofNat

/-- The number as at least `width` digits. -/
def padded (width n : Nat) : String :=
  let digits := toString n
  "".pushn '0' (width - digits.length) ++ digits

end Courier.Numeral
