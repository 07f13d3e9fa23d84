/-! # Punycode — labels of domain names in ASCII

    The ASCII characters of a label come first; each other character, in
    ascending order, is written as the distance from the one before in a
    generalised base of 36 whose thresholds adapt to the label. -/

namespace Courier.Url.Punycode

/-- The character of a digit: letters, then numerals. -/
def digit (n : Nat) : Char := if n < 26 then Char.ofNat (97 + n) else Char.ofNat (48 + n - 26)

/-- The value of a digit in base thirty-six. -/
def digit? (c : Char) : Option Nat :=
  if 'a' ≤ c ∧ c ≤ 'z' then some (c.toNat - 97)
  else if 'A' ≤ c ∧ c ≤ 'Z' then some (c.toNat - 65)
  else if '0' ≤ c ∧ c ≤ '9' then some (c.toNat - 48 + 26)
  else none

/-- The threshold of the digit with weight index `k`, which grows by 36 from digit to digit. -/
def threshold (k bias : Nat) : Nat := if k ≤ bias then 1 else if bias + 26 ≤ k then 26 else k - bias

/-- Halves a distance by steps of 35 until it is at most 455; the weight index grows by 36. -/
def flatten (distance k : Nat) : Nat × Nat :=
  if h : 455 < distance then flatten (distance / 35) (k + 36) else (distance, k)
termination_by distance
decreasing_by omega

/-- The bias after a distance, for a label of `count` characters so far. -/
def adapt (distance count : Nat) (first : Bool) : Nat :=
  let d := if first then distance / 700 else distance / 2
  let (d, k) := flatten (d + d / count) 0
  k + 36 * d / (d + 38)

/-- The digits of a number, least first, with a threshold for each place. -/
def digits (bias : Nat) : (fuel k q : Nat) → List Char
  | 0, _, _ => []
  | fuel + 1, k, q =>
    let t := threshold k bias
    if q < t then [digit q]
    else digit (t + (q - t) % (36 - t)) :: digits bias fuel (k + 36) ((q - t) / (36 - t))

/-- The state of an encoding: text so far, distance, bias and count of characters done. -/
structure State where
  out : List Char
  distance : Nat
  bias : Nat
  count : Nat

/-- One pass over the label for the character with code `n`. -/
def pass (ascii n : Nat) (state : State) (cs : List Char) : State :=
  cs.foldl (fun s c =>
    if c.toNat < n then { s with distance := s.distance + 1 }
    else if c.toNat = n then
      { out := s.out ++ digits s.bias (s.distance + 1) 36 s.distance
        distance := 0
        bias := adapt s.distance (s.count + 1) (s.count == ascii)
        count := s.count + 1 }
    else s) state

/-- A label without the mark of an encoded one. -/
def encode (cs : List Char) : List Char :=
  let ascii := cs.filter fun c => c.toNat < 128
  let codes := ((cs.map Char.toNat).filter (128 ≤ ·)).mergeSort.eraseDups
  let start : State :=
    ⟨if ascii.isEmpty then [] else ascii ++ ['-'], 0, 72, ascii.length⟩
  (codes.foldl (fun (state : Nat × State) n =>
    let s := state.2
    let s := { s with distance := s.distance + (n - state.1) * (s.count + 1) }
    let s := pass ascii.length n s cs
    (n + 1, { s with distance := s.distance + 1 })) (128, start)).2.out

/-- Reads one distance: its value and the rest. -/
def readDistance (bias : Nat) : (weight k acc : Nat) → List Char → Option (Nat × List Char)
  | _, _, _, [] => none
  | weight, k, acc, c :: rest => do
    let d ← digit? c
    let acc := acc + d * weight
    let t := threshold k bias
    if d < t then some (acc, rest) else readDistance bias (weight * (36 - t)) (k + 36) acc rest

/-- Places the characters of the remaining distances. -/
def insertAll : (fuel : Nat) → (out : List Char) → (n i bias : Nat) → List Char →
    Option (List Char)
  | 0, _, _, _, _, _ => none
  | _ + 1, out, _, _, _, [] => some out
  | fuel + 1, out, n, i, bias, cs => do
    let (distance, rest) ← readDistance bias 1 36 0 cs
    let count := out.length + 1
    let position := i + distance
    let code := n + position / count
    let at_ := position % count
    if code < 0xD800 ∨ (0xDFFF < code ∧ code ≤ 0x10FFFF) then
      insertAll fuel (out.take at_ ++ Char.ofNat code :: out.drop at_) code (at_ + 1)
        (adapt distance count (out.all fun c => c.toNat < 128)) rest
    else none

/-- The label that an encoded one stands for. -/
def decode? (cs : List Char) : Option (List Char) :=
  let tail := (cs.reverse.takeWhile (· ≠ '-')).reverse
  let ascii := cs.take (cs.length - tail.length - 1)
  let coded := if cs.contains '-' then tail else cs
  insertAll (coded.length + 1) (if cs.contains '-' then ascii else []) 128 0 72 coded

end Courier.Url.Punycode
