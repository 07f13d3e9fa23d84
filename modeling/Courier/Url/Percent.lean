import Courier.Text.Utf8

/-! # Percent encoding — bytes that a part of a URL may not hold

    A byte is written as a percent sign and two hexadecimal digits if it is
    a control, belongs to a character outside ASCII, or belongs to the set
    of the part it stands in. -/

namespace Courier.Url

/-- An uppercase hexadecimal digit. -/
def upperHex (n : Nat) : Char := (Nat.digitChar n).toUpper

/-- A byte as a percent sign and two digits. -/
def percentByte (b : UInt8) : List Char := ['%', upperHex (b.toNat / 16), upperHex (b.toNat % 16)]

/-- Whether the character is a control or lies outside ASCII. -/
def isAlwaysEncoded (c : Char) : Bool := c.toNat < 32 || 126 < c.toNat

/-- The characters encoded in fragments. -/
def fragmentSet : List Char := [' ', '"', '<', '>', '\x60']

/-- The characters encoded in paths. -/
def pathSet : List Char := fragmentSet ++ ['#', '?', '\x7b', '\x7d']

/-- The characters encoded in a single segment of a path. -/
def segmentSet : List Char := pathSet ++ ['/', '%']

/-- The characters encoded in a single segment of a path of a special scheme. -/
def specialSegmentSet : List Char := segmentSet ++ ['\\']

/-- The characters encoded in user names and passwords. -/
def userinfoSet : List Char := pathSet ++ ['/', ':', ';', '=', '@', '[', '\\', ']', '^', '|']

/-- The characters encoded in queries. -/
def querySet : List Char := [' ', '"', '#', '<', '>']

/-- The characters encoded in queries of special schemes. -/
def specialQuerySet : List Char := querySet ++ ['\'']

/-- One character, encoded where needed. -/
def encodeChar (set : List Char) (c : Char) : List Char :=
  if isAlwaysEncoded c || set.contains c then (String.utf8EncodeChar c).flatMap percentByte else [c]

/-- A text, encoded where needed. -/
def encode (set : List Char) (cs : List Char) : List Char := cs.flatMap (encodeChar set)

/-- The value of a hexadecimal digit. -/
def hexValue? (b : UInt8) : Option Nat :=
  let n := b.toNat
  if 48 ≤ n ∧ n ≤ 57 then some (n - 48)
  else if 97 ≤ n ∧ n ≤ 102 then some (n - 87)
  else if 65 ≤ n ∧ n ≤ 70 then some (n - 55)
  else none

/-- The byte of two hexadecimal digits. -/
def hexPair? (high low : UInt8) : Option UInt8 :=
  (hexValue? high).bind fun h => (hexValue? low).map fun l => .ofNat (h * 16 + l)

/-- The bytes with every percent sign and its two digits resolved; a percent sign without two
    digits stands for itself. -/
def decodeBytes : List UInt8 → List UInt8
  | [] => []
  | b :: high :: low :: rest =>
    match if b = 37 then hexPair? high low else none with
    | some value => value :: decodeBytes rest
    | none => b :: decodeBytes (high :: low :: rest)
  | b :: rest => b :: decodeBytes rest

end Courier.Url
