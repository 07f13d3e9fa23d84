import Courier.Text.Numeral
import Courier.Text.Pieces
import Courier.Url.Basic
import Courier.Url.Percent
import Courier.Url.Punycode

/-! # Hosts — domain names and addresses

    A host of a special scheme is percent-decoded, folded to lower case,
    encoded label by label where it leaves ASCII, and read as an IPv4
    address if its last label is a number.  Other schemes keep the text. -/

namespace Courier.Url

/-! ## IPv6 -/

/-- Up to `count` hexadecimal digits, and the rest. -/
def takeHex : (count acc : Nat) → List Char → Nat × List Char
  | 0, acc, rest => (acc, rest)
  | _ + 1, acc, [] => (acc, [])
  | count + 1, acc, c :: rest =>
    match Numeral.hexDigit? c with
    | some d => takeHex count (acc * 16 + d) rest
    | none => (acc, c :: rest)

/-- One part of a dotted address: digits without a leading zero, at most 255. -/
def dottedPart? (cs : List Char) : Option Nat :=
  if cs.isEmpty ∨ !cs.all (fun c => '0' ≤ c ∧ c ≤ '9') ∨ (cs.head? = some '0' ∧ 1 < cs.length) ∨
      3 < cs.length
  then none
  else
    let n := cs.foldl (fun acc c => acc * 10 + (c.toNat - 48)) 0
    if n ≤ 255 then some n else none

/-- The two pieces of a dotted address. -/
def dotted? (cs : List Char) : Option (List Nat) :=
  match (Text.pieces (· == '.') cs).mapM dottedPart? with
  | some [a, b, c, d] => some [a * 256 + b, c * 256 + d]
  | _ => none

/-- The pieces of an address from a given index on: those read so far, and how many of them stand
    before the gap if it was seen. -/
def ipv6Pieces : (fuel : Nat) → (pieces : List Nat) → (gap : Option Nat) → List Char →
    Option (List Nat × Option Nat)
  | 0, _, _, _ => none
  | _ + 1, pieces, gap, [] => some (pieces, gap)
  | fuel + 1, pieces, gap, c :: rest =>
    let used := pieces.length + if gap.isSome then 1 else 0
    if 8 ≤ used then none
    else if c = ':' then
      if gap.isSome then none else ipv6Pieces fuel pieces (some pieces.length) rest
    else
      let (value, behind) := takeHex 4 0 (c :: rest)
      match behind with
      | [] => ipv6Pieces fuel (pieces ++ [value]) gap []
      | '.' :: _ =>
        if used ≤ 6 ∧ c ≠ '.' then (dotted? (c :: rest)).map fun two => (pieces ++ two, gap) else none
      | ':' :: more => if more.isEmpty then none else ipv6Pieces fuel (pieces ++ [value]) gap more
      | _ => none

/-- The eight pieces of an address, the gap filled with zeros. -/
def ipv6? (cs : List Char) : Option (List Nat) := do
  let (gap, cs) ← match cs with
    | ':' :: ':' :: rest => some (some 0, rest)
    | ':' :: _ => none
    | [] => none
    | [_] => none
    | _ => some (none, cs)
  let (pieces, gap) ← ipv6Pieces (cs.length + 1) [] gap cs
  match gap with
  | some before =>
    if pieces.length ≤ 7 then
      some (pieces.take before ++ List.replicate (8 - pieces.length) 0 ++ pieces.drop before)
    else none
  | none => if pieces.length = 8 then some pieces else none

/-- Start and length of the first longest run of zeros, from index `i` on. -/
def longestZeros : (i : Nat) → List Nat → Nat × Nat
  | _, [] => (0, 0)
  | i, p :: rest =>
    let here := ((p :: rest).takeWhile (· == 0)).length
    let later := longestZeros (i + 1) rest
    if here ≠ 0 ∧ later.2 ≤ here then (i, here) else later

/-- The text of an IPv6 address: the first longest run of at least two zeros is left out. -/
def ipv6Text (pieces : List Nat) : String :=
  let hex (n : Nat) := String.ofList (Nat.toDigits 16 n)
  let (start, count) := longestZeros 0 pieces
  if count < 2 then ":".intercalate (pieces.map hex)
  else
    ":".intercalate ((pieces.take start).map hex) ++ "::"
      ++ ":".intercalate ((pieces.drop (start + count)).map hex)

/-! ## IPv4 -/

/-- A number in base eight, ten or sixteen as its first characters say; none where it is no
    number at all. -/
def ipv4Number? (cs : List Char) : Option Nat :=
  let inBase (base : Nat) (cs : List Char) : Option Nat :=
    cs.foldlM (fun acc c => (Numeral.hexDigit? c).bind fun d =>
      if d < base then some (acc * base + d) else none) 0
  match cs with
  | [] => none
  | '0' :: 'x' :: rest => inBase 16 rest
  | '0' :: 'X' :: rest => inBase 16 rest
  | '0' :: c :: rest => inBase 8 (c :: rest)
  | _ => inBase 10 cs

/-- The labels of a name, without the empty one behind a final dot. -/
def labels (cs : List Char) : List (List Char) :=
  let parts := Text.pieces (· == '.') cs
  if 1 < parts.length ∧ parts.getLast? = some [] then parts.dropLast else parts

/-- Whether the last label of a name is a number. -/
def endsInNumber (cs : List Char) : Bool :=
  match (labels cs).getLast? with
  | some last =>
    (!last.isEmpty && last.all fun c => '0' ≤ c ∧ c ≤ '9') || (ipv4Number? last).isSome
  | none => false

/-- The address that up to four numbers stand for; the last one fills what the others leave. -/
def ipv4? (cs : List Char) : Option Nat := do
  let numbers ← (labels cs).mapM ipv4Number?
  let last ← numbers.getLast?
  let front := numbers.dropLast
  if 3 < front.length ∨ front.any (255 < ·) ∨ Nat.pow 256 (4 - front.length) ≤ last then none
  else some (front.zipIdx.foldl (fun acc p => acc + p.1 * Nat.pow 256 (3 - p.2)) last)

/-- The text of an IPv4 address. -/
def ipv4Text (n : Nat) : String :=
  s!"{n / 16777216}.{n / 65536 % 256}.{n / 256 % 256}.{n % 256}"

/-! ## Domain names -/

/-- The characters that a domain name may not hold. -/
def isForbidden (c : Char) : Bool :=
  c.toNat ≤ 32 || c.toNat = 127
    || ['%', '#', '/', ':', '<', '>', '?', '@', '[', '\\', ']', '^', '|'].contains c

/-- One character of a domain name in lower case; some characters stand for others or for
    nothing. -/
def foldChar (c : Char) : List Char :=
  let n := c.toNat
  if n = 0xAD ∨ n = 0x200B ∨ n = 0x2060 ∨ n = 0xFEFF then []
  else if n = 0x3002 ∨ n = 0xFF0E ∨ n = 0xFF61 then ['.']
  else if 0xFF01 ≤ n ∧ n ≤ 0xFF5E then [(Char.ofNat (n - 0xFEE0)).toLower]
  else if n < 128 then [c.toLower]
  else if (0xC0 ≤ n ∧ n ≤ 0xDE ∧ n ≠ 0xD7) ∨ (0x391 ≤ n ∧ n ≤ 0x3AB) ∨ (0x410 ≤ n ∧ n ≤ 0x42F) then
    [Char.ofNat (n + 32)]
  else if 0x400 ≤ n ∧ n ≤ 0x40F then [Char.ofNat (n + 80)]
  else if (0x100 ≤ n ∧ n ≤ 0x12F) ∨ (0x14A ≤ n ∧ n ≤ 0x177) ∨ (0x1E00 ≤ n ∧ n ≤ 0x1E95) then
    [Char.ofNat (n + 1 - n % 2)]
  else [c]

/-- What stands in front of a label that is written in ASCII by encoding. -/
def encodedMark : List Char := ['x', 'n', '-', '-']

/-- Characters past ASCII that no label may hold: the second row of control codes. -/
def isControl (c : Char) : Bool := 127 < c.toNat && c.toNat < 160

/-- Whether an encoded label may stand for these characters: they leave ASCII, are folded already,
    and hold nothing that is refused in the open. -/
def isEncodable (cs : List Char) : Bool :=
  !cs.all (fun c => c.toNat < 128) && !cs.any isControl && !cs.any isForbidden
    && cs.flatMap foldChar == cs

/-- A label of a domain name in ASCII. -/
def labelToAscii? (label : List Char) : Option (List Char) :=
  if label.all fun c => c.toNat < 128 then
    if encodedMark.isPrefixOf label then
      match Punycode.decode? (label.drop 4) with
      | some cs => if isEncodable cs ∧ Punycode.encode cs = label.drop 4 then some label else none
      | none => none
    else some label
  else if label.any isControl then none
  else some (encodedMark ++ Punycode.encode label)

/-- A domain in ASCII, if all of its labels can be written so. -/
def domainToAscii? (bytes : List UInt8) : Option (List Char) := do
  let cs ← Utf8.decode? bytes
  let folded := cs.flatMap foldChar
  if folded.any isForbidden then none
  else
    let parts ← (Text.pieces (· == '.') folded).mapM labelToAscii?
    some (List.intercalate ['.'] parts)

/-! ## Hosts -/

/-- The host between brackets. -/
def bracketed (cs : List Char) : Except UrlFault String :=
  match cs.getLast?, ipv6? (cs.drop 1).dropLast with
  | some ']', some pieces => .ok ("[" ++ ipv6Text pieces ++ "]")
  | _, _ => .error .badIpv6

/-- A host of a special scheme. -/
def parseHost (cs : List Char) : Except UrlFault String :=
  if cs.head? = some '[' then bracketed cs
  else
    match domainToAscii? (decodeBytes (Utf8.encode cs)) with
    | none => .error .badDomain
    | some [] => .error .emptyHost
    | some domain =>
      if endsInNumber domain then
        match ipv4? domain with
        | some n => .ok (ipv4Text n)
        | none => .error .badIpv4
      else .ok (String.ofList domain)

/-- A host of any other scheme. -/
def parseBareHost (cs : List Char) : Except UrlFault String :=
  if cs.head? = some '[' then bracketed cs
  else if cs.any fun c => ['\x00', '\t', '\n', '\r', ' ', '#', '/', ':', '<', '>', '?', '@', '[',
      '\\', ']', '^', '|'].contains c then .error .badHostCharacter
  else .ok (String.ofList (encode [] cs))

end Courier.Url
