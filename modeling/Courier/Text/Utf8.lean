/-! # UTF-8 — bytes to characters and back

    `next` takes the first character off a list of bytes.  Where the bytes
    do not begin with a well-formed sequence it takes off the longest part
    that could begin one, at least one byte.  Strict decoding refuses such a
    part, lenient decoding puts the replacement character in its place. -/

namespace Courier.Utf8

/-- The bytes of a text. -/
def encode (cs : List Char) : List UInt8 := cs.flatMap String.utf8EncodeChar

/-- The bytes of a text. -/
def ofString (s : String) : List UInt8 := encode s.toList

/-- What the first byte of a longer sequence says: its own bits, the least and greatest second
    byte, and how many bytes follow the second. -/
def lead? (b : UInt8) : Option (Nat × Nat × Nat × Nat) :=
  let n := b.toNat
  if 0xC2 ≤ n ∧ n ≤ 0xDF then some (n - 0xC0, 0x80, 0xBF, 0)
  else if n = 0xE0 then some (0, 0xA0, 0xBF, 1)
  else if n = 0xED then some (0xD, 0x80, 0x9F, 1)
  else if 0xE1 ≤ n ∧ n ≤ 0xEF then some (n - 0xE0, 0x80, 0xBF, 1)
  else if n = 0xF0 then some (0, 0x90, 0xBF, 2)
  else if 0xF1 ≤ n ∧ n ≤ 0xF3 then some (n - 0xF0, 0x80, 0xBF, 2)
  else if n = 0xF4 then some (4, 0x80, 0x8F, 2)
  else none

/-- Takes `count` continuation bytes after the value `acc`; where one is missing, the rest before
    it. -/
def continue? (acc : Nat) : Nat → List UInt8 → Option Nat × List UInt8
  | 0, rest => (some acc, rest)
  | _ + 1, [] => (none, [])
  | count + 1, b :: rest =>
    if 0x80 ≤ b.toNat ∧ b.toNat ≤ 0xBF then continue? (acc * 64 + (b.toNat - 0x80)) count rest
    else (none, b :: rest)

/-- The first character, or none where the bytes are malformed there, and the rest. -/
def next (b : UInt8) (rest : List UInt8) : Option Char × List UInt8 :=
  if b.toNat < 0x80 then (some (Char.ofNat b.toNat), rest)
  else
    match lead? b, rest with
    | some (bits, low, high, more), c :: rest =>
      if low ≤ c.toNat ∧ c.toNat ≤ high then
        let found := continue? (bits * 64 + (c.toNat - 0x80)) more rest
        (found.1.map Char.ofNat, found.2)
      else (none, c :: rest)
    | _, _ => (none, rest)

/-- What is left behind a continuation is no longer than before it. -/
theorem length_continue?_le (acc count : Nat) (rest : List UInt8) :
    (continue? acc count rest).2.length ≤ rest.length := by
  induction count generalizing acc rest with
  | zero => simp [continue?]
  | succ count ih =>
    cases rest with
    | nil => simp [continue?]
    | cons b rest =>
      simp only [continue?]
      split
      · exact Nat.le_succ_of_le (ih _ _)
      · simp

theorem length_next_le (b : UInt8) (rest : List UInt8) : (next b rest).2.length ≤ rest.length := by
  unfold next
  split
  · simp
  · split
    · split
      · exact Nat.le_succ_of_le (length_continue?_le _ _ _)
      · simp
    · simp

/-- The text of well-formed bytes. -/
def decode? : List UInt8 → Option (List Char)
  | [] => some []
  | b :: rest =>
    match (next b rest).1 with
    | some c => (decode? (next b rest).2).map (c :: ·)
    | none => none
termination_by bytes => bytes.length
decreasing_by have := length_next_le b rest; simp only [List.length_cons]; omega

/-- The text of any bytes, each malformed part replaced. -/
def decodeLossy : List UInt8 → List Char
  | [] => []
  | b :: rest => (next b rest).1.getD '\uFFFD' :: decodeLossy (next b rest).2
termination_by bytes => bytes.length
decreasing_by have := length_next_le b rest; simp only [List.length_cons]; omega

end Courier.Utf8
