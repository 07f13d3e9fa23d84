import Courier.Json.Fault
import Courier.Text.Utf8

/-! # Reading JSON — a cursor over bytes, and what it reads

    A `Reader` moves a cursor and gives a value or a fault; the cursor
    stays where it stopped in both cases.  A fault names either the place
    of the cursor or the place one byte further, as the byte that is wrong
    was taken or only looked at.  Readers that repeat themselves count down
    the bytes that were ahead at the start, as each round takes one. -/

namespace Courier.Json

/-- The bytes ahead, and the place of the first of them. -/
structure Cursor where
  rest : List UInt8
  place : Place := {}

namespace Cursor

/-- The next byte, if there is one. -/
def peek? (c : Cursor) : Option UInt8 := c.rest.head?

/-- The cursor behind the next byte. -/
def skip (c : Cursor) : Cursor :=
  match c.rest with
  | [] => c
  | b :: rest => ⟨rest, c.place.after b⟩

/-- The cursor behind the leading bytes that satisfy `p`. -/
def skipWhile (p : UInt8 → Bool) (c : Cursor) : Cursor :=
  ⟨c.rest.dropWhile p, (c.rest.takeWhile p).foldl Place.after c.place⟩

end Cursor

/-- Moves a cursor and gives a value or a fault. -/
def Reader (α : Type) : Type := Cursor → Except Fault α × Cursor

instance : Monad Reader where
  pure a := fun c => (.ok a, c)
  bind r f := fun c =>
    match r c with
    | (.ok a, c) => f a c
    | (.error fault, c) => (.error fault, c)

namespace Reader

variable {α : Type}

/-- Ends with a fault that has no place yet. -/
def raise (cause : Cause) : Reader α := fun c => (.error ⟨cause, none⟩, c)

/-- Ends with a fault at the place of the cursor. -/
def fail (cause : Cause) : Reader α := fun c => (.error ⟨cause, some c.place⟩, c)

/-- Ends with a fault at the byte ahead. -/
def failAhead (cause : Cause) : Reader α := fun c => (.error ⟨cause, some c.skip.place⟩, c)

/-- The byte ahead. -/
def peek : Reader (Option UInt8) := fun c => (.ok c.peek?, c)

/-- Passes over one byte. -/
def skip : Reader Unit := fun c => (.ok (), c.skip)

/-- Takes one byte. -/
def take : Reader (Option UInt8) := fun c => (.ok c.peek?, c.skip)

/-- The bytes that are left, none of which is taken. -/
def ahead : Reader (List UInt8) := fun c => (.ok c.rest, c)

/-- Passes over the leading bytes that satisfy `p`, and counts them. -/
def skipWhile (p : UInt8 → Bool) : Reader Nat := fun c =>
  (.ok (c.rest.takeWhile p).length, c.skipWhile p)

/-- Gives a fault without a place the place where the cursor stopped. -/
def placed (r : Reader α) : Reader α := fun c =>
  match r c with
  | (.error ⟨cause, none⟩, c) => (.error ⟨cause, some c.place⟩, c)
  | outcome => outcome

/-- Runs `close` behind `body` whether or not `body` failed; the first fault counts. -/
def closedBy (body : Reader α) (close : Reader Unit) : Reader α := fun c =>
  match body c with
  | (.ok a, c) =>
    match close c with
    | (.ok (), c) => (.ok a, c)
    | (.error fault, c) => (.error fault, c)
  | (.error fault, c) => (.error fault, (close c).2)

end Reader

/-- Whether the byte is JSON white space. -/
def isSpace (b : UInt8) : Bool := b == 32 || b == 10 || b == 13 || b == 9

/-- Whether the byte is an ASCII digit. -/
def isDigit (b : UInt8) : Bool := 48 ≤ b && b ≤ 57

/-- The value of a decimal digit. -/
def digitValue (b : UInt8) : Nat := b.toNat - 48

/-- Whether the byte is the character. -/
def is (b : UInt8) (c : Char) : Bool := b.toNat == c.toNat

/-- The first byte behind white space. -/
def peekToken : Reader (Option UInt8) := do
  let _ ← Reader.skipWhile isSpace
  Reader.peek

/-! ## Words and numbers -/

/-- Takes the bytes of a word one by one. -/
def word : List Char → Reader Unit
  | [] => pure ()
  | c :: rest => do
    match ← Reader.take with
    | none => Reader.fail .endInValue
    | some b => if is b c then word rest else Reader.fail .wantWord

/-- A number: a word, a negative integer that fits 64 bits, or a double. -/
inductive Number where
  | unsigned (n : UInt64)
  | negative (n : Int)
  | real (x : Double)

/-- The wrong number in the words of a message. -/
def Number.found : Number → Found
  | unsigned n => .integer n.toNat
  | negative n => .integer n
  | real x => .real x

/-- The greatest power of ten that is multiplied or divided by at once. -/
def powerLimit : Nat := 308

/-- The double `size` divided by ten to the power `power`, in steps of at most 308. -/
def shrink (size : Magnitude) (power : Nat) : Magnitude :=
  if power ≤ powerLimit then size.div (.ofNat (Nat.pow 10 power))
  else if size = .finite 0 then size
  else shrink (size.div (.ofNat (Nat.pow 10 powerLimit))) (power - powerLimit)
termination_by power
decreasing_by
  simp only [powerLimit] at *
  omega

/-- The double `size` multiplied by ten to the power `power`, where it is in range. -/
def grow? (size : Magnitude) (power : Nat) : Option Magnitude :=
  if power ≤ powerLimit then
    match size.mul (.ofNat (Nat.pow 10 power)) with
    | .infinite => none
    | size => some size
  else if size = .finite 0 then some size
  else none

/-- The double with the given digits and power of ten: one rounding for the digits, one for the
    power. -/
def assemble (positive : Bool) (digits : Nat) (power : Int) : Reader Number :=
  let size := Magnitude.ofNat digits
  if 0 ≤ power then
    match grow? size power.toNat with
    | some size => pure (.real (.signed (!positive) size))
    | none => Reader.fail .numberOutOfRange
  else pure (.real (.signed (!positive) (shrink size (-power).toNat)))

/-- Digits taken one by one onto a value while it stays within `limit`; how many were taken, and
    whether one that would pass the limit is ahead. -/
def gather (limit : Nat) : (count value : Nat) → List UInt8 → Nat × Nat × Bool
  | count, value, [] => (count, value, false)
  | count, value, b :: rest =>
    if isDigit b then
      if value * 10 + digitValue b ≤ limit then
        gather limit (count + 1) (value * 10 + digitValue b) rest
      else (count, value, true)
    else (count, value, false)

/-- Passes over the digits that fit on `value`; their count, the value, and whether more digits
    are ahead. -/
def gatherDigits (limit value : Nat) : Reader (Nat × Nat × Bool) := fun c =>
  let found := gather limit 0 value c.rest
  (.ok found, (List.range found.1).foldl (fun c _ => c.skip) c)

/-- The greatest value of a 64-bit word. -/
def wordLimit : Nat := 18446744073709551615

/-- The exponent part behind its mark, which is ahead. -/
def readExponent (positive : Bool) (digits : Nat) (start : Int) : Reader Number := do
  Reader.skip
  let up ← do
    match ← Reader.peek with
    | some b =>
      if is b '+' then Reader.skip; pure true
      else if is b '-' then Reader.skip; pure false
      else pure true
    | none => pure true
  match ← Reader.take with
  | none => Reader.fail .endInValue
  | some b =>
    if isDigit b then
      let (_, power, more) ← gatherDigits 2147483647 (digitValue b)
      if more then
        Reader.skip
        if digits ≠ 0 ∧ up then Reader.fail .numberOutOfRange
        else
          let _ ← Reader.skipWhile isDigit
          pure (.real (.signed (!positive) (.finite 0)))
      else assemble positive digits (if up then start + power else start - power)
    else Reader.fail .badNumber

/-- Whether an exponent comes next. -/
def exponentAhead : Reader Bool := do
  match ← Reader.peek with
  | some b => pure (is b 'e' || is b 'E')
  | none => pure false

/-- The fraction part behind its point, which is ahead. -/
def readFraction (positive : Bool) (digits : Nat) (start : Int) : Reader Number := do
  Reader.skip
  let (count, digits, more) ← gatherDigits wordLimit digits
  if more then
    let _ ← Reader.skipWhile isDigit
  if count = 0 ∧ !more then
    match ← Reader.peek with
    | some _ => Reader.failAhead .badNumber
    | none => Reader.failAhead .endInValue
  else if ← exponentAhead then readExponent positive digits (start - count)
  else assemble positive digits (start - count)

/-- What follows the digits of the whole part. -/
def readTail (positive : Bool) (digits : Nat) (power : Int) (whole : Reader Number) :
    Reader Number := do
  match ← Reader.peek with
  | some b =>
    if is b '.' then readFraction positive digits power
    else if is b 'e' || is b 'E' then readExponent positive digits power
    else whole
  | none => whole

/-- A whole number that fits a word, with its sign; minus zero and negative numbers below the
    range of 64 bits are doubles. -/
def wholeNumber (positive : Bool) (digits : Nat) : Number :=
  if positive then .unsigned (.ofNat digits)
  else if 0 < digits ∧ digits ≤ 9223372036854775808 then .negative (-(digits : Int))
  else .real (.signed true (.ofNat digits))

/-- A number behind its sign. -/
def readNumber (positive : Bool) : Reader Number := do
  match ← Reader.take with
  | none => Reader.fail .endInValue
  | some b =>
    if is b '0' then
      match ← Reader.peek with
      | some d =>
        if isDigit d then Reader.failAhead .badNumber
        else readTail positive 0 0 (pure (wholeNumber positive 0))
      | none => pure (wholeNumber positive 0)
    else if isDigit b then
      let (_, digits, more) ← gatherDigits wordLimit (digitValue b)
      if more then
        let extra ← Reader.skipWhile isDigit
        readTail positive digits extra (assemble positive digits extra)
      else readTail positive digits 0 (pure (wholeNumber positive digits))
    else Reader.fail .badNumber

/-! ## Texts -/

/-- The character of an escape of one letter. -/
def escaped? (b : UInt8) : Option Char :=
  if is b '"' then some '"'
  else if is b '\\' then some '\\'
  else if is b '/' then some '/'
  else if is b 'b' then some '\x08'
  else if is b 'f' then some '\x0c'
  else if is b 'n' then some '\n'
  else if is b 'r' then some '\r'
  else if is b 't' then some '\t'
  else none

/-- The value of a hexadecimal digit. -/
def hexValue? (b : UInt8) : Option Nat :=
  let n := b.toNat
  if 48 ≤ n ∧ n ≤ 57 then some (n - 48)
  else if 97 ≤ n ∧ n ≤ 102 then some (n - 87)
  else if 65 ≤ n ∧ n ≤ 70 then some (n - 55)
  else none

/-- Four hexadecimal digits. -/
def readHex : Reader Nat := fun c =>
  match c.rest with
  | a :: b :: d :: e :: _ =>
    let behind := c.skip.skip.skip.skip
    match hexValue? a, hexValue? b, hexValue? d, hexValue? e with
    | some a, some b, some d, some e => (.ok (((a * 16 + b) * 16 + d) * 16 + e), behind)
    | _, _, _, _ => Reader.fail .badEscape behind
  | _ => Reader.fail .endInText (c.skipWhile fun _ => true)

/-- Takes the given byte of the second half of a pair. -/
def pairByte (expected : Char) : Reader Unit := do
  match ← Reader.peek with
  | none => Reader.fail .endInText
  | some b =>
    Reader.skip
    if is b expected then pure () else Reader.fail .halfSurrogate

/-- The character of an escape by number, whose mark was taken: one number, or a pair of
    surrogates. -/
def readNumbered : Reader Char := do
  let n ← readHex
  if 0xDC00 ≤ n ∧ n ≤ 0xDFFF then Reader.fail .loneSurrogate
  else if n < 0xD800 ∨ 0xDBFF < n then pure (Char.ofNat n)
  else
    pairByte '\\'
    pairByte 'u'
    let m ← readHex
    if 0xDC00 ≤ m ∧ m ≤ 0xDFFF then pure (Char.ofNat ((n - 0xD800) * 0x400 + (m - 0xDC00) + 0x10000))
    else Reader.fail .loneSurrogate

/-- The character whose first byte was taken; malformed bytes are a fault at that byte. -/
def readChar (b : UInt8) : Reader Char := fun c =>
  match Utf8.next b c.rest with
  | (some char, rest) =>
    (.ok char, ⟨rest, { c.place with column := c.place.column + (char.utf8Size - 1) }⟩)
  | (none, _) => Reader.fail .badCodePoint c

/-- The character of an escape, whose backslash was taken. -/
def readEscape : Reader Char := do
  match ← Reader.take with
  | none => Reader.fail .endInText
  | some mark =>
    if is mark 'u' then readNumbered
    else
      match escaped? mark with
      | some c => pure c
      | none => Reader.fail .badEscape

/-- The characters of a text behind its opening quote, escapes resolved. -/
def textChars : (fuel : List UInt8) → Reader (List Char)
  | [] => Reader.fail .endInText
  | _ :: fuel => do
    match ← Reader.take with
    | none => Reader.fail .endInText
    | some b =>
      if is b '"' then pure []
      else if b < 32 then Reader.fail .controlInText
      else
        let c ← if is b '\\' then readEscape else readChar b
        let rest ← textChars fuel
        pure (c :: rest)

/-- A text behind its opening quote. -/
def readText : Reader String := do
  let cs ← textChars (← Reader.ahead)
  pure (String.ofList cs)

/-! ## Values that are passed over -/

/-- Passes over a text behind its opening quote; only its escapes and controls are checked. -/
def skipText : (fuel : List UInt8) → Reader Unit
  | [] => Reader.fail .endInText
  | _ :: fuel => do
    match ← Reader.peek with
    | none => Reader.fail .endInText
    | some b =>
      if b < 32 then Reader.fail .controlInText
      else
        Reader.skip
        if is b '"' then pure ()
        else if is b '\\' then
          match ← Reader.take with
          | none => Reader.fail .endInText
          | some mark =>
            if is mark 'u' then
              let _ ← readHex
              skipText fuel
            else if (escaped? mark).isSome then skipText fuel
            else Reader.fail .badEscape
        else skipText fuel

/-- Passes over the exponent part, whose mark is ahead. -/
def skipExponent : Reader Unit := do
  Reader.skip
  match ← Reader.peek with
  | some b => if is b '+' || is b '-' then Reader.skip
  | none => pure ()
  match ← Reader.take with
  | some b =>
    if isDigit b then
      let _ ← Reader.skipWhile isDigit
    else Reader.fail .badNumber
  | none => Reader.fail .badNumber

/-- Passes over the fraction part, whose point is ahead. -/
def skipFraction : Reader Unit := do
  Reader.skip
  let count ← Reader.skipWhile isDigit
  if count = 0 then Reader.failAhead .badNumber
  else if ← exponentAhead then skipExponent

/-- Passes over a number behind its sign. -/
def skipNumber : Reader Unit := do
  match ← Reader.take with
  | none => Reader.fail .badNumber
  | some b =>
    if is b '0' then
      match ← Reader.peek with
      | some d => if isDigit d then Reader.failAhead .badNumber
      | none => pure ()
    else if isDigit b then
      let _ ← Reader.skipWhile isDigit
    else Reader.fail .badNumber
    match ← Reader.peek with
    | some b =>
      if is b '.' then skipFraction
      else if is b 'e' || is b 'E' then skipExponent
    | none => pure ()

/-- An open bracket. -/
inductive Bracket where
  | list
  | object
  deriving DecidableEq

/-- Where passing over a value stands: before a value, or inside the innermost open bracket,
    where a comma is accepted unless the bracket was opened just now. -/
inductive SkipState where
  | value (opened : List Bracket)
  | inside (bracket : Bracket) (outer : List Bracket) (comma : Bool)

/-- Passes over the name and colon of a member, behind the white space before it. -/
def skipName : Reader Unit := do
  match ← peekToken with
  | none => Reader.failAhead .endInObject
  | some b => if is b '"' then Reader.skip else Reader.failAhead .keyNotText
  skipText (← Reader.ahead)
  match ← peekToken with
  | none => Reader.failAhead .endInObject
  | some b => if is b ':' then Reader.skip else Reader.failAhead .wantColon

/-- The state before the next value of a bracket; in an object its name is passed over first. -/
def nextInside (bracket : Bracket) (outer : List Bracket) : Reader SkipState := do
  if bracket = .object then skipName
  pure (.value (bracket :: outer))

/-- Where skipping goes on behind a value: at the next item of the list or object around it. -/
def afterValue : List Bracket → Option SkipState
  | [] => none
  | bracket :: outer => some (.inside bracket outer true)

/-- One step of passing over a value; none at its end. -/
def skipStep : SkipState → Reader (Option SkipState)
  | .value opened => do
    match ← peekToken with
    | none => Reader.failAhead .endInValue
    | some b =>
      if is b 'n' then Reader.skip; word ['u', 'l', 'l']; pure (afterValue opened)
      else if is b 't' then Reader.skip; word ['r', 'u', 'e']; pure (afterValue opened)
      else if is b 'f' then Reader.skip; word ['a', 'l', 's', 'e']; pure (afterValue opened)
      else if is b '-' then Reader.skip; skipNumber; pure (afterValue opened)
      else if isDigit b then skipNumber; pure (afterValue opened)
      else if is b '"' then
        Reader.skip
        skipText (← Reader.ahead)
        pure (afterValue opened)
      else if is b '[' then Reader.skip; pure (some (.inside .list opened false))
      else if is b '\x7b' then Reader.skip; pure (some (.inside .object opened false))
      else Reader.failAhead .wantValue
  | .inside bracket outer comma => do
    match ← peekToken with
    | none => Reader.failAhead (if bracket = .list then .endInList else .endInObject)
    | some b =>
      if is b ',' && comma then Reader.skip; some <$> nextInside bracket outer
      else if is b (if bracket = .list then ']' else '\x7d') then
        Reader.skip
        pure (afterValue outer)
      else if comma then
        Reader.failAhead (if bracket = .list then .wantCommaInList else .wantCommaInObject)
      else some <$> nextInside bracket outer

/-- Two steps, of which at least one takes a byte. -/
def skipTwice (state : SkipState) : Reader (Option SkipState) := do
  match ← skipStep state with
  | none => pure none
  | some state => skipStep state

/-- Steps until the end of the value. -/
def skipFrom : (fuel : List UInt8) → SkipState → Reader Unit
  | [], _ => Reader.failAhead .endInValue
  | _ :: fuel, state => do
    match ← skipTwice state with
    | none => pure ()
    | some state => skipFrom fuel state

/-- Passes over one value of any shape. -/
def skipValue : Reader Unit := do
  skipFrom (0 :: (← Reader.ahead)) (.value [])

end Courier.Json
