import Courier.Number.Literal
import Courier.Settings.Tree
import Courier.Time.Calendar

/-! # TOML scalars — words, numbers and moments

    Everything that is not quoted is a word of letters, digits and a few
    marks, which must be a truth value, a number or a moment as a whole.  A
    moment may have a space between its date and its time. -/

namespace Courier.Toml

/-- Whether the character may stand in a word. -/
def isWordChar (c : Char) : Bool :=
  c.isAlphanum || c == '_' || c == '-' || c == '+' || c == '.' || c == ':'

/-! ## Numbers -/

/-- Digits that satisfy `isDigit`, with single underscores between some of them; the result has
    no underscores. -/
def digitRun? (isDigit : Char → Bool) : List Char → Option (List Char)
  | [] => none
  | [c] => if isDigit c then some [c] else none
  | c :: '_' :: rest => if isDigit c then (digitRun? isDigit rest).map (c :: ·) else none
  | c :: d :: rest => if isDigit c then (digitRun? isDigit (d :: rest)).map (c :: ·) else none

/-- A whole number without a sign: a zero, or digits that start with another one. -/
def decimalRun? (cs : List Char) : Option (List Char) :=
  match cs with
  | '0' :: _ :: _ => none
  | _ => digitRun? Numeral.isDigit cs

/-- A whole number that fits 64 bits with a sign. -/
def signed64? (n : Int) : Option SettingTree :=
  if -9223372036854775808 ≤ n ∧ n < 9223372036854775808 then some (.signed n) else none

/-- The number of digits of a base. -/
def based? (base : Nat) (cs : List Char) : Option SettingTree :=
  let isDigit := fun c => (Numeral.hexDigit? c).any (· < base)
  (digitRun? isDigit cs).bind fun digits =>
    signed64? (digits.foldl (fun n c => base * n + ((Numeral.hexDigit? c).getD 0 : Nat)) 0 : Nat)

/-- The sign in front of a number, and the rest. -/
def cutSign : List Char → List Char × List Char
  | '+' :: rest => (['+'], rest)
  | '-' :: rest => (['-'], rest)
  | cs => ([], cs)

/-- A whole number in one of its bases; a decimal one may have a sign. -/
def whole? (cs : List Char) : Option SettingTree :=
  match cs with
  | '0' :: 'x' :: digits => based? 16 digits
  | '0' :: 'o' :: digits => based? 8 digits
  | '0' :: 'b' :: digits => based? 2 digits
  | _ =>
    let (sign, digits) := cutSign cs
    ((decimalRun? digits).bind Numeral.natural?).bind fun n =>
      signed64? (if sign = ['-'] then -(n : Int) else n)

/-- The power of ten behind its letter, without underscores. -/
def power? : List Char → Option (List Char)
  | [] => some []
  | c :: rest =>
    if c = 'e' ∨ c = 'E' then
      let (sign, digits) := cutSign rest
      (digitRun? Numeral.isDigit digits).map fun digits => 'e' :: (sign ++ digits)
    else none

/-- A number with a fraction or a power of ten; none greater than every double. -/
def real? (cs : List Char) : Option SettingTree := do
  let (sign, digits) := cutSign cs
  let startsPower := fun c => c == 'e' || c == 'E'
  let whole ← decimalRun? (digits.takeWhile fun c => c != '.' && !startsPower c)
  let tail := digits.dropWhile fun c => c != '.' && !startsPower c
  let (fraction, power) ← match tail with
    | [] => none
    | '.' :: rest =>
      (digitRun? Numeral.isDigit (rest.takeWhile fun c => !startsPower c)).map fun digits =>
        ('.' :: digits, rest.dropWhile fun c => !startsPower c)
    | rest => some ([], rest)
  let power ← power? power
  let x ← Double.read? (sign ++ whole ++ fraction ++ power)
  if x = .signed false .infinite then none else some (.real x)

/-- The numbers that are written by a name. -/
def named? (cs : List Char) : Option SettingTree :=
  let (sign, name) := cutSign cs
  if name = "inf".toList then some (.real (.signed (sign == ['-']) .infinite))
  else if name = "nan".toList then some (.real .nan)
  else none

/-! ## Moments -/

/-- A number of two digits up to a greatest one, and the rest. -/
def pair? (greatest : Nat) : List Char → Option (Nat × List Char)
  | a :: b :: rest =>
    (Numeral.natural? [a, b]).bind fun n => if n ≤ greatest then some (n, rest) else none
  | _ => none

/-- The rest behind a date. -/
def afterDate? (cs : List Char) : Option (List Char) := do
  let year ← Numeral.natural? (cs.take 4)
  match cs.drop 4 with
  | '-' :: rest =>
    let (month, rest) ← pair? 12 rest
    match rest with
    | '-' :: rest =>
      let (day, rest) ← pair? 31 rest
      if Date.isValid ⟨year, month, day⟩ then some rest else none
    | _ => none
  | _ => none

/-- The rest behind a time of day. -/
def afterTime? (cs : List Char) : Option (List Char) := do
  let (_, rest) ← pair? 23 cs
  match rest with
  | ':' :: rest =>
    let (_, rest) ← pair? 59 rest
    match rest with
    | ':' :: rest =>
      let (_, rest) ← pair? 60 rest
      match rest with
      | '.' :: c :: rest =>
        if Numeral.isDigit c then some (rest.dropWhile Numeral.isDigit) else none
      | '.' :: [] => none
      | _ => some rest
    | _ => none
  | _ => none

/-- Whether the text is nothing or an offset. -/
def isOffset (cs : List Char) : Bool :=
  match cs with
  | [] => true
  | ['Z'] => true
  | ['z'] => true
  | c :: rest =>
    (c == '+' || c == '-') &&
      match pair? 23 rest with
      | some (_, ':' :: rest) => (pair? 59 rest).any (·.2.isEmpty)
      | _ => false

/-- Whether the text is a time with or without an offset. -/
def isOffsetTime (cs : List Char) : Bool := (afterTime? cs).any isOffset

/-- Whether the text is a date, a time, or both. -/
def isMoment (cs : List Char) : Bool :=
  match afterDate? cs with
  | some [] => true
  | some (c :: rest) => (c == 'T' || c == 't' || c == ' ') && isOffsetTime rest
  | none => afterTime? cs == some []

/-- The key under which the text of a moment stands in a table of its own. -/
def momentKey : String := "$__toml_private_datetime"

/-- A moment, kept as its text under a key of its own. -/
def moment? (cs : List Char) : Option SettingTree :=
  if isMoment cs then some (.table [(momentKey, .text (String.ofList cs))]) else none

/-! ## Words -/

/-- The value that a word without quotes stands for. -/
def word? (cs : List Char) : Option SettingTree :=
  if cs = "true".toList then some (.bool true)
  else if cs = "false".toList then some (.bool false)
  else named? cs <|> moment? cs <|> whole? cs <|> real? cs

/-- A word that is not quoted, with the time behind a date and a space, and the rest. -/
def cutWord (cs : List Char) : List Char × List Char :=
  let first := cs.takeWhile isWordChar
  let behind := cs.dropWhile isWordChar
  match afterDate? first, behind with
  | some [], ' ' :: rest =>
    let second := rest.takeWhile isWordChar
    if isOffsetTime second then (first ++ ' ' :: second, rest.dropWhile isWordChar)
    else (first, behind)
  | _, _ => (first, behind)

end Courier.Toml
