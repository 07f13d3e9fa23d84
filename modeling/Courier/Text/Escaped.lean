import Courier.Text.Numeral

/-! # Escaped text — quoted characters behind backslashes

    Some characters have an escape of one letter; any character has one of
    four or eight hexadecimal digits.  Reading stops behind the closing
    quote, and fails at any other escape and at a character that may not
    stand for itself. -/

namespace Courier.Text

/-- The character of an escape of one letter. -/
def escapedChar? (c : Char) : Option Char :=
  match c with
  | 'b' => some '\x08'
  | 't' => some '\t'
  | 'n' => some '\n'
  | 'f' => some '\x0c'
  | 'r' => some '\r'
  | '"' => some '"'
  | '\\' => some '\\'
  | _ => none

/-- The character with the given number in hexadecimal. -/
def numberedChar? (digits : List Char) : Option Char :=
  let number := digits.foldlM (fun n c => (Numeral.hexDigit? c).map (16 * n + ·)) 0
  number.bind fun n => if n.isValidChar then some (Char.ofNat n) else none

/-- A character in front of what was read behind it. -/
def push (c : Option Char) (behind : Option (List Char × List Char)) :
    Option (List Char × List Char) :=
  match c, behind with
  | some c, some (cs, rest) => some (c :: cs, rest)
  | _, _ => none

/-- The characters up to the closing double quote, and what follows it; characters that satisfy
    `plain` stand for themselves. -/
def readQuoted (plain : Char → Bool) : List Char → Option (List Char × List Char)
  | [] => none
  | c :: rest =>
    if c = '"' then some ([], rest)
    else if c = '\\' then
      match rest with
      | 'u' :: a :: b :: c :: d :: more => push (numberedChar? [a, b, c, d]) (readQuoted plain more)
      | 'U' :: a :: b :: c :: d :: e :: f :: g :: h :: more =>
        push (numberedChar? [a, b, c, d, e, f, g, h]) (readQuoted plain more)
      | c :: more => push (escapedChar? c) (readQuoted plain more)
      | [] => none
    else if plain c then push (some c) (readQuoted plain rest)
    else none

end Courier.Text
