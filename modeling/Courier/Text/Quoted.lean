import Courier.Text.Hidden

/-! # Quoted text — a string between quotes, on one line

    Double quotes and backslashes are escaped, tab, line feed, carriage
    return and NUL have escapes of one letter, and every character without
    a form of its own is written by its number in hexadecimal. -/

namespace Courier.Text

/-- The number of a code point between braces. -/
def numbered (c : Char) : List Char :=
  ['\\', 'u', '\x7b'] ++ Nat.toDigits 16 c.toNat ++ ['\x7d']

/-- One character of quoted text. -/
def quoteChar (c : Char) : List Char :=
  match c with
  | '"' => ['\\', '"']
  | '\\' => ['\\', '\\']
  | '\t' => ['\\', 't']
  | '\n' => ['\\', 'n']
  | '\r' => ['\\', 'r']
  | '\x00' => ['\\', '0']
  | _ =>
    if ' ' ≤ c ∧ c ≤ '~' then [c]
    else if isHidden c then numbered c
    else [c]

/-- The string between double quotes. -/
def quoted (s : String) : String :=
  String.ofList ('"' :: (s.toList.flatMap quoteChar ++ ['"']))

/-- The character between single quotes; the single quote is escaped, the double quote is
    not. -/
def quotedChar (c : Char) : String :=
  let inner := match c with
    | '\'' => ['\\', '\'']
    | '"' => ['"']
    | _ => quoteChar c
  String.ofList ('\'' :: (inner ++ ['\'']))

end Courier.Text
