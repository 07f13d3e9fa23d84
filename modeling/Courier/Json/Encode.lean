/-! # Writing JSON — compact texts

    No white space between tokens; in texts only quotes, backslashes and
    the controls below the space are escaped, the latter by a letter where
    one exists and else by number. -/

namespace Courier.Json

/-- A JSON value to be written. -/
inductive Value where
  | null
  | bool (b : Bool)
  | int (n : Int)
  | text (s : String)
  | list (items : List Value)
  | object (members : List (String × Value))

/-- A digit of a lowercase hexadecimal number. -/
def hexDigit (n : Nat) : Char := Nat.digitChar n

/-- One character of a text between quotes. -/
def encodeChar (c : Char) : List Char :=
  match c with
  | '"' => ['\\', '"']
  | '\\' => ['\\', '\\']
  | '\x08' => ['\\', 'b']
  | '\x0c' => ['\\', 'f']
  | '\n' => ['\\', 'n']
  | '\r' => ['\\', 'r']
  | '\t' => ['\\', 't']
  | _ =>
    if c.toNat < 32 then ['\\', 'u', '0', '0', hexDigit (c.toNat / 16), hexDigit (c.toNat % 16)]
    else [c]

/-- A text between quotes. -/
def encodeText (s : String) : List Char := '"' :: (s.toList.flatMap encodeChar ++ ['"'])

/-- The written items with commas between them. -/
def commaSeparated : List (List Char) → List Char
  | [] => []
  | [one] => one
  | one :: rest => one ++ ',' :: commaSeparated rest

mutual

/-- The shortest JSON text of a value. -/
def Value.chars : Value → List Char
  | .null => ['n', 'u', 'l', 'l']
  | .bool true => ['t', 'r', 'u', 'e']
  | .bool false => ['f', 'a', 'l', 's', 'e']
  | .int n => (toString n).toList
  | .text s => encodeText s
  | .list items => '[' :: (commaSeparated (itemChars items) ++ [']'])
  | .object members => '\x7b' :: (commaSeparated (memberChars members) ++ ['\x7d'])

/-- The texts of the items of a list. -/
def itemChars : List Value → List (List Char)
  | [] => []
  | v :: rest => v.chars :: itemChars rest

/-- The texts of the members of an object, each with its name. -/
def memberChars : List (String × Value) → List (List Char)
  | [] => []
  | (name, v) :: rest => (encodeText name ++ ':' :: v.chars) :: memberChars rest

end

/-- The compact text of a value. -/
def Value.compress (v : Value) : String := String.ofList v.chars

end Courier.Json
