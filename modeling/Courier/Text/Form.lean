import Courier.Text.Pieces
import Courier.Text.Utf8
import Courier.Url.Percent

/-! # Form fields — names and values in requests and queries

    Letters, digits and four marks stand for themselves, a space is a plus
    sign, and every other byte is a percent sign and two digits.  Fields are
    read from between ampersands; what is no UTF-8 text is replaced. -/

namespace Courier.Form

/-- Whether the byte stands for itself. -/
def isPlain (b : UInt8) : Bool :=
  let c := Char.ofNat b.toNat
  c.isAlphanum || c == '*' || c == '-' || c == '.' || c == '_'

/-- A byte as a form writes it: itself, a plus sign for a space, or two hexadecimal digits. -/
def encodeByte (b : UInt8) : List Char :=
  if isPlain b then [Char.ofNat b.toNat]
  else if b = 32 then ['+']
  else ['%', (Nat.digitChar (b.toNat / 16)).toUpper, (Nat.digitChar (b.toNat % 16)).toUpper]

/-- A name or a value. -/
def encode (s : String) : String := String.ofList ((Utf8.ofString s).flatMap encodeByte)

/-- A field: name and value with an equals sign between them. -/
def field (name value : String) : String := encode name ++ "=" ++ encode value

/-- The text that a name or a value stands for. -/
def decode (cs : List Char) : String :=
  let spaced := cs.map fun c => if c = '+' then ' ' else c
  String.ofList (Utf8.decodeLossy (Url.decodeBytes (Utf8.encode spaced)))

/-- The names and values of fields; one without an equals sign has no value. -/
def fields (cs : List Char) : List (String × String) :=
  ((Text.pieces (· == '&') cs).filter fun piece => !piece.isEmpty).map fun piece =>
    (decode (piece.takeWhile (· != '=')), decode ((piece.dropWhile (· != '=')).drop 1))

end Courier.Form
