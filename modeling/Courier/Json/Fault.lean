import Courier.Number.Shortest
import Courier.Text.Quoted

/-! # Faults of JSON texts — what is wrong, and where

    A fault has a cause and, once it is known, the place where reading
    stopped: the line from one, and the number of bytes read on it. -/

namespace Courier.Json

/-- A place in a text: the line from one, and the bytes already read on it. -/
structure Place where
  line : Nat := 1
  column : Nat := 0
  deriving DecidableEq, Repr

/-- The place after one more byte. -/
def Place.after (p : Place) (b : UInt8) : Place :=
  if b = 10 then ⟨p.line + 1, 0⟩ else ⟨p.line, p.column + 1⟩

/-- A value of the wrong kind. -/
inductive Found where
  | null
  | bool (value : Bool)
  | integer (value : Int)
  | real (value : Double)
  | text (value : String)
  | list
  | object

/-- The wrong value in the words of a message. -/
def Found.describe : Found → String
  | null => "null"
  | bool value => s!"boolean `{value}`"
  | integer value => s!"integer `{value}`"
  | real value => "floating point `" ++ value.text Decimal.compact ++ "`"
  | text value => "string " ++ Text.quoted value
  | list => "sequence"
  | object => "map"

/-- What is wrong with a text. -/
inductive Cause where
  | endInList
  | endInObject
  | endInText
  | endInValue
  | wantColon
  | wantCommaInList
  | wantCommaInObject
  | wantWord
  | wantValue
  | badEscape
  | badNumber
  | numberOutOfRange
  | badCodePoint
  | controlInText
  | keyNotText
  | loneSurrogate
  | halfSurrogate
  | trailingComma
  | trailing
  | wrongKind (found : Found) (wanted : String)
  | badValue (found : Found) (wanted : String)
  | missingField (name : String)
  | repeatedField (name : String)
  | tooShort (count : Nat) (wanted : String)

/-- The cause in words. -/
def Cause.message : Cause → String
  | endInList => "EOF while parsing a list"
  | endInObject => "EOF while parsing an object"
  | endInText => "EOF while parsing a string"
  | endInValue => "EOF while parsing a value"
  | wantColon => "expected `:`"
  | wantCommaInList => "expected `,` or `]`"
  | wantCommaInObject => "expected `,` or `\x7d`"
  | wantWord => "expected ident"
  | wantValue => "expected value"
  | badEscape => "invalid escape"
  | badNumber => "invalid number"
  | numberOutOfRange => "number out of range"
  | badCodePoint => "invalid unicode code point"
  | controlInText => "control character (\\u0000-\\u001F) found while parsing a string"
  | keyNotText => "key must be a string"
  | loneSurrogate => "lone leading surrogate in hex escape"
  | halfSurrogate => "unexpected end of hex escape"
  | trailingComma => "trailing comma"
  | trailing => "trailing characters"
  | wrongKind found wanted => "invalid type: " ++ found.describe ++ ", expected " ++ wanted
  | badValue found wanted => "invalid value: " ++ found.describe ++ ", expected " ++ wanted
  | missingField name => s!"missing field `{name}`"
  | repeatedField name => s!"duplicate field `{name}`"
  | tooShort count wanted => s!"invalid length {count}, expected {wanted}"

/-- A cause, and the place where reading stopped once it is known. -/
structure Fault where
  cause : Cause
  place : Option Place := none

/-- The cause in words, followed by the place. -/
def Fault.message (f : Fault) : String :=
  f.cause.message ++ match f.place with
    | some p => s!" at line {p.line} column {p.column}"
    | none => ""

end Courier.Json
