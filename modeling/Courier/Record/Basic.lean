import Courier.Record.Fields
import Courier.Text.Quoted

/-! # Shared records — named maps of texts with a version

    A record lives at a location and carries the version at which it was
    read.  Its description for logs names its keys and never its values. -/

namespace Courier

/-- Where a record lives: a namespace and a name in it. -/
structure Location where
  ns : String
  name : String
  deriving DecidableEq

/-- The location in one text. -/
def Location.text (l : Location) : String := l.ns ++ "/" ++ l.name

/-- The data at a location, and the version at which they were read. -/
structure Record where
  location : Location
  data : Fields
  version : UInt64
  deriving DecidableEq

namespace Record

/-- The record of a location that nobody has written to. -/
def empty (location : Location) : Record := ⟨location, .empty, 0⟩

/-- The record with the value of a key. -/
def set (r : Record) (key value : String) : Record := { r with data := r.data.insert key value }

/-- The record as logs show it: without its values. -/
def describe (r : Record) : String :=
  let keys := ", ".intercalate (r.data.keys.map Text.quoted)
  "SharedRecord \x7b namespace: " ++ Text.quoted r.location.ns ++ ", name: "
    ++ Text.quoted r.location.name ++ ", keys: [" ++ keys ++ "], version: "
    ++ toString r.version.toNat ++ " \x7d"

end Record

end Courier
