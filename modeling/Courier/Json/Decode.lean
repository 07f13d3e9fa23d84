import Courier.Json.Cursor

/-! # Typed values in JSON texts

    Readers for the shapes that the documents of this library are made of:
    texts, whole numbers of a fixed range, lists, maps of texts, and
    records.  A record is an object whose members come in any order, or
    else a list of its fields in declaration order; members with unknown
    names are passed over. -/

namespace Courier.Json

/-- Ends with the fault of a value of the wrong kind, whose first byte is ahead. -/
def wrongKind {α : Type} (wanted : String) : Reader α := Reader.placed do
  let bad (found : Found) : Reader α := Reader.raise (.wrongKind found wanted)
  match ← Reader.peek with
  | none => Reader.failAhead .wantValue
  | some b =>
    if is b 'n' then Reader.skip; word ['u', 'l', 'l']; bad .null
    else if is b 't' then Reader.skip; word ['r', 'u', 'e']; bad (.bool true)
    else if is b 'f' then Reader.skip; word ['a', 'l', 's', 'e']; bad (.bool false)
    else if is b '-' then Reader.skip; bad (← readNumber false).found
    else if isDigit b then bad (← readNumber true).found
    else if is b '"' then Reader.skip; bad (.text (← readText))
    else if is b '[' then bad .list
    else if is b '\x7b' then bad .object
    else Reader.failAhead .wantValue

/-- The first byte of a value, which must be there. -/
def valueStart : Reader UInt8 := do
  match ← peekToken with
  | none => Reader.failAhead .endInValue
  | some b => pure b

/-- Reads a text. -/
def text : Reader String := do
  let b ← valueStart
  if is b '"' then Reader.skip; readText else wrongKind "a string"

/-- A whole number that `accept` takes; `wanted` names its range. -/
def wholeBy {α : Type} (wanted : String) (accept : Int → Option α) : Reader α := do
  let b ← valueStart
  let check (n : Number) : Reader α := Reader.placed <|
    let whole (n : Int) : Reader α :=
      match accept n with
      | some a => pure a
      | none => Reader.raise (.badValue (.integer n) wanted)
    match n with
    | .unsigned n => whole n.toNat
    | .negative n => whole n
    | .real _ => Reader.raise (.wrongKind n.found wanted)
  if is b '-' then Reader.skip; check (← readNumber false)
  else if isDigit b then check (← readNumber true)
  else wrongKind wanted

/-- A 32-bit signed number. -/
def int32 : Reader Int32 :=
  wholeBy "i32" fun n => if -2147483648 ≤ n ∧ n < 2147483648 then some (.ofInt n) else none

/-- A 64-bit word. -/
def word64 : Reader UInt64 :=
  wholeBy "u64" fun n => if 0 ≤ n ∧ n < 18446744073709551616 then some (.ofNat n.toNat) else none

/-! ## Lists -/

/-- Whether another item follows in an open list; `first` says that none has been read. -/
def moreItems (first : Bool) : Reader Bool := do
  match ← peekToken with
  | none => Reader.failAhead .endInList
  | some b =>
    if is b ']' then pure false
    else if first then pure true
    else if is b ',' then
      Reader.skip
      match ← peekToken with
      | none => Reader.failAhead .endInValue
      | some b => if is b ']' then Reader.failAhead .trailingComma else pure true
    else Reader.failAhead .wantCommaInList

/-- The items of an open list, up to its end. -/
def items {α : Type} (item : Reader α) : (fuel : List UInt8) → (first : Bool) → Reader (List α)
  | [], _ => Reader.failAhead .endInList
  | _ :: fuel, first => do
    if ← moreItems first then
      let a ← item
      let rest ← items item fuel false
      pure (a :: rest)
    else pure []

/-- Reads the end of a list; a comma in front of it has a fault of its own. -/
def listEnd : Reader Unit := do
  match ← peekToken with
  | none => Reader.failAhead .endInList
  | some b =>
    if is b ']' then Reader.skip
    else if is b ',' then
      Reader.skip
      match ← peekToken with
      | some b => Reader.failAhead (if is b ']' then .trailingComma else .trailing)
      | none => Reader.failAhead .trailing
    else Reader.failAhead .trailing

/-- Reads a list of items. -/
def list {α : Type} (item : Reader α) : Reader (List α) := do
  let b ← valueStart
  if is b '[' then
    Reader.placed ((do Reader.skip; items item (← Reader.ahead) true) |>.closedBy listEnd)
  else wrongKind "a sequence"

/-! ## Objects -/

/-- Whether another member follows in an open object; `first` says that none has been read. -/
def moreMembers (first : Bool) : Reader Bool := do
  match ← peekToken with
  | none => Reader.failAhead .endInObject
  | some b =>
    if is b '\x7d' then pure false
    else if is b ',' && !first then
      Reader.skip
      match ← peekToken with
      | none => Reader.failAhead .endInValue
      | some b =>
        if is b '"' then pure true
        else if is b '\x7d' then Reader.failAhead .trailingComma
        else Reader.failAhead .keyNotText
    else if first then
      if is b '"' then pure true else Reader.failAhead .keyNotText
    else Reader.failAhead .wantCommaInObject

/-- Reads the end of an object; a comma in front of it has a fault of its own. -/
def objectEnd : Reader Unit := do
  match ← peekToken with
  | none => Reader.failAhead .endInObject
  | some b =>
    if is b '\x7d' then Reader.skip
    else Reader.failAhead (if is b ',' then .trailingComma else .trailing)

/-- Takes the name of a member, whose quote is ahead. -/
def memberName : Reader String := do
  Reader.skip
  readText

/-- Takes the colon behind the name of a member. -/
def colon : Reader Unit := do
  match ← peekToken with
  | none => Reader.failAhead .endInObject
  | some b => if is b ':' then Reader.skip else Reader.failAhead .wantColon

/-- The members of an open object, up to its end, in order. -/
def textMembers : (fuel : List UInt8) → (first : Bool) → Reader (List (String × String))
  | [], _ => Reader.failAhead .endInObject
  | _ :: fuel, first => do
    if ← moreMembers first then
      let name ← memberName
      colon
      let value ← text
      let rest ← textMembers fuel false
      pure ((name, value) :: rest)
    else pure []

/-- An object whose values are texts. -/
def textMap : Reader (List (String × String)) := do
  let b ← valueStart
  if is b '\x7b' then
    Reader.placed ((do Reader.skip; textMembers (← Reader.ahead) true) |>.closedBy objectEnd)
  else wrongKind "a map"

/-! ## Records -/

/-- A field of a record under construction: its name, whether it may be left out, and a reader of
    its value that gives the step storing it. -/
structure Member (σ : Type) where
  name : String
  optional : Bool
  read : Reader (σ → σ)

/-- A record: its name, its fields in declaration order, and its value before any field is
    read. -/
structure Layout (σ : Type) where
  name : String
  fields : List (Member σ)
  blank : σ

namespace Layout

variable {σ : Type}

/-- What a message calls the record when its list form is too short. -/
def sizedName (l : Layout σ) : String :=
  let n := l.fields.length
  s!"struct {l.name} with {n} element" ++ if n = 1 then "" else "s"

/-- The first field that must be there and was not seen. -/
def firstMissing? (l : Layout σ) (seen : List String) : Option String :=
  (l.fields.find? fun f => !f.optional && !seen.contains f.name).map Member.name

/-- The members of an open object, stored one after another. -/
def members (l : Layout σ) :
    (fuel : List UInt8) → (first : Bool) → List String → σ → Reader σ
  | [], _, _, _ => Reader.failAhead .endInObject
  | _ :: fuel, first, seen, record => do
    if ← moreMembers first then
      let name ← memberName
      match l.fields.find? fun f => f.name == name with
      | none =>
        colon
        skipValue
        members l fuel false seen record
      | some field =>
        if seen.contains name then Reader.raise (.repeatedField name)
        else
          colon
          let store ← field.read
          members l fuel false (name :: seen) (store record)
    else
      match l.firstMissing? seen with
      | some name => Reader.raise (.missingField name)
      | none => pure record

/-- The items of an open list, stored in declaration order; optional fields may be cut off. -/
def positions (wanted : String) : List (Member σ) → (index : Nat) → σ → Reader σ
  | [], _, record => pure record
  | field :: rest, index, record => do
    if ← moreItems (index == 0) then
      let store ← field.read
      positions wanted rest (index + 1) (store record)
    else if field.optional then positions wanted rest (index + 1) record
    else Reader.raise (.tooShort index wanted)

/-- A record in either form. -/
def read (l : Layout σ) : Reader σ := do
  let b ← valueStart
  if is b '\x7b' then
    Reader.placed
      ((do Reader.skip; l.members (← Reader.ahead) true [] l.blank) |>.closedBy objectEnd)
  else if is b '[' then
    Reader.placed
      ((do Reader.skip; positions l.sizedName l.fields 0 l.blank) |>.closedBy listEnd)
  else wrongKind s!"struct {l.name}"

end Layout

/-- Reads a whole text as one value; only white space may follow it. -/
def decode {α : Type} (r : Reader α) (bytes : List UInt8) : Except Fault α :=
  let whole : Reader α := do
    let a ← r
    match ← peekToken with
    | some _ => Reader.failAhead .trailing
    | none => pure a
  (whole ⟨bytes, {}⟩).1

end Courier.Json
