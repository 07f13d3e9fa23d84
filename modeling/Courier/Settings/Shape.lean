import Courier.Settings.Fault
import Courier.Url.Parse

/-! # Shapes — reading settings off a tree

    A shape lists the keys of a table with a reader each.  The entries of a
    table are read in the order of their keys, and the first that cannot
    be read is the fault; a list in place of a table gives the values in
    the order of the shape.  What is not given keeps its start value. -/

namespace Courier

/-- A reader of one setting from a tree. -/
abbrev SettingReader (α : Type) : Type := SettingTree → Except SettingFault α

namespace SettingReader

/-- A value of another kind than wanted. -/
def wrongKind {α : Type} (wanted : String) (t : SettingTree) : Except SettingFault α :=
  .error ⟨[], .wrongKind t wanted⟩

/-- A text, or a single character. -/
def text (wanted : String) : SettingReader String
  | .text s => .ok s
  | .char c => .ok (String.ofList [c])
  | t => wrongKind wanted t

/-- A truth value. -/
def bool : SettingReader Bool
  | .bool b => .ok b
  | t => wrongKind "a boolean" t

/-- A whole number of at most `bits` binary digits. -/
def word (bits : Nat) (wanted : String) : SettingReader Nat
  | .unsigned n => if n < Nat.pow 2 bits then .ok n else .error ⟨[], .outOfRange (.unsigned n) wanted⟩
  | .signed n =>
    if 0 ≤ n ∧ n < Nat.pow 2 bits then .ok n.toNat else .error ⟨[], .outOfRange (.signed n) wanted⟩
  | t => wrongKind wanted t

/-- A number of 32 bits. -/
def word32 : SettingReader UInt32 := fun t => (word 32 "u32" t).map .ofNat

/-- A number of 64 bits. -/
def word64 : SettingReader UInt64 := fun t => (word 64 "u64" t).map .ofNat

/-- Reads a URL from its text. -/
def url : SettingReader Url := fun t =>
  match text "a string representing an URL" t with
  | .error fault => .error fault
  | .ok s =>
    match Url.parse s with
    | .ok u => .ok u
    | .error fault => .error ⟨[], .badValue (fault.message ++ ": " ++ Text.quoted s)⟩

/-- A value that may be absent. -/
def optional {α : Type} (read : SettingReader α) : SettingReader (Option α)
  | .absent => .ok none
  | t => (read t).map some

end SettingReader

/-- A key of a table, and how its value goes into the whole. -/
structure Slot (σ : Type) where
  key : String
  read : SettingTree → Except SettingFault (σ → σ)

/-- A slot that reads one value and stores it. -/
def Slot.of {σ α : Type} (key : String) (read : SettingReader α) (store : α → σ → σ) : Slot σ :=
  ⟨key, fun t => (read t).map store⟩

/-- The keys of a table; whether other keys are refused. -/
structure Shape (σ : Type) where
  name : String
  slots : List (Slot σ)
  isStrict : Bool

namespace Shape

variable {σ : Type}

/-- The keys that a table may have. -/
def keys (s : Shape σ) : List String := s.slots.map Slot.key

/-- Reads the entries of a table in their order. -/
def readEntries (s : Shape σ) (start : σ) : List (String × SettingTree) → Except SettingFault σ
  | [] => .ok start
  | (key, value) :: rest =>
    match s.slots.find? fun slot => slot.key == key with
    | some slot =>
      match slot.read value with
      | .ok store => s.readEntries (store start) rest
      | .error fault => .error (fault.under key)
    | none =>
      if s.isStrict then .error ⟨[key], .unknownKey key s.keys⟩ else s.readEntries start rest

/-- Reads values in the order of the slots, the first of them at position `index`. -/
def readItems (index : Nat) (start : σ) : List (Slot σ) → List SettingTree → Except SettingFault σ
  | slot :: slots, value :: rest =>
    match slot.read value with
    | .ok store => readItems (index + 1) (store start) slots rest
    | .error fault => .error (fault.under (toString index))
  | _, _ => .ok start

/-- Reads a table, or a list in its place. -/
def read (s : Shape σ) (start : σ) : SettingReader σ
  | .table entries => s.readEntries start entries
  | .list items => readItems 0 start s.slots items
  | t => SettingReader.wrongKind ("struct " ++ s.name) t

end Shape

end Courier
