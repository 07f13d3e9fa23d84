import Courier.Text.Pieces

/-! # Paths — texts that lead from directory to directory

    Between its slashes a path has pieces.  Empty pieces and pieces of one
    dot say nothing, except that a slash in front is the root and a dot in
    front is the place where the path starts. -/

namespace Courier

/-- What one part of a path says. -/
inductive PathPart where
  | root
  | here
  | parent
  | name (text : String)
  deriving DecidableEq, Repr

namespace Path

/-- What a piece between slashes says, if it says anything. -/
def partOf? (piece : List Char) : Option PathPart :=
  if piece = [] ∨ piece = ['.'] then none
  else if piece = ['.', '.'] then some .parent
  else some (.name (String.ofList piece))

/-- The pieces of a path between its slashes. -/
def slashed (path : String) : List (List Char) := Text.pieces (· == '/') path.toList

/-- What the first piece of a path says on top. -/
def lead (path : String) : List PathPart :=
  match slashed path with
  | [] :: _ :: _ => [.root]
  | ['.'] :: _ => [.here]
  | _ => []

/-- What all pieces of a path say, in order. -/
def parts (path : String) : List PathPart := lead path ++ (slashed path).filterMap partOf?

/-- Whether the path starts at the root. -/
def isAbsolute (path : String) : Bool := path.toList.head? == some '/'

/-- A path behind another one; one that starts at the root stands alone. -/
def join (base added : String) : String :=
  if isAbsolute added then added
  else if base = "" ∨ base.toList.getLast? = some '/' then base ++ added
  else base ++ "/" ++ added

/-- Whether the text is a single name, whatever slashes and dots follow it. -/
def isPlain (segment : String) : Bool :=
  match parts segment with
  | [.name _] => true
  | _ => false

end Path

end Courier
