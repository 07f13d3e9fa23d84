import Courier.Number.Literal
import Courier.Settings.Tree
import Courier.Text.Blank
import Courier.Text.Escaped
import Courier.Text.Pieces

/-! # Variables — settings in the environment

    A variable whose name starts with `GOVERNOR_` sets the value behind the
    keys that the rest of its name spells, in any case; two underscores
    stand between keys.  Its text is a truth value, a number, a quoted
    text or character, a list or a table; any other text stands for
    itself. -/

namespace Courier.Variable

/-! ## Names -/

/-- What the name of every variable with a setting starts with, in lower case. -/
def leader : List Char := "governor_".toList

/-- The characters with every two underscores turned into a point. -/
def pointed : List Char → List Char
  | '_' :: '_' :: rest => '.' :: pointed rest
  | c :: rest => c :: pointed rest
  | [] => []

/-- The keys that the name of a variable spells. -/
def keys? (name : String) : Option (List String) :=
  let folded := (Text.trimChars name.toList).map Char.toLower
  if leader.isPrefixOf folded then
    let keys := Text.pieces (· == '.') (Text.trimChars (pointed (folded.drop leader.length)))
    if keys.contains [] then none else some (keys.map String.ofList)
  else none

/-! ## Values -/

/-- White space inside a value. -/
def isSpace (c : Char) : Bool := c == ' ' || c == '\t' || c == '\n' || c == '\x0c' || c == '\r'

/-- The text without white space in front. -/
def skipSpace (cs : List Char) : List Char := cs.dropWhile isSpace

/-- Whether the character ends a bare value. -/
def isSeparator (c : Char) : Bool := [',', '\x7b', '\x7d', '[', ']'].contains c

/-- Whether the character may stand in a bare key. -/
def isKeyChar (c : Char) : Bool := c.isAlphanum || c == '_' || c == '-'

/-- A bare value: a number with a point, a word, a signed number, or a text. -/
def scalar (cs : List Char) : SettingTree :=
  match (if cs.contains '.' then Double.read? cs else none) with
  | some x => .real x
  | none =>
    match Numeral.word? 64 cs with
    | some n => .unsigned n
    | none =>
      match Numeral.signed? 64 cs with
      | some n => .signed n
      | none => .text (String.ofList cs)

/-- A text between double quotes, behind the first of them. -/
def quoted (cs : List Char) : Option (String × List Char) :=
  (Text.readQuoted (fun _ => true) cs).map fun (inner, rest) => (String.ofList inner, rest)

/-- The key in front of a text: a text in quotes, or a bare name. -/
def key (cs : List Char) : Option (String × List Char) :=
  match cs with
  | '"' :: rest => quoted rest
  | _ =>
    let name := cs.takeWhile isKeyChar
    if name.isEmpty then none else some (String.ofList name, cs.dropWhile isKeyChar)

mutual

/-- The value in front of a text, with white space on both sides. -/
def value : (fuel : Nat) → List Char → Option (SettingTree × List Char)
  | 0, _ => none
  | fuel + 1, cs =>
    (inner fuel (skipSpace cs)).map fun (v, rest) => (v, skipSpace rest)

/-- A value without white space around it. -/
def inner : (fuel : Nat) → List Char → Option (SettingTree × List Char)
  | 0, _ => none
  | fuel + 1, cs =>
    match cs with
    | 't' :: 'r' :: 'u' :: 'e' :: rest => some (.bool true, rest)
    | 'f' :: 'a' :: 'l' :: 's' :: 'e' :: rest => some (.bool false, rest)
    | '\x7b' :: rest => (entries fuel rest).map fun (es, rest) => (.ofList es, rest)
    | '[' :: rest => (items fuel rest).map fun (vs, rest) => (.list vs, rest)
    | '"' :: rest => (quoted rest).map fun (s, rest) => (.text s, rest)
    | '\'' :: c :: '\'' :: rest => some (.char c, rest)
    | '\'' :: _ => none
    | _ =>
      some (scalar (Text.trimChars (cs.takeWhile fun c => !isSeparator c)),
        cs.dropWhile fun c => !isSeparator c)

/-- The items of a list behind its bracket or a comma. -/
def items : (fuel : Nat) → List Char → Option (List SettingTree × List Char)
  | 0, _ => none
  | fuel + 1, cs =>
    match cs with
    | ']' :: rest => some ([], rest)
    | _ =>
      match value fuel cs with
      | some (v, ',' :: rest) => (items fuel rest).map fun (vs, rest) => (v :: vs, rest)
      | some (v, ']' :: rest) => some ([v], rest)
      | _ => none

/-- The entries of a table behind its brace or a comma. -/
def entries : (fuel : Nat) → List Char → Option (List (String × SettingTree) × List Char)
  | 0, _ => none
  | fuel + 1, cs =>
    match cs with
    | '\x7d' :: rest => some ([], rest)
    | _ =>
      match (key (skipSpace cs)).map fun (name, rest) => (name, skipSpace rest) with
      | some (name, '=' :: rest) =>
        match value fuel rest with
        | some (v, ',' :: rest) =>
          (entries fuel rest).map fun (es, rest) => ((name, v) :: es, rest)
        | some (v, '\x7d' :: rest) => some ([(name, v)], rest)
        | _ => none
      | _ => none

end

/-- The value that the text of a variable stands for. -/
def ofText (text : String) : SettingTree :=
  let cs := Text.trimChars text.toList
  match value (3 * cs.length + 3) cs with
  | some (v, []) => v
  | _ => .text (String.ofList cs)

/-- The layer of a list of variables, of which later ones count more. -/
def layer (environment : List (String × String)) : SettingTree :=
  environment.foldl (fun layer v =>
    match keys? v.1 with
    | some keys => layer.merge (.nested (ofText v.2) keys)
    | none => layer) (.table [])

end Courier.Variable
