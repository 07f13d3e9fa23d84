import Courier.Text.Alphanumeric
import Courier.Text.Blank
import Courier.Text.Utf8

/-! # Variable files — variables from a file

    Each line of the file sets a variable, which the environment overrules.
    A value goes up to white space, quotes keep white space and line breaks
    in it, and dollar signs put other variables into it.  The first line
    that is malformed ends the file. -/

namespace Courier.VariableFile

/-! ## Lines -/

/-- What the end of a line means. -/
inductive LineState where
  | complete
  | escape
  | single
  | singleEscape
  | double
  | doubleEscape
  | space
  deriving DecidableEq

/-- The state after one more character; none where a comment starts. -/
def LineState.next? (s : LineState) (c : Char) : Option LineState :=
  let bare : LineState :=
    if c = '\\' then escape
    else if c = '"' then double
    else if c = '\'' then single
    else complete
  match s with
  | space => if c = '#' then none else some bare
  | escape => some complete
  | complete => some (if Text.isBlank c ∧ c ≠ '\n' ∧ c ≠ '\r' then space else bare)
  | double => some (if c = '\\' then doubleEscape else if c = '"' then complete else double)
  | doubleEscape => some double
  | single => some (if c = '\\' then singleEscape else if c = '\'' then complete else single)
  | singleEscape => some single

/-- The state at the end of a piece of a line, or how many characters stand before a comment. -/
def scan : LineState → (count : Nat) → List Char → LineState ⊕ Nat
  | s, _, [] => .inl s
  | s, count, c :: rest =>
    match s.next? c with
    | some s => scan s (count + 1) rest
    | none => .inr count

/-- The lines of a text or of bytes, each with its line break. -/
def rawLines {α : Type} [DecidableEq α] (lineBreak : α) : List α → List (List α)
  | [] => []
  | c :: rest =>
    if c = lineBreak then [c] :: rawLines lineBreak rest
    else
      match rawLines lineBreak rest with
      | first :: more => (c :: first) :: more
      | [] => [[c]]

/-- The text of a file, up to the first line that is no text. -/
def readable (bytes : List UInt8) : List Char :=
  let lines := (rawLines 10 bytes).map Utf8.decode?
  ((lines.takeWhile Option.isSome).filterMap id).flatten

/-- The text without a line break at its end. -/
def withoutBreak (cs : List Char) : List Char :=
  match cs.reverse with
  | '\n' :: '\r' :: rest => rest.reverse
  | '\n' :: rest => rest.reverse
  | _ => cs

/-- Whether nothing but a comment stands on the line. -/
def isComment (cs : List Char) : Bool := (cs.dropWhile Text.isBlank).head? == some '#'

/-- Joins the lines of values that go over many; `open_` is what was read of a line so far.  An
    open line at the end is none. -/
def joined (s : LineState) (open_ : List Char) : List (List Char) → List (Option (List Char))
  | [] => if s = .complete then [] else [none]
  | piece :: rest =>
    let whole := open_ ++ piece
    if isComment whole then some [] :: joined .complete [] rest
    else
      match scan s 0 piece with
      | .inr count => some (open_ ++ piece.take count) :: joined .complete [] rest
      | .inl .complete => some (withoutBreak whole) :: joined .complete [] rest
      | .inl s => joined s whole rest

/-! ## Values -/

/-- What a dollar sign has opened. -/
inductive Reference where
  | nothing
  | bare (name : List Char)
  | braced (name : List Char)

/-- Where the reading of a value stands. -/
structure ValueState where
  output : List Char := []
  single : Bool := false
  double : Bool := false
  escaped : Bool := false
  ended : Bool := false
  reference : Reference := .nothing

/-- The state with text put at the end of the value. -/
def ValueState.put (s : ValueState) (cs : List Char) : ValueState :=
  { s with output := s.output ++ cs }

/-- The state after one more character of a bare reference, whose name goes on with letters and
    digits, or of the start of one. -/
def ValueState.refer (s : ValueState) (look : List Char → List Char) (c : Char) : ValueState :=
  match s.reference with
  | .nothing => s
  | .bare name =>
    if Text.isAlphanumeric c then { s with reference := .bare (name ++ [c]) }
    else if c = '\x7b' ∧ name = [] then { s with reference := .braced [] }
    else
      let s := s.put (look name)
      if c = '$' then { s with reference := .bare [] }
      else { s.put [c] with reference := .nothing }
  | .braced name =>
    if c = '\x7d' then { s.put (look name) with reference := .nothing }
    else { s with reference := .braced (name ++ [c]) }

/-- The state after one more character; none at a malformed place. -/
def ValueState.next? (s : ValueState) (look : List Char → List Char) (c : Char) :
    Option ValueState :=
  if s.escaped then
    let s := { s with escaped := false }
    if c = 'n' then some (s.put ['\n'])
    else if ['\\', '\'', '"', '$', ' '].contains c then some (s.put [c])
    else none
  else if s.single then some (if c = '\'' then { s with single := false } else s.put [c])
  else
    match s.reference with
    | .bare _ => some (s.refer look c)
    | .braced _ => some (s.refer look c)
    | .nothing =>
      if c = '$' then some { s with reference := .bare [] }
      else if s.double then
        if c = '"' then some { s with double := false }
        else if c = '\\' then some { s with escaped := true }
        else some (s.put [c])
      else if c = '\'' then some { s with single := true }
      else if c = '"' then some { s with double := true }
      else if c = '\\' then some { s with escaped := true }
      else if c = ' ' ∨ c = '\t' then some { s with ended := true }
      else some (s.put [c])

/-- The value that ends here, if nothing is left open. -/
def ValueState.finish (s : ValueState) (look : List Char → List Char) : Option (List Char) :=
  match s.reference with
  | .braced _ => none
  | .bare name => if s.single || s.double then none else some (s.output ++ look name)
  | .nothing => if s.single || s.double then none else some s.output

/-- The value in a text; behind its end only white space and a comment may stand. -/
def valueFrom (look : List Char → List Char) : ValueState → List Char → Option (List Char)
  | s, [] => s.finish look
  | s, c :: rest =>
    if s.ended then
      if c = ' ' ∨ c = '\t' then valueFrom look s rest
      else if c = '#' then s.finish look
      else none
    else
      match s.next? look c with
      | some s => valueFrom look s rest
      | none => none

/-! ## Settings of variables -/

/-- The text without blank characters in front. -/
def skipBlank (cs : List Char) : List Char := cs.dropWhile Text.isBlank

/-- The name in front of a text, if there is one, and what follows it. -/
def name? (cs : List Char) : Option (List Char × List Char) :=
  let isRest := fun c : Char => c.isAlphanum || c == '_' || c == '.'
  match cs with
  | [] => none
  | c :: _ =>
    if c.isAlpha || c == '_' then some (cs.takeWhile isRest, cs.dropWhile isRest) else none

/-- A name, and what follows the equals sign behind it; a word `export` in front is left out. -/
def assigned? (cs : List Char) : Option (List Char × List Char) := do
  let (name, rest) ← name? cs
  match skipBlank rest with
  | '=' :: rest => some (name, rest)
  | rest =>
    if name = "export".toList then
      let (name, rest) ← name? rest
      match skipBlank rest with
      | '=' :: rest => some (name, rest)
      | _ => none
    else none

/-- The value of a variable: of two with one name the earlier one. -/
def lookIn (environment : List (String × String)) (name : String) : Option String :=
  environment.lookup name

/-- What the file has set so far, and the environment with it. -/
structure Progress where
  environment : List (String × String)
  /-- The values in the file itself, the last one first. -/
  own : List (String × String) := []

/-- The text that a reference stands for: a variable, or else a value of the file. -/
def Progress.look (p : Progress) (name : List Char) : List Char :=
  let name := String.ofList name
  ((lookIn p.environment name <|> lookIn p.own name).getD "").toList

/-- What is set after one more variable, which the environment overrules. -/
def Progress.set (p : Progress) (name value : List Char) : Progress :=
  let name := String.ofList name
  let value := String.ofList value
  { environment := if (lookIn p.environment name).isSome then p.environment
      else p.environment ++ [(name, value)]
    own := (name, value) :: p.own }

/-- What is set after one more line; none where it is malformed. -/
def Progress.addLine (p : Progress) (line : List Char) : Option Progress :=
  let line := skipBlank (line.reverse.dropWhile Text.isBlank).reverse
  if line.isEmpty || line.head? == some '#' then some p
  else
    match assigned? line with
    | none => none
    | some (name, rest) =>
      let rest := skipBlank rest
      if rest.isEmpty || rest.head? == some '#' then some (p.set name [])
      else (valueFrom p.look {} rest).map (p.set name)

/-- What is set after all lines up to the first malformed one. -/
def Progress.addLines (p : Progress) : List (Option (List Char)) → Progress
  | some line :: rest =>
    match p.addLine line with
    | some p => p.addLines rest
    | none => p
  | _ => p

/-- The variables of the environment, and behind them those that a file adds. -/
def extend (environment : List (String × String)) (file : List UInt8) : List (String × String) :=
  let cs := match readable file with
    | '\ufeff' :: rest => rest
    | cs => cs
  (Progress.addLines ⟨environment, []⟩ (joined .complete [] (rawLines '\n' cs))).environment

/-- The first variable that a file cannot add to the environment: its value has a NUL in it. -/
def unsettable? (environment : List (String × String)) (file : List UInt8) : Option String :=
  let added := (extend environment file).drop environment.length
  (added.find? fun entry => entry.2.toList.contains '\x00').map Prod.fst

end Courier.VariableFile
