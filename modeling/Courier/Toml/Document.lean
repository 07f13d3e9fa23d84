import Courier.Toml.Scalar
import Courier.Toml.Table
import Courier.Toml.Text

/-! # TOML documents

    A document is read line by line: settings, and headers that say which
    table the settings below belong to.  Lists may go over many lines with
    comments between their items, tables between braces may not. -/

namespace Courier.Toml

/-- The text behind a comment, if the comment holds no control. -/
def afterComment? (cs : List Char) : Option (List Char) :=
  if (cs.takeWhile (· != '\n')).all isPlain then some (cs.dropWhile (· != '\n')) else none

/-- The text without white space, line breaks and comments in front. -/
def skipFiller : (fuel : Nat) → List Char → Option (List Char)
  | 0, _ => none
  | fuel + 1, cs =>
    match skipSpace cs with
    | '\n' :: rest => skipFiller fuel rest
    | '#' :: rest => (afterComment? rest).bind (skipFiller fuel)
    | rest => some rest

/-- The text behind the end of a line. -/
def afterLine? (cs : List Char) : Option (List Char) :=
  match skipSpace cs with
  | [] => some []
  | '\n' :: rest => some rest
  | '#' :: rest => (afterComment? rest).map skipBreak
  | _ => none

/-- The keys of the tables around a key, and the key itself. -/
def cutKey (parts : List String) : List String × String := (parts.dropLast, parts.getLast?.getD "")

/-- A value that is no list and no table. -/
def scalar (cs : List Char) : Reading SettingTree :=
  match cs with
  | '"' :: _ => (quotedText cs).map fun (s, rest) => (.text (String.ofList s), rest)
  | '\'' :: _ => (quotedText cs).map fun (s, rest) => (.text (String.ofList s), rest)
  | _ =>
    let (word, rest) := cutWord cs
    (word? word).map fun v => (v, rest)

mutual

/-- A value; lists and tables in it are nested at most `depth` deep. -/
def value : (fuel depth : Nat) → List Char → Reading SettingTree
  | 0, _, _ => none
  | fuel + 1, depth, cs =>
    match depth, cs with
    | depth + 1, '[' :: rest => (items fuel depth rest).map fun (vs, rest) => (.list vs, rest)
    | depth + 1, '\x7b' :: rest =>
      match skipSpace rest with
      | '\x7d' :: rest => some (.table [], rest)
      | rest =>
        match settings fuel depth rest with
        | some (found, rest) => (inlineTable found).map fun t => (t, rest)
        | none => none
    | _, _ => scalar cs

/-- The items of a list behind its bracket or a comma. -/
def items : (fuel depth : Nat) → List Char → Reading (List SettingTree)
  | 0, _, _ => none
  | fuel + 1, depth, cs =>
    match skipFiller (cs.length + 1) cs with
    | none => none
    | some (']' :: rest) => some ([], rest)
    | some cs =>
      match value fuel depth cs with
      | none => none
      | some (v, rest) =>
        match skipFiller (rest.length + 1) rest with
        | some (',' :: rest) => (items fuel depth rest).map fun (vs, rest) => (v :: vs, rest)
        | some (']' :: rest) => some ([v], rest)
        | _ => none

/-- The settings of a table behind its brace or a comma. -/
def settings : (fuel depth : Nat) → List Char →
    Reading (List (List String × String × SettingTree))
  | 0, _, _ => none
  | fuel + 1, depth, cs =>
    match key cs with
    | some (parts, '=' :: rest) =>
      match value fuel depth (skipSpace rest) with
      | none => none
      | some (v, rest) =>
        match skipSpace rest with
        | ',' :: rest =>
          (settings fuel depth rest).map fun (found, rest) =>
            (((cutKey parts).1, (cutKey parts).2, v) :: found, rest)
        | '\x7d' :: rest => some ([((cutKey parts).1, (cutKey parts).2, v)], rest)
        | _ => none
    | _ => none

end

/-- The line at the front of a text that is not blank there. -/
def line (cs : List Char) : Reading Line :=
  match cs with
  | '[' :: '[' :: rest =>
    match key rest with
    | some (parts, ']' :: ']' :: rest) =>
      (afterLine? rest).map fun rest => (.nextHeader (cutKey parts).1 (cutKey parts).2, rest)
    | _ => none
  | '[' :: rest =>
    match key rest with
    | some (parts, ']' :: rest) =>
      (afterLine? rest).map fun rest => (.header (cutKey parts).1 (cutKey parts).2, rest)
    | _ => none
  | _ =>
    match key cs with
    | some (parts, '=' :: rest) =>
      match value (3 * rest.length + 3) depthLimit (skipSpace rest) with
      | some (v, rest) =>
        (afterLine? rest).map fun rest => (.setting (cutKey parts).1 (cutKey parts).2 v, rest)
      | none => none
    | _ => none

/-- The lines of a document; none where one of them is malformed. -/
def lines : (fuel : Nat) → List Char → Option (List Line)
  | 0, _ => none
  | fuel + 1, cs =>
    match skipFiller (cs.length + 1) cs with
    | none => none
    | some [] => some []
    | some cs =>
      match line cs with
      | some (l, rest) => (lines fuel rest).map (l :: ·)
      | none => none

/-- The characters with every line break written as one. -/
def unifyBreaks : List Char → List Char
  | '\r' :: '\n' :: rest => '\n' :: unifyBreaks rest
  | c :: rest => c :: unifyBreaks rest
  | [] => []

/-- The text without a byte order mark in front. -/
def skipMark : List Char → List Char
  | '\ufeff' :: rest => rest
  | cs => cs

/-- The table that a document stands for. -/
def parse? (document : String) : Option SettingTree :=
  let cs := skipMark (unifyBreaks document.toList)
  match (lines (cs.length + 1) cs).bind (addLines [] []) with
  | some entries => some (.table (entryTrees entries))
  | none => none

end Courier.Toml
