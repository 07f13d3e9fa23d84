import Courier.Text.Escaped

/-! # TOML texts — the four kinds of quotes

    Double quotes have escapes inside, single quotes have none.  Three
    quotes open a text of many lines; a line break right behind them does
    not belong to it, a backslash at the end of a line joins the lines, and
    up to two quotes may stand in front of the closing three. -/

namespace Courier.Toml

/-- White space on a line. -/
def isSpace (c : Char) : Bool := c == ' ' || c == '\t'

/-- Whether the character may stand on a line: a tab, or no control. -/
def isPlain (c : Char) : Bool := c == '\t' || (32 ≤ c.toNat && c.toNat != 127)

/-- Whether the character may stand in a text of many lines. -/
def isPlainOrBreak (c : Char) : Bool := c == '\n' || isPlain c

/-- What is read from the front of a text, and the rest. -/
abbrev Reading (α : Type) : Type := Option (α × List Char)

/-- The text of one line behind its double quote. -/
def lineText (cs : List Char) : Reading (List Char) := Text.readQuoted isPlain cs

/-- The text without escapes behind its single quote. -/
def literalText : List Char → Reading (List Char)
  | [] => none
  | c :: rest =>
    if c = '\'' then some ([], rest)
    else if isPlain c then Text.push (some c) (literalText rest)
    else none

/-- The end of a text of many lines behind a first quote: up to two quotes of the text, then
    three more in all. -/
def blockEnd? (quote : Char) (rest : List Char) : Reading (List Char) :=
  let count := (rest.takeWhile (· == quote)).length
  if count < 2 then none
  else
    let extra := min (count - 2) 2
    some (List.replicate extra quote, rest.drop (extra + 2))

/-- Whether only white space stands between here and the end of the line. -/
def endsLine (cs : List Char) : Bool := (cs.dropWhile isSpace).head? == some '\n'

/-- A text of many lines behind its double quotes; `joining` says that white space is left
    out. -/
def blockText (joining : Bool) : List Char → Reading (List Char)
  | [] => none
  | c :: rest =>
    if joining && (isSpace c || c == '\n') then blockText true rest
    else if c = '"' then
      match blockEnd? '"' rest with
      | some found => some found
      | none => Text.push (some '"') (blockText false rest)
    else if c = '\\' then
      if endsLine rest then blockText true rest
      else
        match rest with
        | 'u' :: a :: b :: c :: d :: more =>
          Text.push (Text.numberedChar? [a, b, c, d]) (blockText false more)
        | 'U' :: a :: b :: c :: d :: e :: f :: g :: h :: more =>
          Text.push (Text.numberedChar? [a, b, c, d, e, f, g, h]) (blockText false more)
        | c :: more => Text.push (Text.escapedChar? c) (blockText false more)
        | [] => none
    else if isPlainOrBreak c then Text.push (some c) (blockText false rest)
    else none

/-- A text of many lines behind its single quotes. -/
def literalBlock : List Char → Reading (List Char)
  | [] => none
  | c :: rest =>
    if c = '\'' then
      match blockEnd? '\'' rest with
      | some found => some found
      | none => Text.push (some '\'') (literalBlock rest)
    else if isPlainOrBreak c then Text.push (some c) (literalBlock rest)
    else none

/-- The text without one line break in front. -/
def skipBreak : List Char → List Char
  | '\n' :: rest => rest
  | cs => cs

/-- A text in quotes of any kind, with or without line breaks in it. -/
def quotedText (cs : List Char) : Reading (List Char) :=
  match cs with
  | '"' :: '"' :: '"' :: rest => blockText false (skipBreak rest)
  | '"' :: rest => lineText rest
  | '\'' :: '\'' :: '\'' :: rest => literalBlock (skipBreak rest)
  | '\'' :: rest => literalText rest
  | _ => none

/-- Whether the character may stand in a bare key. -/
def isKeyChar (c : Char) : Bool := c.isAlphanum || c == '_' || c == '-'

/-- A part of a key: a text in quotes on one line, or a bare name. -/
def keyPart (cs : List Char) : Reading String :=
  match cs with
  | '"' :: rest => (lineText rest).map fun (s, rest) => (String.ofList s, rest)
  | '\'' :: rest => (literalText rest).map fun (s, rest) => (String.ofList s, rest)
  | _ =>
    let name := cs.takeWhile isKeyChar
    if name.isEmpty then none else some (String.ofList name, cs.dropWhile isKeyChar)

/-- The text without white space in front. -/
def skipSpace (cs : List Char) : List Char := cs.dropWhile isSpace

/-- The parts of a key between points. -/
def keyParts : (fuel : Nat) → List Char → Reading (List String)
  | 0, _ => none
  | fuel + 1, cs =>
    match keyPart (skipSpace cs) with
    | none => none
    | some (part, rest) =>
      match skipSpace rest with
      | '.' :: rest => (keyParts fuel rest).map fun (parts, rest) => (part :: parts, rest)
      | rest => some ([part], rest)

/-- How deep keys, lists and tables may be nested. -/
def depthLimit : Nat := 79

/-- A key: at least one part, and not more than may be nested. -/
def key (cs : List Char) : Reading (List String) := keyParts depthLimit cs

end Courier.Toml
