import Courier.Url.Host
import Courier.Url.Segments

/-! # Reading URLs

    A URL without a base: controls and spaces around it and tabs and line
    breaks in it are left out; then come the scheme, the authority where
    two slashes (or, for special schemes, any number) say so, the path, the
    query and the fragment. -/

namespace Courier.Url

/-- The characters that count: no controls or spaces at the ends, no tabs or line breaks. -/
def significant (s : String) : List Char :=
  let isEdge (c : Char) : Bool := c.toNat ≤ 32
  let trimmed := ((s.toList.dropWhile isEdge).reverse.dropWhile isEdge).reverse
  trimmed.filter fun c => !isDropped c

/-- The scheme in lower case, and what follows its colon. -/
def scheme? (cs : List Char) : Option (String × List Char) :=
  let isPart (c : Char) : Bool := c.isAlphanum || c == '+' || c == '-' || c == '.'
  match cs.takeWhile isPart, cs.dropWhile isPart with
  | first :: rest, ':' :: behind =>
    if first.isAlpha then some (String.ofList ((first :: rest).map Char.toLower), behind) else none
  | _, _ => none

/-- Path, query and fragment of a text, not yet encoded. -/
def cutTail (cs : List Char) : List Char × Option (List Char) × Option (List Char) :=
  let front := cs.takeWhile (· ≠ '#')
  let fragment := (cs.dropWhile (· ≠ '#')).tail?
  let path := front.takeWhile (· ≠ '?')
  let query := (front.dropWhile (· ≠ '?')).tail?
  (path, query, fragment)

/-- The URL with a query and a fragment, encoded as its scheme asks for. -/
def withTail (u : Url) (query fragment : Option (List Char)) : Url :=
  let set := if isSpecial u.scheme then specialQuerySet else querySet
  { u with
    query := query.map fun q => String.ofList (encode set q)
    fragment := fragment.map fun f => String.ofList (encode fragmentSet f) }

/-- Whether the character ends a segment of a path. -/
def endsSegment (special : Bool) (c : Char) : Bool := c == '/' || (special && c == '\\')

/-- The segments of a path behind its first slash. -/
def segmentsOf (scheme : String) (cs : List Char) : List String :=
  let raw := Text.pieces (endsSegment (isSpecial scheme)) cs
  walkAll (scheme == "file") [] (raw.map (encode pathSet))

/-- The text without one slash in front. -/
def withoutSlash (special : Bool) : List Char → List Char
  | c :: rest => if endsSegment special c then rest else c :: rest
  | [] => []

/-- The user name and password of an authority, and the rest behind the last at sign. -/
def userinfo (cs : List Char) : String × String × List Char :=
  if !cs.contains '@' then ("", "", cs)
  else
    let behind := (cs.reverse.takeWhile (· ≠ '@')).reverse
    let before := cs.take (cs.length - behind.length - 1)
    let name := before.takeWhile (· ≠ ':')
    let password := (before.dropWhile (· ≠ ':')).drop 1
    (String.ofList (encode userinfoSet name), String.ofList (encode userinfoSet password), behind)

/-- The host of an authority and what follows it: a colon ends it outside brackets. -/
def cutHost : (inside : Bool) → List Char → List Char × List Char
  | _, [] => ([], [])
  | inside, c :: rest =>
    if c = ':' ∧ !inside then ([], c :: rest)
    else
      let inside := if c = '[' then true else if c = ']' then false else inside
      let (host, behind) := cutHost inside rest
      (c :: host, behind)

/-- The port behind a colon; a default port is left out. -/
def portOf (scheme : String) (cs : List Char) : Except UrlFault (Option Nat) :=
  if cs.isEmpty then .ok none
  else if cs.all fun c => '0' ≤ c ∧ c ≤ '9' then
    let n := cs.foldl (fun acc c => acc * 10 + (c.toNat - 48)) 0
    if 65535 < n then .error .badPort
    else .ok (if defaultPort? scheme = some n then none else some n)
  else .error .badPort

/-- A URL with an authority, from behind its two slashes. -/
def withAuthority (scheme : String) (cs : List Char) : Except UrlFault Url := do
  let special := isSpecial scheme
  let ends (c : Char) : Bool := c == '/' || c == '?' || c == '#' || (special && c == '\\')
  let authority := cs.takeWhile fun c => !ends c
  let behind := cs.dropWhile fun c => !ends c
  let (username, password, rest) := userinfo authority
  let (hostText, portText) := cutHost false rest
  let hostNeeded : Bool := special || !portText.isEmpty || username ≠ "" || password ≠ ""
    || (authority == ['@'] && !behind.isEmpty)
  if hostText.isEmpty && hostNeeded then .error .emptyHost
  else
    let host ← if special then parseHost hostText else parseBareHost hostText
    let port ← portOf scheme (portText.drop 1)
    let (path, query, fragment) := cutTail behind
    let segments :=
      if path.isEmpty ∧ !special then [] else segmentsOf scheme (withoutSlash special path)
    .ok (withTail { scheme, username, password, host := some host, port, path := .segments segments }
      query fragment)

/-- The segments of a file's path: empty ones in front are left out. -/
def fileSegments (cs : List Char) : List String :=
  let list := segmentsOf "file" cs
  match list.dropWhile (· == "") with
  | [] => [""]
  | kept => kept

/-- A file URL, from behind the colon of its scheme. -/
def file (cs : List Char) : Except UrlFault Url := do
  let slash (c : Char) : Bool := c == '/' || c == '\\'
  let finish (host : String) (path : List Char) : Url :=
    let (path, query, fragment) := cutTail path
    withTail { scheme := "file", host := some host, path := .segments (fileSegments path) } query fragment
  match cs with
  | a :: b :: rest =>
    if slash a && slash b then
      let ends (c : Char) : Bool := slash c || c == '?' || c == '#'
      let name := rest.takeWhile fun c => !ends c
      let behind := rest.dropWhile fun c => !ends c
      if isDrive false name then .ok (finish "" rest)
      else if name.isEmpty then .ok (finish "" behind)
      else
        let host ← parseHost name
        .ok (finish (if host = "localhost" then "" else host) behind)
    else .ok (finish "" cs)
  | _ => .ok (finish "" cs)

/-- A URL without an authority, from behind the colon of its scheme. -/
def withoutAuthority (scheme : String) (cs : List Char) : Url :=
  let (path, query, fragment) := cutTail cs
  let path : Path :=
    match path with
    | '/' :: rest => .segments (segmentsOf scheme rest)
    | _ => .bare (String.ofList (encode [] path))
  withTail { scheme, path } query fragment

/-- The URL that a text stands for. -/
def parse (s : String) : Except UrlFault Url :=
  match scheme? (significant s) with
  | none => .error .noScheme
  | some ("file", rest) => file rest
  | some (scheme, rest) =>
    if isSpecial scheme then
      withAuthority scheme (rest.dropWhile fun c => c == '/' || c == '\\')
    else
      match rest with
      | '/' :: '/' :: behind => withAuthority scheme behind
      | _ => .ok (withoutAuthority scheme rest)

end Courier.Url
