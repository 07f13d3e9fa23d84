import Courier.Url.Basic
import Courier.Url.Percent

/-! # Segments — walking and extending the path of a URL

    A segment of one dot stands for the place reached, one of two dots for
    the place before; both leave an empty segment at the end of a path.  A
    path that is extended takes the new segments one by one, without those
    that are only dots. -/

namespace Courier.Url

/-- Whether the character is a tab or a line break, which URLs leave out. -/
def isDropped (c : Char) : Bool := c == '\t' || c == '\n' || c == '\r'

/-- Whether a segment stands for the place reached. -/
def isHere (segment : List Char) : Bool :=
  ["." , "%2e"].contains (String.ofList (segment.map Char.toLower))

/-- Whether a segment stands for the place before. -/
def isParent (segment : List Char) : Bool :=
  ["..", "%2e.", ".%2e", "%2e%2e"].contains (String.ofList (segment.map Char.toLower))

/-- Whether a segment is a drive letter, with a colon or, unless `strict`, a bar. -/
def isDrive (strict : Bool) (segment : List Char) : Bool :=
  match segment with
  | [c, mark] => c.isAlpha && (mark == ':' || (!strict && mark == '|'))
  | _ => false

/-- The segments without the last one; a drive letter of a file stays. -/
def shorten (isFile : Bool) (path : List String) : List String :=
  match path with
  | [only] => if isFile && isDrive true only.toList then path else []
  | _ => path.dropLast

/-- The path after one more segment; `last` says that no slash follows it. -/
def walk (isFile : Bool) (path : List String) (segment : List Char) (last : Bool) : List String :=
  if isParent segment then shorten isFile path ++ if last then [""] else []
  else if isHere segment then path ++ if last then [""] else []
  else if isFile && path.isEmpty && isDrive false segment then
    path ++ [String.ofList (segment.take 1 ++ [':'])]
  else path ++ [String.ofList segment]

/-- The path after all segments. -/
def walkAll (isFile : Bool) (path : List String) : List (List Char) → List String
  | [] => path
  | [segment] => walk isFile path segment true
  | segment :: rest => walkAll isFile (walk isFile path segment false) rest

/-- The path with a segment added; the empty segment of the root gives way. -/
def append (path : List String) (segment : String) : List String :=
  if path = [""] then [segment] else path ++ [segment]

/-- The path with one more segment, encoded; a segment of one or two dots is left out. -/
def extend (scheme : String) (path : List String) (segment : List Char) : List String :=
  if segment = ['.'] ∨ segment = ['.', '.'] then path
  else
    let kept := segment.filter fun c => !isDropped c
    if kept = ['.'] then append path ""
    else if kept = ['.', '.'] then append (shorten (scheme == "file") path) ""
    else
      let set := if isSpecial scheme then specialSegmentSet else segmentSet
      append path (String.ofList (encode set kept))

/-- The URL with segments added to its path, behind a final slash where there is one. -/
def extended (u : Url) (added : List String) : Except UrlFault Url :=
  match u.path with
  | .bare _ => .error .noSegments
  | .segments list =>
    let open_ := if list.getLast? = some "" then list.dropLast else list
    .ok { u with path := .segments (added.foldl (fun path s => extend u.scheme path s.toList) open_) }

end Courier.Url
