/-! # URLs — their parts, and their text -/

namespace Courier

/-- The path of a URL: text that is no list of segments, or segments. -/
inductive Url.Path where
  | bare (text : String)
  | segments (list : List String)
  deriving DecidableEq

/-- A URL. An absent host means that the URL has no authority at all. -/
structure Url where
  scheme : String
  username : String := ""
  password : String := ""
  host : Option String := none
  port : Option Nat := none
  path : Url.Path
  query : Option String := none
  fragment : Option String := none
  deriving DecidableEq

/-- Why a text is no URL, or a URL cannot be extended. -/
inductive UrlFault where
  | emptyHost
  | badDomain
  | badPort
  | badIpv4
  | badIpv6
  | badHostCharacter
  | noScheme
  | noSegments
  deriving DecidableEq

/-- The fault in words. -/
def UrlFault.message : UrlFault → String
  | emptyHost => "empty host"
  | badDomain => "invalid international domain name"
  | badPort => "invalid port number"
  | badIpv4 => "invalid IPv4 address"
  | badIpv6 => "invalid IPv6 address"
  | badHostCharacter => "invalid domain character"
  | noScheme => "relative URL without a base"
  | noSegments => "relative URL with a cannot-be-a-base base"

namespace Url

/-- The schemes whose URLs always have a host, with the ports that are left out. -/
def defaultPort? : String → Option Nat
  | "http" => some 80
  | "https" => some 443
  | "ws" => some 80
  | "wss" => some 443
  | "ftp" => some 21
  | _ => none

/-- Whether URLs of the scheme follow the rules for special schemes. -/
def isSpecial (scheme : String) : Bool := scheme == "file" || (defaultPort? scheme).isSome

/-- The text of a path. -/
def Path.text : Path → String
  | bare text => text
  | segments list => String.join (list.map fun s => "/" ++ s)

/-- User name and password in front of a host. -/
def credentialsText (u : Url) : String :=
  if u.username = "" ∧ u.password = "" then ""
  else u.username ++ (if u.password = "" then "" else ":" ++ u.password) ++ "@"

/-- The port behind a host. -/
def portText (u : Url) : String :=
  match u.port with
  | some port => ":" ++ toString port
  | none => ""

/-- The path, marked where its text would read as a host. -/
def pathText (u : Url) : String :=
  match u.host, u.path with
  | none, .segments ("" :: _ :: _) => "/." ++ u.path.text
  | _, _ => u.path.text

/-- The text of a URL. -/
def text (u : Url) : String :=
  u.scheme ++ ":"
    ++ (match u.host with
      | some host => "//" ++ u.credentialsText ++ host ++ u.portText
      | none => "")
    ++ u.pathText
    ++ (match u.query with | some q => "?" ++ q | none => "")
    ++ (match u.fragment with | some f => "#" ++ f | none => "")

end Url

end Courier
