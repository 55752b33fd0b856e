import DualSeal.Http.Host
import DualSeal.Http.Message

/-!
# URLs

An HTTP URL names a host, perhaps with a port, and a target on it. A client resolves dots in the
path and escapes what a target cannot hold; a server reads the escapes of a path segment back.
-/

namespace DualSeal.Http

/-! ## Characters -/

/-- A printable ASCII character but the space. -/
def isGraphic (c : Char) : Bool := 0x20 < c.toNat && c.toNat < 0x7F

/-- A character that a path holds as it is. -/
def isPathChar (c : Char) : Bool :=
  isGraphic c && !List.contains ['"', '#', '<', '>', '?', Char.ofNat 0x60, '{', '}'] c

/-- A character that a query holds as it is. -/
def isQueryChar (c : Char) : Bool :=
  isGraphic c && !List.contains ['"', '#', '<', '>', Char.ofNat 0x27] c

/-! ## Paths -/

/-- A segment that stands for the directory itself. -/
def isDot (segment : List Char) : Bool :=
  let lower := segment.map Char.toLower
  lower = ['.'] || lower = "%2e".toList

/-- A segment that stands for the directory above. -/
def isDoubleDot (segment : List Char) : Bool :=
  ["..", ".%2e", "%2e.", "%2e%2e"].contains (String.ofList (segment.map Char.toLower))

/-- The segments of a path without dots, behind those that `passed` holds in reverse. A dot at the
end leaves an empty segment. -/
def resolve (passed : List (List Char)) : List (List Char) → List (List Char)
  | [] => passed.reverse
  | segment :: rest =>
    if isDoubleDot segment then
      if rest = [] then ([] :: passed.drop 1).reverse else resolve (passed.drop 1) rest
    else if isDot segment then
      if rest = [] then ([] :: passed).reverse else resolve passed rest
    else resolve (segment :: passed) rest

/-- A path with its dots resolved and its characters escaped; slashes lean either way. -/
def normalPath (path : List Char) : List Char :=
  let segments := (path.map fun c ↦ if c = '\\' then '/' else c).splitOn '/'
  let segments := if segments.head? = some [] then segments.drop 1 else segments
  let resolved := resolve [] segments
  (if resolved = [] then [[]] else resolved).flatMap fun segment ↦ '/' :: escape isPathChar segment

/-! ## URLs -/

/-- A scheme, a host with its port unless that is the scheme's own, and the target of a request.
Credentials are dropped. -/
structure Url where
  scheme : String
  host : String
  target : String
  deriving DecidableEq

namespace Url

def text (url : Url) : String := url.scheme ++ "://" ++ url.host ++ url.target

/-- The schemes whose URLs name a host, with the ports that they have anyway. -/
def schemes : List (String × Nat) :=
  [("http", 80), ("https", 443), ("ws", 80), ("wss", 443), ("ftp", 21)]

/-- A slash of either kind. -/
def isSlash (c : Char) : Bool := c = '/' || c = '\\'

/-- A character that is no part of a host. -/
def endsHost (c : Char) : Bool := isSlash c || c = '?' || c = '#'

/-- The text behind the credentials, which end with the last at-sign. -/
def dropCredentials (text : List Char) : List Char :=
  (text.reverse.takeWhile (· ≠ '@')).reverse

/-- The text without blanks and controls around it, and without tabs and line breaks. -/
def trimUrl (text : List Char) : List Char :=
  let isControl (c : Char) : Bool := c.toNat ≤ 0x20
  ((text.dropWhile isControl).reverse.dropWhile isControl).reverse.filter fun c ↦
    c ≠ '\t' && c ≠ '\n' && c ≠ '\r'

/-- A character that a scheme may go on with. -/
def isSchemeChar (c : Char) : Bool := c.isAlphanum || c = '+' || c = '-' || c = '.'

/-- The scheme in front of a colon, in lower case, and what follows the colon. -/
def scheme? (text : List Char) : Option (String × List Char) :=
  match text.takeWhile isSchemeChar, text.dropWhile isSchemeChar with
  | c :: scheme, mark :: rest =>
    if c.isAlpha ∧ mark = ':' then some (String.ofList ((c :: scheme).map Char.toLower), rest)
    else none
  | _, _ => none

/-- Reads a URL from where its host starts. -/
def ofRest? (spelling : NameSpelling) (scheme : String) (ownPort : Nat) (rest : List Char) :
    Option Url := do
  let host ← server? spelling ownPort (dropCredentials (rest.takeWhile fun c ↦ !endsHost c))
  let rest := (rest.dropWhile fun c ↦ !endsHost c).takeWhile (· ≠ '#')
  let path := rest.takeWhile (· ≠ '?')
  let query := match rest.dropWhile (· ≠ '?') with
    | [] => []
    | mark :: query => mark :: escape isQueryChar query
  return ⟨scheme, String.ofList host, String.ofList (normalPath path ++ query)⟩

/-- Reads a URL. Any number of slashes stands in front of the host. -/
def ofText? (spelling : NameSpelling) (text : String) : Option Url := do
  let (scheme, rest) ← scheme? (trimUrl text.toList)
  let ownPort ← schemes.lookup scheme
  ofRest? spelling scheme ownPort (rest.dropWhile isSlash)

/-- The schemes that can be called. -/
def callableSchemes : List String := ["http", "https"]

/-- The most bytes of a URL that is called. -/
def maxLength : Nat := 65534

/-- Whether a request can name a URL: its scheme can be called, it is short enough, and its host has
no character that a request does not hold. -/
def isSendable (url : Url) : Bool :=
  callableSchemes.contains url.scheme && url.text.utf8ByteSize ≤ maxLength &&
    !url.host.toList.any fun c ↦ List.contains ['"', Char.ofNat 0x60, '{', '}'] c

/-- The URL that a text spells, or what keeps it from being called, in words. -/
def callable (spelling : NameSpelling) (text : String) : Except String Url :=
  match ofText? spelling text with
  | none => .error uncallable
  | some url =>
    if url.isSendable then .ok url else .error (uncallable ++ " for url (" ++ url.text ++ ")")

end Url

/-- The URL of a path on a server, whose own URL may end in slashes. -/
def urlOn (serverUrl path : String) : String :=
  String.ofList (serverUrl.toList.reverse.dropWhile (· = '/')).reverse ++ path

/-- The path of a target, without its query. A target may be a whole URL; what is neither that nor
starts with a slash has no path. -/
def pathOf (target : String) : List Char :=
  let withoutQuery := target.toList.takeWhile fun c ↦ c ≠ '?' && c ≠ '#'
  if withoutQuery.head? = some '/' then withoutQuery
  else
    match "://".toList.isPrefixOf? (withoutQuery.dropWhile Url.isSchemeChar) with
    | some rest => rest.dropWhile (· ≠ '/')
    | none => []

end DualSeal.Http
