import RecordMap.Connection.Host
import RecordMap.Text.Blank
import RecordMap.Text.Utf8

/-!
# URLs

What stands after the scheme of a URL: an authority behind two slashes, a path, a query and a
fragment.  The authority has to be well formed but is dropped, as is the fragment.  A path that
begins with a slash has its dot segments resolved; any other path is left as it is.  Path and query
are percent-encoded text.
-/

namespace RecordMap.Connection

/-- The bytes of percent-encoded text; a percent sign without two digits stands for itself. -/
def percentDecode : List Char → List UInt8
  | [] => []
  | '%' :: a :: b :: cs =>
    match Text.hexValue? a, Text.hexValue? b with
    | some high, some low => Text.hexByte high low :: percentDecode cs
    | _, _ => 0x25 :: percentDecode (a :: b :: cs)
  | c :: cs => String.utf8EncodeChar c ++ percentDecode cs

def isDot (segment : List Char) : Bool :=
  [".", "%2e"].any fun s => s.toList == segment.map Char.toLower

def isDoubleDot (segment : List Char) : Bool :=
  ["..", "%2e.", ".%2e", "%2e%2e"].any fun s => s.toList == segment.map Char.toLower

/-- Whether a segment names a drive: a letter and a colon or a bar, with nothing behind them or
with anything behind a backslash. -/
def isDrive : List Char → Bool
  | a :: b :: rest =>
    a.isAlpha && (b == ':' || b == '|') && (rest.isEmpty || rest.head? == some '\\')
  | _ => false

/-- The path up to its last slash, and what comes after it. -/
def upToSlash (path : List Char) : List Char := Text.trimRight (· != '/') path

def lastSegment (path : List Char) : List Char :=
  (path.reverse.takeWhile (· != '/')).reverse

/-- A slash at the end can go unless it is the first or follows a drive. -/
def withoutLastSlash (path : List Char) : List Char :=
  if path.getLast? = some '/' && path.dropLast.contains '/' &&
      !isDrive (lastSegment path.dropLast) then path.dropLast
  else path

/-- The path without its last segment. -/
def parentPath (path : List Char) : List Char := upToSlash (withoutLastSlash path)

def closePath (path : List Char) : List Char :=
  if path.getLast? = some '/' then path else path ++ ['/']

/-- Adds a segment to a path; `closed` says that a slash follows it. -/
def addSegment (path segment : List Char) (closed : Bool) : List Char :=
  if isDoubleDot segment then
    if closed then closePath (parentPath path) else parentPath path
  else if isDot segment then closePath path
  else path ++ segment ++ (if closed then ['/'] else [])

def addSegments (path : List Char) : List (List Char) → List Char
  | [] => path
  | [segment] => addSegment path segment false
  | segment :: rest => addSegments (addSegment path segment true) rest

/-- The path of a slash and the text after it, without dot segments. -/
def resolvePath (afterSlash : List Char) : List Char :=
  addSegments ['/'] (Text.split '/' afterSlash)

/-- A path ends where a query or a fragment begins. -/
def endsPath (c : Char) : Bool := c == '?' || c == '#'

def endsAuthority (c : Char) : Bool := c == '/' || endsPath c

/-- What follows the user information, and whether there was any.  It ends at the last at sign of
the authority, and a colon alone counts for nothing. -/
def skipUser (cs : List Char) : Except UrlFlaw (Bool × List Char) :=
  let authority := cs.takeWhile fun c => !endsAuthority c
  let after := cs.dropWhile fun c => !endsAuthority c
  if authority.contains '@' then
    let host := (authority.reverse.takeWhile (· != '@')).reverse
    let user := authority.take (authority.length - host.length - 1)
    if user.isEmpty then
      if host.isEmpty && !after.isEmpty then .error .emptyHost else .ok (false, host ++ after)
    else .ok (user != [':'], host ++ after)
  else .ok (false, cs)

/-- The host and what follows it; a colon ends the host unless it stands in brackets. -/
def cutHost (inBrackets : Bool) : List Char → List Char × List Char
  | [] => ([], [])
  | c :: cs =>
    if endsAuthority c || (c == ':' && !inBrackets) then ([], c :: cs)
    else
      let inBrackets := c == '[' || (inBrackets && c != ']')
      let (host, rest) := cutHost inBrackets cs
      (c :: host, rest)

/-- What follows the digits behind the host, which must make a number of 16 bits. -/
def skipServiceNumber (cs : List Char) : Except UrlFlaw (List Char) :=
  let rest := cs.dropWhile Char.isDigit
  if Nat.ofDigitChars 10 (cs.takeWhile Char.isDigit) 0 ≤ 65535 then
    match rest with
    | [] => .ok []
    | c :: _ => if endsAuthority c || c == '\\' then .ok rest else .error .serviceNumber
  else .error .serviceNumber

/-- What follows the authority. -/
def skipAuthority (cs : List Char) : Except UrlFlaw (List Char) := do
  let (hasUser, cs) ← skipUser cs
  let (host, rest) := cutHost false cs
  checkHost host
  if host.isEmpty && rest.head? = some ':' then throw .emptyHost
  let rest ← match rest with
    | ':' :: digits => skipServiceNumber digits
    | rest => .ok rest
  if host.isEmpty && hasUser then throw .emptyHost
  return rest

/-- The path that text up to a query begins with, behind an authority. -/
def pathAfterAuthority : List Char → List Char
  | [] => []
  | '/' :: cs => resolvePath cs
  | cs => resolvePath cs

/-- Keys and values of a query; a plus sign stands for a blank. -/
def decodeQuery (cs : List Char) : List (String × String) :=
  let parts := (Text.split '&' cs).filter fun part => !part.isEmpty
  parts.map fun part =>
    let (key, value) := (Text.cut? '=' part).getD (part, [])
    (decode key, decode value)
where
  decode (cs : List Char) : String :=
    String.ofList (Utf8.decodeLossy (percentDecode (cs.map fun c => if c == '+' then ' ' else c)))

/-- A URL after its scheme: the path, still encoded, and the text of the query. -/
structure Url where
  path : List Char
  query : List Char

namespace Url

/-- Line breaks and tabs are left out wherever they stand, controls and blanks at the end. -/
def clean (cs : List Char) : List Char :=
  (Text.trimRight (fun c => decide (c ≤ ' ')) cs).filter fun c =>
    c != '\t' && c != '\n' && c != '\r'

def queryOf (cs : List Char) : List Char :=
  match cs.dropWhile fun c => !endsPath c with
  | '?' :: rest => rest.takeWhile (· != '#')
  | _ => []

def pathText (cs : List Char) : List Char := cs.takeWhile fun c => !endsPath c

/-- Reads what stands after the colon of the scheme. -/
def read (text : List Char) : Except UrlFlaw Url :=
  match clean text with
  | '/' :: '/' :: cs => do
    let rest ← skipAuthority cs
    return ⟨pathAfterAuthority (pathText rest), queryOf rest⟩
  | '/' :: cs => .ok ⟨resolvePath (pathText cs), queryOf cs⟩
  | cs => .ok ⟨pathText cs, queryOf cs⟩

def decodedPath (u : Url) : Except UrlFlaw String :=
  match Utf8.decode (percentDecode u.path) with
  | .ok cs => .ok (String.ofList cs)
  | .error flaw => .error (.path flaw)

def pairs (u : Url) : List (String × String) := decodeQuery u.query

end Url

end RecordMap.Connection
