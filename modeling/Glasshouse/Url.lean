/-
Glasshouse.Url — addresses of web resources. `Url.read` takes a text apart
by the rules for web addresses: blanks at the ends and line breaks do not
count, scheme and host are in small letters, the default port is left out,
`.` and `..` are resolved and what has no place in a part is escaped.
`Url.text` puts the parts together again.
-/
import Glasshouse.Url.Host

namespace Glasshouse

/-- An address with a host. -/
structure Url where
  scheme : String
  user : String := ""
  password : String := ""
  host : Url.Host
  port : Option Nat := none
  path : List String := [""]
  query : Option String := none
  fragment : Option String := none
  deriving DecidableEq, Repr

namespace Url

/-- The ports that a scheme has without saying so. -/
def defaultPorts : List (String × Nat) :=
  [("http", 80), ("https", 443), ("ws", 80), ("wss", 443), ("ftp", 21)]

/-- A text without control characters and blanks at its ends, and without line
breaks and tabs anywhere. -/
def clean (s : String) : List Char :=
  (Text.stripBy (fun c => c.toNat ≤ 0x20) s.toList).filter fun c =>
    c != '\t' && c != '\n' && c != '\r'

/-- A scheme in small letters and what follows its colon. -/
def splitScheme? (cs : List Char) : Option (String × List Char) :=
  let isSchemeChar (c : Char) := (c.isAlphanum && c.toNat < 128) || c == '+' || c == '-' || c == '.'
  let name := cs.takeWhile isSchemeChar
  match name, cs.dropWhile isSchemeChar with
  | c :: _, ':' :: r => if c.isAlpha then some (String.ofList (name.map Char.toLower), r) else none
  | _, _ => none

/-- Whether a character ends the authority of an address. -/
def endsAuthority (c : Char) : Bool :=
  c == '/' || c == '?' || c == '#' || c == '\\'

/-- The text before the last `@`, if there is one, and the text after it. -/
def splitAtSign (cs : List Char) : Option (List Char) × List Char :=
  if cs.contains '@' then
    let host := (cs.reverse.takeWhile (· != '@')).reverse
    (some (cs.take (cs.length - host.length - 1)), host)
  else (none, cs)

/-- User and password. -/
def readUser (cs : List Char) : String × String :=
  let user := cs.takeWhile (· != ':')
  let password := (cs.dropWhile (· != ':')).drop 1
  (String.ofList (encode .userinfo user), String.ofList (encode .userinfo password))

/-- The characters of the host, up to a colon outside of brackets. -/
def takeHost (bracket : Bool) : List Char → List Char × List Char
  | [] => ([], [])
  | c :: r =>
    if c == ':' && !bracket then ([], c :: r)
    else
      let inside := if c == '[' then true else if c == ']' then false else bracket
      let (h, rest) := takeHost inside r
      (c :: h, rest)

/-- A port; none if it is the default of the scheme or missing. -/
def readPort (scheme : String) (cs : List Char) : Except Problem (Option Nat) :=
  match cs with
  | [] => .ok none
  | _ :: ds =>
    if !ds.all Char.isDigit then .error .badPort
    else if ds.isEmpty then .ok none
    else
      let n := Number.digitsValue ds
      if 65535 < n then .error .badPort
      else if defaultPorts.lookup scheme == some n then .ok none
      else .ok (some n)

/-- Whether a segment stands for its own directory. -/
def isDot (s : String) : Bool :=
  let t := String.ofList (s.toList.map Char.toLower)
  t == "." || t == "%2e"

/-- Whether a segment stands for the directory above. -/
def isDotDot (s : String) : Bool :=
  let t := String.ofList (s.toList.map Char.toLower)
  t == ".." || t == "%2e." || t == ".%2e" || t == "%2e%2e"

/-- Segments with the dots resolved; `done` holds the ones so far, last first.
A dot segment at the end leaves an empty segment. -/
def resolve (done : List String) : List String → List String
  | [] => done.reverse
  | s :: r =>
    if isDotDot s then
      let done := done.drop 1
      if r.isEmpty then ("" :: done).reverse else resolve done r
    else if isDot s then
      if r.isEmpty then ("" :: done).reverse else resolve done r
    else resolve (s :: done) r

/-- The segments of a path. -/
def readPath (cs : List Char) : List String :=
  let slashes := cs.map fun c => if c == '\\' then '/' else c
  let body := match slashes with
    | '/' :: r => r
    | r => r
  resolve [] ((body.splitOn '/').map fun s => String.ofList (encode .path s))

/-- The parts after the authority: path, query and fragment. -/
def readTail (cs : List Char) : List String × Option String × Option String :=
  let path := cs.takeWhile fun c => c != '?' && c != '#'
  let rest := cs.dropWhile fun c => c != '?' && c != '#'
  let (query, rest) := match rest with
    | '?' :: r =>
      (some (String.ofList (encode .query (r.takeWhile (· != '#')))), r.dropWhile (· != '#'))
    | r => (none, r)
  let fragment := match rest with
    | '#' :: r => some (String.ofList (encode .fragment r))
    | _ => none
  (readPath path, query, fragment)

/-- The address after the scheme and its slashes. -/
def readAfterSlashes (scheme : String) (cs : List Char) : Except Problem Url := do
  let authority := cs.takeWhile fun c => !endsAuthority c
  let tail := cs.dropWhile fun c => !endsAuthority c
  let (userinfo, place) := splitAtSign authority
  let (hostChars, portChars) := takeHost false place
  if hostChars.isEmpty then .error .noHost
  else
    let host ← Host.read hostChars
    let port ← readPort scheme portChars
    let (path, query, fragment) := readTail tail
    let (user, password) := readUser (userinfo.getD [])
    .ok { scheme, user, password, host, port, path, query, fragment }

/-- The address of a web resource. A scheme other than the two of the web is
reported as `none` once the rest of the text is an address. -/
def read (s : String) : Except Problem (Option Url) :=
  if s.isEmpty then .error .noInput
  else
    match splitScheme? (clean s) with
    | none => .error .noBase
    | some (scheme, r) =>
      if scheme == "http" || scheme == "https" then
        (readAfterSlashes scheme (r.dropWhile fun c => c == '/' || c == '\\')).map some
      else if scheme == "ftp" || scheme == "ws" || scheme == "wss" then
        (readAfterSlashes scheme (r.dropWhile fun c => c == '/' || c == '\\')).map fun _ => none
      else .ok none

/-- The text of an address. -/
def text (u : Url) : String :=
  let login :=
    if u.user.isEmpty && u.password.isEmpty then ""
    else u.user ++ (if u.password.isEmpty then "" else ":" ++ u.password) ++ "@"
  u.scheme ++ "://" ++ login ++ u.host.text
    ++ (u.port.map fun p => s!":{p}").getD ""
    ++ String.join (u.path.map fun s => "/" ++ s)
    ++ (u.query.map fun q => "?" ++ q).getD ""
    ++ (u.fragment.map fun f => "#" ++ f).getD ""

/-- The greatest number of bytes of a text that is read as an address. -/
def maxBytes : Nat := 2083

end Url

end Glasshouse
