/-
Glasshouse.Wire — requests to other machines and their answers. Answers are
laid down by a script; every request is kept in the order in which it was made.
-/
import Glasshouse.Doc
import Glasshouse.Json.Reader
import Glasshouse.Plan
import Glasshouse.Script
import Glasshouse.Text.Base64
import Glasshouse.Text.Quoted
import Glasshouse.Url.Percent

namespace Glasshouse

/-- A request as it was made. Names of headers are in small letters. -/
structure Request where
  method : String
  url : String
  headers : List (String × String) := []
  /-- The document in the body, if there is a body. -/
  body : Option Doc := none

/-- A request as a document. -/
def Request.toDoc (r : Request) : Doc :=
  .record [("method", .str r.method), ("url", .str r.url),
    ("headers", .obj (Fields.ofPairs (r.headers.map fun h => (.str h.1, .str h.2)))),
    ("body", r.body.getD .null)]

/-- An answer to a request. -/
structure Response where
  status : Nat := 200
  /-- The text of the body. -/
  text : String := ""
  headers : List (String × String) := []

/-- What becomes of a request, and after how long. -/
structure Reply where
  delay : Duration := 0
  outcome : Except Fault Response := .ok {}

/-- A line to other machines. -/
structure Wire where
  replies : Script Reply
  /-- The requests made so far, oldest first. -/
  calls : List Request := []

namespace Response

/-- Whether the status says that all went well. -/
def isSuccess (r : Response) : Bool := decide (200 ≤ r.status) && decide (r.status < 300)

/-- The phrases that belong to statuses. -/
def phrases : List (Nat × String) := [
  (100, "Continue"), (101, "Switching Protocols"), (102, "Processing"), (103, "Early Hints"),
  (200, "OK"), (201, "Created"), (202, "Accepted"), (203, "Non-Authoritative Information"),
  (204, "No Content"), (205, "Reset Content"), (206, "Partial Content"), (207, "Multi-Status"),
  (208, "Already Reported"), (226, "IM Used"), (300, "Multiple Choices"),
  (301, "Moved Permanently"), (302, "Found"), (303, "See Other"), (304, "Not Modified"),
  (305, "Use Proxy"), (307, "Temporary Redirect"), (308, "Permanent Redirect"),
  (400, "Bad Request"), (401, "Unauthorized"), (402, "Payment Required"), (403, "Forbidden"),
  (404, "Not Found"), (405, "Method Not Allowed"), (406, "Not Acceptable"),
  (407, "Proxy Authentication Required"), (408, "Request Timeout"), (409, "Conflict"),
  (410, "Gone"), (411, "Length Required"), (412, "Precondition Failed"),
  (413, "Request Entity Too Large"), (414, "Request-URI Too Long"),
  (415, "Unsupported Media Type"), (416, "Requested Range Not Satisfiable"),
  (417, "Expectation Failed"), (418, "I'm a teapot"), (421, "Misdirected Request"),
  (422, "Unprocessable Entity"), (423, "Locked"), (424, "Failed Dependency"), (425, "Too Early"),
  (426, "Upgrade Required"), (428, "Precondition Required"), (429, "Too Many Requests"),
  (431, "Request Header Fields Too Large"), (451, "Unavailable For Legal Reasons"),
  (500, "Internal Server Error"), (501, "Not Implemented"), (502, "Bad Gateway"),
  (503, "Service Unavailable"), (504, "Gateway Timeout"), (505, "HTTP Version Not Supported"),
  (506, "Variant Also Negotiates"), (507, "Insufficient Storage"), (508, "Loop Detected"),
  (510, "Not Extended"), (511, "Network Authentication Required")]

/-- The kind of a status that is no success. -/
def kindText (status : Nat) : String :=
  match status / 100 with
  | 1 => "Informational response"
  | 3 => "Redirect response"
  | 4 => "Client error"
  | 5 => "Server error"
  | _ => "Invalid status code"

/-- The statuses that send a request elsewhere. -/
def redirects : List Nat := [301, 302, 303, 307, 308]

/-- The message about an answer that is no success. -/
def complaint (r : Response) (url : String) : String :=
  let status := toString r.status
  let elsewhere := match r.headers.lookup "location" with
    | some place => if redirects.contains r.status then "Redirect location: '" ++ place ++ "'\n" else ""
    | none => ""
  kindText r.status ++ " '" ++ status ++ " " ++ (phrases.lookup r.status).getD "" ++ "' for url '"
    ++ url ++ "'\n" ++ elsewhere
    ++ "For more information check: https://developer.mozilla.org/en-US/docs/Web/HTTP/Status/"
    ++ status

/-- The document in the body, or its text cut short if it is none. -/
def content (limit : Nat) (r : Response) : Doc :=
  match Json.read r.text with
  | .ok d => d
  | .error _ => .str (String.ofList (r.text.toList.take limit))

end Response

namespace Wire

/-- The answer where nothing else is laid down. -/
def usual : Reply := { outcome := .ok { text := "\x7b\"ok\":true\x7d" } }

/-- The first character without an ASCII form, with the place of it and how many
there are in a row. -/
def foreignRun (i : Nat) : List Char → Option (Nat × List Char)
  | [] => none
  | c :: r =>
    if c.toNat < 128 then foreignRun (i + 1) r
    else some (i, c :: r.takeWhile fun d => decide (128 ≤ d.toNat))

/-- A text of a header that has no ASCII form is wrong. -/
def requireAscii (s : String) : Except Fault Unit :=
  match foreignRun 0 s.toList with
  | none => .ok ()
  | some (i, cs) => .error (.notAscii i cs)

/-- The headers as they are sent: names in small letters, values of one name
together. -/
def headersOf (hs : List (String × String)) : Except Fault (List (String × String)) := do
  hs.forM fun h => do
    requireAscii h.1
    requireAscii h.2
  .ok (hs.foldl (fun acc h =>
    let name := h.1.toLower
    match acc.lookup name with
    | some v => acc.map fun p => if p.1 == name then (name, v ++ ", " ++ h.2) else p
    | none => acc ++ [(name, h.2)]) [])

/-- The kind of a body that holds a document. -/
def documentKind : String × String := ("content-type", "application/json")

/-- The name and the password in front of a host, with a colon between them. -/
def credentials? (url : String) : Option String :=
  let afterScheme := (url.toList.dropWhile (· != ':')).drop 3
  let authority := afterScheme.takeWhile fun c => c != '/' && c != '?' && c != '#'
  let user := ((authority.reverse.dropWhile (· != '@')).drop 1).reverse
  let name := Url.unescape (user.takeWhile (· != ':'))
  let password := Url.unescape ((user.dropWhile (· != ':')).drop 1)
  if name.isEmpty && password.isEmpty then none
  else some (String.ofList (name ++ ':' :: password))

/-- The header that proves who sends a request, from the address. -/
def proof (url : String) : List (String × String) :=
  ((credentials? url).map fun c =>
    ("authorization", "Basic " ++ Text.Base64.encode c.toUTF8.toList)).toList

/-- A request with headers, and a document as its body if there is one. What the
address says about the sender comes before a header that says otherwise. -/
def prepare (method url : String) (headers : List (String × String)) (body : Option Doc) :
    Except Fault Request := do
  let hs ← headersOf headers
  let typed := hs.any fun h => h.1 == documentKind.1
  let hs := if body.isSome && !typed then hs ++ [documentKind] else hs
  let proven := proof url
  .ok ⟨method, url, hs.filter (fun h => (proven.lookup h.1).isNone) ++ proven, body⟩

/-- A request noted, and what becomes of it. -/
def send (w : Wire) (r : Request) : Reply × Wire :=
  (w.replies.head, { replies := w.replies.next, calls := w.calls ++ [r] })

end Wire

end Glasshouse
