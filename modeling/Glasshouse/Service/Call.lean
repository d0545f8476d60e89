/-
Glasshouse.Service.Call — calls to the engine over the web and answers to them.
A call names a method and a place; places are lists of names between slashes.
A body is a JSON text, which may be missing.
-/
import Glasshouse.Json.Reader
import Glasshouse.Rejection
import Glasshouse.Url.Percent

namespace Glasshouse.Service

/-- A call. -/
structure Call where
  /-- In capital letters. -/
  method : String
  /-- The names between the slashes, with their escapes read. -/
  place : List String
  query : List (String × String) := []
  /-- The text of the body; empty if there is none. -/
  body : String := ""

/-- What stands in an answer. -/
inductive Content where
  | doc (d : Doc)
  | text (s : String)

/-- An answer. -/
structure Answer where
  status : Nat := 200
  content : Content

namespace Answer

/-- An answer that holds a document. -/
def ofDoc (status : Nat) (d : Doc) : Answer := ⟨status, .doc d⟩

/-- An answer that tells what is wrong. -/
def detail (status : Nat) (d : Doc) : Answer := .ofDoc status (.record [("detail", d)])

/-- The answer where there is nothing. -/
def nowhere : Answer := .detail 404 (.str "Not Found")

/-- The answer to a method that a place does not have. -/
def methodUnknown : Answer := .detail 405 (.str "Method Not Allowed")

/-- The answer that sends a call to the same place without slashes at its end. -/
def elsewhere : Answer := ⟨307, .text ""⟩

/-- The answer after a failure. -/
def failure : Answer := ⟨500, .text "Internal Server Error"⟩

end Answer

/-- A name or a value of a query; a plus sign is a blank. -/
def unescapeForm (cs : List Char) : String :=
  String.ofList (Url.unescape (cs.map fun c => if c == '+' then ' ' else c))

/-- The names and values of a query. -/
def readQuery (cs : List Char) : List (String × String) :=
  (cs.splitOn '&').filterMap fun part =>
    if part.isEmpty then none
    else some (unescapeForm (part.takeWhile (· != '=')),
      unescapeForm ((part.dropWhile (· != '=')).drop 1))

/-- A call by its method and target; the target may have a query of its own, which
comes before the other parameters. -/
def Call.ofTarget (method target : String) (query : List (String × String)) (body : String) :
    Call :=
  let cs := target.toList.takeWhile (· != '#')
  let path := (Url.unescape (cs.takeWhile (· != '?'))).dropWhile (· == '/')
  { method := method.toUpper
    place := (path.splitOn '/').map String.ofList
    query := readQuery ((cs.dropWhile (· != '?')).drop 1) ++ query
    body := body }

/-- The value of a parameter; the last one counts. -/
def Call.parameter? (c : Call) (name : String) : Option String := c.query.reverse.lookup name

/-- The document in the body, if there is one; `null` is none. -/
def Call.document? (c : Call) : Except Issue (Option Doc) :=
  let text := if c.body.startsWith "\ufeff" then (c.body.drop 1).toString else c.body
  if c.body.isEmpty then .ok none
  else
    match Json.read text with
    | .ok .null => .ok none
    | .ok d => .ok (some d)
    | .error f =>
      let (_, _, position) := f.place text
      .error ⟨[.key "body", .index position], .textMalformed⟩

/-- Why a call is answered early. -/
inductive Obstacle where
  | ruleMissing
  /-- Parameters or body of the wrong form. -/
  | malformed (issues : List Issue)
  | rejected (r : Rejection)
  | failed (f : Fault)
  /-- An answer that has not the form which is promised. -/
  | unfit

/-- The answer to a call with an obstacle. -/
def Obstacle.answer : Obstacle → Answer
  | ruleMissing => .detail 404 (.str "Rule not found")
  | malformed is => .detail 422 (.ofList Issue.toDoc is)
  | rejected r => .detail 400 (.record [
      ("message", .str r.message), ("errors", .ofList Issue.toDoc r.issues)])
  | failed _ | unfit => .failure

end Glasshouse.Service
