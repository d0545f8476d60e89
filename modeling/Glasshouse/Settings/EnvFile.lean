/-
Glasshouse.Settings.EnvFile — environment files: lines `NAME=value` with
comments, quotes and references `${NAME}` to other variables. A line that
cannot be read is skipped; `assignments` are those of a text in order, and
`values` has the references put in.
-/
import Glasshouse.Table
import Glasshouse.Text.Blank

namespace Glasshouse.EnvFile

/-- The end of a line. -/
def isBreak (c : Char) : Bool := c == '\n' || c == '\r'

/-- A blank inside of a line. -/
def isLineBlank (c : Char) : Bool := Text.isBlank c && !isBreak c

/-- A text without the blanks that begin it. -/
def skipBlanks (cs : List Char) : List Char := cs.dropWhile isLineBlank

/-- The text after the first end of a line. -/
def nextLine (cs : List Char) : List Char :=
  match cs.dropWhile fun c => !isBreak c with
  | '\r' :: '\n' :: r => r
  | _ :: r => r
  | [] => []

/-- What is left of a line besides blanks and a comment has to be nothing. -/
def endLine? (cs : List Char) : Option (List Char) :=
  match skipBlanks cs with
  | '#' :: r => some (nextLine r)
  | [] => some []
  | c :: r => if isBreak c then some (nextLine (c :: r)) else none

/-- The content of a quoted text and what follows the closing quote. An escaped
quote belongs to the content, unless nothing closes the text otherwise. -/
def readQuoted? (q : Char) : List Char → Option (List Char × List Char)
  | [] => none
  | [c] => if c == q then some ([], []) else none
  | c :: d :: r =>
    if c == q then some ([], d :: r)
    else if c == '\\' && d == q then
      match readQuoted? q r with
      | some (body, rest) => some (c :: d :: body, rest)
      | none => some ([c], r)
    else (readQuoted? q (d :: r)).map fun p => (c :: p.1, p.2)

/-- The escapes between double quotes. -/
def escapes : List (Char × Char) := [
  ('\\', '\\'), ('\'', '\''), ('"', '"'), ('a', '\x07'), ('b', '\x08'), ('f', '\x0c'),
  ('n', '\n'), ('r', '\r'), ('t', '\t'), ('v', '\x0b')]

/-- A content with its escapes put in; a backslash before anything else stays. -/
def unescape (known : List (Char × Char)) : List Char → List Char
  | '\\' :: c :: r =>
    match known.lookup c with
    | some d => d :: unescape known r
    | none => '\\' :: unescape known (c :: r)
  | c :: r => c :: unescape known r
  | [] => []

/-- The characters before a `#` that follows a blank. -/
def beforeComment (blank : Bool) : List Char → List Char
  | [] => []
  | c :: r => if blank && c == '#' then [] else c :: beforeComment (Text.isBlank c) r

/-- A value without quotes: the line up to a comment, without blanks at its end. -/
def bareValue (line : List Char) : List Char :=
  ((beforeComment false line).reverse.dropWhile Text.isBlank).reverse

/-- A value and what follows it. -/
def readValue? (cs : List Char) : Option (String × List Char) :=
  match cs with
  | '\'' :: r => (readQuoted? '\'' r).map fun p =>
      (String.ofList (unescape [('\\', '\\'), ('\'', '\'')] p.1), p.2)
  | '"' :: r => (readQuoted? '"' r).map fun p => (String.ofList (unescape escapes p.1), p.2)
  | _ => some (String.ofList (bareValue (cs.takeWhile fun c => !isBreak c)),
      cs.dropWhile fun c => !isBreak c)

/-- A name and what follows it; none in front of a comment. -/
def readName? (cs : List Char) : Option (Option String × List Char) :=
  match cs with
  | '#' :: _ => some (none, cs)
  | '\'' :: r =>
    match r.takeWhile (· != '\''), r.dropWhile (· != '\'') with
    | [], _ | _, [] => none
    | name, _ :: rest => some (some (String.ofList name), rest)
  | _ =>
    let inName (c : Char) := c != '=' && c != '#' && !Text.isBlank c
    match cs.takeWhile inName with
    | [] => none
    | name => some (some (String.ofList name), cs.dropWhile inName)

/-- The text after a leading word `export`. -/
def skipExport (cs : List Char) : List Char :=
  match cs with
  | 'e' :: 'x' :: 'p' :: 'o' :: 'r' :: 't' :: c :: r =>
    if isLineBlank c then skipBlanks r else cs
  | _ => cs

/-- An assignment: a name with a value, or a name alone. -/
abbrev Assignment := String × Option String

/-- The assignment at the head of a text, if there is a readable one, and what
follows its line. -/
def readLine (cs : List Char) : Option Assignment × List Char :=
  match readName? (skipExport cs) with
  | none => (none, nextLine (skipExport cs))
  | some (name, r) =>
    match skipBlanks r with
    | '=' :: r =>
      match readValue? (skipBlanks r) with
      | none => (none, nextLine (skipBlanks r))
      | some (v, r) =>
        match endLine? r with
        | some rest => (name.map fun n => (n, some v), rest)
        | none => (none, nextLine (skipBlanks r))
    | r =>
      match endLine? r with
      | some rest => (name.map fun n => (n, none), rest)
      | none => (none, nextLine r)

/-- The assignments of a text; the fuel is the number of lines at most. -/
def readLines (fuel : Nat) (cs : List Char) : List Assignment :=
  match fuel, cs.dropWhile Text.isBlank with
  | 0, _ | _, [] => []
  | fuel + 1, cs =>
    let (a, rest) := readLine cs
    a.toList ++ readLines fuel rest

/-- The assignments of a text. -/
def assignments (s : String) : List Assignment :=
  readLines (s.length + 1) s.toList

/-- A reference after `${`: the name, the value for its absence, and the rest. -/
def readReference? (cs : List Char) : Option (String × String × List Char) :=
  let inName (c : Char) := c != '}' && c != ':'
  let name := String.ofList (cs.takeWhile inName)
  match cs.dropWhile inName with
  | '}' :: r => some (name, "", r)
  | ':' :: '-' :: r =>
    match r.dropWhile (· != '}') with
    | '}' :: rest => some (name, String.ofList (r.takeWhile (· != '}')), rest)
    | _ => none
  | _ => none

/-- A value with its references put in. A known variable without a value counts
as empty. -/
def expand (known : Table String (Option String)) (fuel : Nat) (cs : List Char) : List Char :=
  match fuel, cs with
  | 0, cs => cs
  | _, [] => []
  | fuel + 1, '$' :: '{' :: r =>
    match readReference? r with
    | some (name, absent, rest) =>
      ((known.get? name).getD (some absent)).getD "" |>.toList |> (· ++ expand known fuel rest)
    | none => '$' :: expand known fuel ('{' :: r)
  | fuel + 1, c :: r => c :: expand known fuel r

/-- The variables of a text, where references look at the variables assigned
before and then at the environment. -/
def values (environment : List (String × String)) (s : String) : List (String × String) :=
  let environment : Table String (Option String) := environment.map fun v => (v.1, some v.2)
  let assigned : Table String (Option String) := (assignments s).foldl (fun t a =>
    t.put a.1 (a.2.map fun v => String.ofList (expand (t ++ environment) v.length v.toList))) []
  assigned.filterMap fun a => a.2.map fun v => (a.1, v)

end Glasshouse.EnvFile
