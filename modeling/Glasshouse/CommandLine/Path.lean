/-
Glasshouse.CommandLine.Path — files by their names. A name is a list of parts
between slashes; parts that say nothing are left out.
-/
import Glasshouse.Table
import Glasshouse.Text.Quoted

namespace Glasshouse

/-- The name of a file. -/
structure Path where
  absolute : Bool := false
  parts : List String
  deriving DecidableEq, Repr

/-- Why a file cannot be read. -/
inductive Unreadable where
  | missing | directory | notDirectory
  deriving DecidableEq, Repr

namespace Path

/-- The name that a text writes. -/
def ofText (s : String) : Path :=
  { absolute := s.startsWith "/"
    parts := (s.splitOn "/").filter fun p => !p.isEmpty && p != "." }

/-- The text of a name. -/
def text (p : Path) : String :=
  let t := "/".intercalate p.parts
  if p.absolute then "/" ++ t else if t.isEmpty then "." else t

/-- The last part of a name. -/
def last (p : Path) : String := p.parts.getLast?.getD ""

/-- Whether a name leads to no particular file: here, or a place further up. -/
def isUp (p : Path) : Bool := p.parts.all (· == "..")

/-- The text of the file with a name. -/
def find (files : Table String String) (p : Path) : Except Unreadable String :=
  let names := files.map fun f => (ofText f.1, f.2)
  match names.find? fun f => f.1 == p with
  | some f => .ok f.2
  | none =>
    let under (q r : Path) : Bool := q.absolute == r.absolute && q.parts.isPrefixOf r.parts
    if p.isUp || names.any fun f => under p f.1 then .error .directory
    else if names.any fun f => under f.1 p then .error .notDirectory
    else .error .missing

end Path

/-- The wording of the reason why a file cannot be read. -/
def Unreadable.text (u : Unreadable) (p : Path) : String :=
  let (number, reason) := match u with
    | missing => ("2", "No such file or directory")
    | directory => ("21", "Is a directory")
    | notDirectory => ("20", "Not a directory")
  "[Errno " ++ number ++ "] " ++ reason ++ ": " ++ Text.quoted p.text

end Glasshouse
