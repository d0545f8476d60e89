/-
Glasshouse.Doc.Plain — documents with the kinds of scalars that JSON has:
days, moments and byte strings become texts, sets become lists, every key
becomes a text and a double that is not finite becomes `null`. A document that
is plain already stays as it is. One that contains itself has no plain form,
which `Doc.ends` finds out.
-/
import Glasshouse.Doc.Text

namespace Glasshouse

namespace Atom

/-- The text that a byte string holds. -/
def bytesAsText (b : List UInt8) : String :=
  (String.fromUTF8? ⟨b.toArray⟩).getD (Text.bytesText b)

/-- A scalar as one that JSON has. -/
def plain : Atom → Atom
  | day d => .str d.text
  | moment m => .str m.textZ
  | bytes b => .str (bytesAsText b)
  | num x => if x.isFinite then .num x else .null
  | a => a

/-- A key as a text. -/
def plainKey : Atom → String
  | bool b => if b then "true" else "false"
  | null => "None"
  | a =>
    match a.plain with
    | .str s => s
    | a => a.text

end Atom

namespace Doc

mutual

/-- A document with plain scalars and text keys. -/
def plain : Doc → Doc
  | .atom a => .atom a.plain
  | .list xs => .list (plainItems xs)
  | .obj fs => .obj (Fields.ofPairs (plainFields fs))
  | .set xs => .list (xs.map fun a => .atom a.plain)

/-- The elements of a list in plain form. -/
def plainItems : List Doc → List Doc
  | [] => []
  | x :: r => plain x :: plainItems r

/-- The fields of a table in plain form. -/
def plainFields : List (Atom × Doc) → List (Atom × Doc)
  | [] => []
  | (k, v) :: r => (.str k.plainKey, plain v) :: plainFields r

/-- Whether a document comes to an end, however deep one looks into it. -/
def ends : Doc → Bool
  | .atom .endless => false
  | .atom _ => true
  | .list xs => endsItems xs
  | .obj fs => endsFields fs
  | .set _ => true

/-- Whether the elements of a list come to an end. -/
def endsItems : List Doc → Bool
  | [] => true
  | x :: r => ends x && endsItems r

/-- Whether the values of a table come to an end. -/
def endsFields : List (Atom × Doc) → Bool
  | [] => true
  | (_, v) :: r => ends v && endsFields r

end

end Doc

end Glasshouse
