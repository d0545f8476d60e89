/-
Glasshouse.Json.Writer — documents written as JSON texts of ASCII characters.
A double that is not finite is a table with the one key `$float`; scalars
that JSON has no form for are written as texts.
-/
import Glasshouse.Doc.Text

namespace Glasshouse.Json

/-- A 16 bit unit as an escape. -/
def unitEscape (n : Nat) : List Char :=
  ['\\', 'u'] ++ Text.hex 4 n

/-- A character between double quotes. -/
def writeChar (c : Char) : List Char :=
  let n := c.toNat
  if c == '"' || c == '\\' then ['\\', c]
  else if c == '\n' then ['\\', 'n']
  else if 0x20 ≤ n && n < 0x7F then [c]
  else if n < 0x10000 then unitEscape n
  else unitEscape (0xD800 + (n - 0x10000) / 0x400) ++ unitEscape (0xDC00 + (n - 0x10000) % 0x400)

/-- A text between double quotes. -/
def writeText (s : String) : String :=
  String.ofList ('"' :: s.toList.flatMap writeChar ++ ['"'])

/-- A double. -/
def writeFloat (x : Float) : String :=
  match Number.Double.ofFloat x with
  | .nan => "\x7b\"$float\": \"NaN\"\x7d"
  | .infinite negative => "\x7b\"$float\": \"" ++ (if negative then "-" else "") ++ "Infinity\"\x7d"
  | .finite .. => Number.floatText x

/-- A scalar. -/
def writeAtom : Atom → String
  | .null => "null"
  | .bool b => if b then "true" else "false"
  | .int n => toString n
  | .num x => writeFloat x
  | .str s => writeText s
  | .moment m => writeText m.text
  | a => writeText a.text

mutual

/-- A document. -/
def write : Doc → String
  | .atom a => writeAtom a
  | .list xs => "[" ++ ", ".intercalate (writeItems xs) ++ "]"
  | .obj fs => "\x7b" ++ ", ".intercalate (writeFields fs) ++ "\x7d"
  | .set xs => "[" ++ ", ".intercalate (xs.map writeAtom) ++ "]"

/-- The elements of a list. -/
def writeItems : List Doc → List String
  | [] => []
  | x :: r => write x :: writeItems r

/-- The fields of a table. -/
def writeFields : List (Atom × Doc) → List String
  | [] => []
  | (k, v) :: r => (writeText k.text ++ ": " ++ write v) :: writeFields r

end

end Glasshouse.Json
