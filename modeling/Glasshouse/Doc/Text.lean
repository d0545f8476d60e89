/-
Glasshouse.Doc.Text — documents written out in messages. Inside a container a
text stands between quotes; at the top it stands for itself.
-/
import Glasshouse.Doc
import Glasshouse.Number.Text

namespace Glasshouse

open Calendar

/-- A single byte of a byte string. -/
def Text.byteText (quote : Char) (b : UInt8) : List Char :=
  let c := Char.ofNat b.toNat
  if c == quote || c == '\\' then ['\\', c]
  else if c == '\n' then ['\\', 'n']
  else if c == '\r' then ['\\', 'r']
  else if c == '\t' then ['\\', 't']
  else if 0x20 ≤ b.toNat && b.toNat < 0x7F then [c]
  else ['\\', 'x'] ++ Text.hex 2 b.toNat

/-- A byte string between quotes. -/
def Text.bytesText (bs : List UInt8) : String :=
  let q := Text.quoteOf (bs.map fun b => Char.ofNat b.toNat)
  String.ofList ('b' :: q :: bs.flatMap (byteText q) ++ [q])

/-- The offset of a moment as part of its constructor. -/
def Calendar.offsetCall (o : Int) : String :=
  if o == 0 then ", tzinfo=datetime.timezone.utc"
  else
    let days := o / dayLength
    let rest := o % dayLength
    let parts := [("days", days), ("seconds", rest / second), ("microseconds", rest % second)]
    let shown := (parts.filter (·.2 != 0)).map fun p => s!"{p.1}={p.2}"
    ", tzinfo=datetime.timezone(datetime.timedelta(" ++ ", ".intercalate shown ++ "))"

/-- A moment as a constructor call. -/
def Calendar.momentCall (m : Moment) : String :=
  let t := m.timeOfDay
  let d := m.date
  let time := s!"{t / 3600000000}, {t / 60000000 % 60}"
  let fine := if t % 60000000 == 0 then ""
    else if t % 1000000 == 0 then s!", {t / 1000000 % 60}"
    else s!", {t / 1000000 % 60}, {t % 1000000}"
  s!"datetime.datetime({d.year}, {d.month}, {d.day}, {time}{fine}"
    ++ (m.offset.map offsetCall).getD "" ++ ")"

namespace Atom

/-- A scalar inside of a container. -/
def inner : Atom → String
  | null => "None"
  | bool b => if b then "True" else "False"
  | int n => toString n
  | num x => Number.floatText x
  | str s => Text.quoted s
  | day d => s!"datetime.date({d.year}, {d.month}, {d.day})"
  | moment m => momentCall m
  | bytes b => Text.bytesText b
  | endless => "[...]"

/-- A scalar by itself. -/
def text : Atom → String
  | str s => s
  | day d => d.text
  | moment m => m.textWith " "
  | a => a.inner

end Atom

namespace Doc

mutual

/-- A document inside of a container. -/
def inner : Doc → String
  | .atom a => a.inner
  | .list xs => "[" ++ ", ".intercalate (innerItems xs) ++ "]"
  | .obj fs => "\x7b" ++ ", ".intercalate (innerFields fs) ++ "\x7d"
  | .set xs => if xs.isEmpty then "set()"
    else "\x7b" ++ ", ".intercalate (xs.map Atom.inner) ++ "\x7d"

/-- The texts of the elements of a list. -/
def innerItems : List Doc → List String
  | [] => []
  | x :: r => inner x :: innerItems r

/-- The texts of the fields of a table. -/
def innerFields : List (Atom × Doc) → List String
  | [] => []
  | (k, v) :: r => (k.inner ++ ": " ++ inner v) :: innerFields r

end

/-- A document by itself. -/
def text : Doc → String
  | .atom a => a.text
  | d => d.inner

end Doc

end Glasshouse
