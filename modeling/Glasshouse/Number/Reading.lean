/-
Glasshouse.Number.Reading — numbers read from texts. Both readers allow white
space at the ends, a sign, and single underscores between digits. An integer
may carry a fraction of zeros; a double may have a point, an exponent, or be
one of the names of the values that are not finite.
-/
import Glasshouse.Number.Shortest
import Glasshouse.Text.Blank

namespace Glasshouse.Number

/-- The value of an ASCII digit. -/
def digitValue (c : Char) : Nat :=
  c.toNat - 48

/-- The number written by ASCII digits. -/
def digitsValue (cs : List Char) : Nat :=
  cs.foldl (fun n c => 10 * n + digitValue c) 0

/-- A text without its underscores, if each of them stands between two digits. -/
def joinDigits? (previous : Option Char) : List Char → Option (List Char)
  | [] => some []
  | '_' :: r =>
    if previous.any Char.isDigit && r.head?.any Char.isDigit then joinDigits? none r else none
  | c :: r => (joinDigits? (some c) r).map (c :: ·)

/-- A sign and what follows it; `true` stands for minus. -/
def splitSign : List Char → Bool × List Char
  | '-' :: r => (true, r)
  | '+' :: r => (false, r)
  | cs => (false, cs)

/-- Whether a text is empty or a point followed by zeros, at least one. -/
def isZeroFraction : List Char → Bool
  | [] => true
  | '.' :: z :: r => z == '0' && r.all (· == '0')
  | _ => false

/-- The integer that a text stands for. -/
def readInt? (s : String) : Option Int := do
  let cs ← joinDigits? none (Text.stripBy Text.isSpace s.toList)
  let (negative, body) := splitSign cs
  let digits := body.takeWhile Char.isDigit
  if digits.isEmpty || !isZeroFraction (body.dropWhile Char.isDigit) then none
  else
    let n : Int := digitsValue digits
    some (if negative then -n else n)

/-- `digits · 10^power` as a double: infinite when too large, zero when too small. -/
def floatOfDecimal (d : Decimal) : Float :=
  if d.digits == 0 then 0.0
  else
    let first := d.power + digitCount d.digits
    if first > 310 then Float.ofBits 0x7FF0000000000000
    else if first < -330 then 0.0
    else if d.power < 0 then Float.ofScientific d.digits true d.power.natAbs
    else Float.ofScientific d.digits false d.power.natAbs

/-- The exponent part of a number: empty, or `e`, a sign and digits. -/
def readExponent? : List Char → Option Int
  | [] => some 0
  | c :: r =>
    if c == 'e' || c == 'E' then
      let (negative, ds) := splitSign r
      if ds.isEmpty || !ds.all Char.isDigit then none
      else
        let n : Int := digitsValue ds
        some (if negative then -n else n)
    else none

/-- The decimal number written as digits, an optional point with digits after
it, and an optional exponent; one digit at least stands before the exponent. -/
def readDecimal? (cs : List Char) : Option Decimal := do
  let whole := cs.takeWhile Char.isDigit
  let (part, rest) := match cs.dropWhile Char.isDigit with
    | '.' :: r => (r.takeWhile Char.isDigit, r.dropWhile Char.isDigit)
    | r => ([], r)
  if whole.isEmpty && part.isEmpty then none
  else
    let e ← readExponent? rest
    some ⟨digitsValue (whole ++ part), e - part.length⟩

/-- The unsigned double that a text stands for. -/
def readMagnitude? (cs : List Char) : Option Float :=
  let name := String.ofList (cs.map Char.toLower)
  if name == "nan" then some (Float.ofBits 0x7FF8000000000000)
  else if name == "inf" || name == "infinity" then some (Float.ofBits 0x7FF0000000000000)
  else (readDecimal? cs).map floatOfDecimal

/-- The double that a text stands for. -/
def readFloat? (s : String) : Option Float := do
  let cs ← joinDigits? none (Text.stripBy Text.isSpace s.toList)
  let (negative, body) := splitSign cs
  let x ← readMagnitude? body
  some (if negative then -x else x)

end Glasshouse.Number
