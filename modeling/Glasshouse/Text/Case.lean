/-
Glasshouse.Text.Case — upper and lower case of texts in all scripts. A
character may change into several (`ß` into `SS`), and a capital sigma at the
end of a word becomes the final form.
-/
import Glasshouse.Text.CaseTable

namespace Glasshouse.Text

/-- The case image of one character beyond ASCII. -/
def mapCase (runs : List CaseRun) (expansions : List (Nat × List Nat)) (c : Char) : List Char :=
  match runs.findSome? (·.image? c.toNat) with
  | some n => [Char.ofNat n]
  | none =>
    match expansions.lookup c.toNat with
    | some ns => ns.map Char.ofNat
    | none => [c]

/-- The upper case of one character. -/
def upperChar (c : Char) : List Char :=
  if c.toNat < 128 then [c.toUpper] else mapCase upperRuns upperExpansions c

/-- The lower case of one character outside of any word. -/
def lowerChar (c : Char) : List Char :=
  if c.toNat < 128 then [c.toLower] else mapCase lowerRuns lowerExpansions c

/-- Whether the nearest character that is not looked through has case. -/
def nextIsCased : List Char → Bool
  | [] => false
  | c :: r => if caseIgnorableRanges.contains c.toNat then nextIsCased r
    else casedRanges.contains c.toNat

/-- Lower case with the characters read so far (latest first) at hand. -/
def lowerFrom (before : List Char) : List Char → List Char
  | [] => []
  | c :: r =>
    let image :=
      if c.toNat == 0x3A3 then
        if nextIsCased before && !nextIsCased r then ['\u03c2'] else ['\u03c3']
      else lowerChar c
    image ++ lowerFrom (c :: before) r

/-- A text in upper case. -/
def upper (s : String) : String :=
  String.ofList (s.toList.flatMap upperChar)

/-- A text in lower case. -/
def lower (s : String) : String :=
  String.ofList (lowerFrom [] s.toList)

end Glasshouse.Text
