/-
Glasshouse.Calendar.Stamp — moments read from the texts of people and other
programs: a date, a date with a time and perhaps an offset, or a number of
seconds or milliseconds since 1970. A text that is no moment is taken for a
date, and what is wrong with that date is told.
-/
import Glasshouse.Calendar.Reading

namespace Glasshouse.Calendar.Stamp

/-- What is wrong with a date. -/
inductive Flaw where
  | tooShort | year | separator | month | day | monthRange | dayRange | surplus | tooEarly
  | tooLate
  deriving DecidableEq, Repr

/-- The wording of a flaw. -/
def Flaw.text : Flaw → String
  | tooShort => "input is too short"
  | year => "invalid character in year"
  | separator => "invalid date separator, expected \x60-\x60"
  | month => "invalid character in month"
  | day => "invalid character in day"
  | monthRange => "month value is outside expected range of 1-12"
  | dayRange => "day value is outside expected range"
  | surplus => "unexpected extra characters at the end of the input"
  | tooEarly => "dates before 0000 are not supported as unix timestamps"
  | tooLate => "dates after 9999 are not supported as unix timestamps"

/-- A number of digits at the head of a text. -/
def digits (n : Nat) (f : Flaw) (cs : List Char) : Except Flaw (Nat × List Char) :=
  match takeNumber? n cs with
  | some r => .ok r
  | none => .error f

/-- A hyphen at the head of a text. -/
def hyphen : List Char → Except Flaw (List Char)
  | '-' :: r => .ok r
  | _ => .error .separator

/-- A date at the head of a text. -/
def takeDay (s : String) : Except Flaw (Date × List Char) := do
  if s.utf8ByteSize < 10 then .error .tooShort
  let (y, r) ← digits 4 .year s.toList
  let r ← hyphen r
  let (m, r) ← digits 2 .month r
  let r ← hyphen r
  let (d, r) ← digits 2 .day r
  if m < 1 || 12 < m then .error .monthRange
  else if d < 1 || daysInMonth y m < d then .error .dayRange
  else if y == 0 then .error .tooEarly
  else .ok (⟨y, m, d⟩, r)

/-- Hours and minutes, and seconds with a fraction if they are given. -/
def takeTime? (cs : List Char) : Option (Nat × List Char) := do
  let (h, r) ← takeNumber? 2 cs
  let ':' :: r := r | none
  let (m, r) ← takeNumber? 2 r
  if 23 < h || 59 < m then none
  else
    let base := (h * 60 + m) * 60000000
    match r with
    | ':' :: r =>
      let (s, r) ← takeNumber? 2 r
      if 59 < s then none
      else
        let base := base + s * 1000000
        match r with
        | c :: f =>
          if c == '.' || c == ',' then
            let ds := f.takeWhile Char.isDigit
            if ds.isEmpty then none
            else
              let six := ds.take 6
              some (base + Number.digitsValue six * Nat.pow 10 (6 - six.length),
                f.dropWhile Char.isDigit)
          else some (base, r)
        | [] => some (base, r)
    | r => some (base, r)

/-- An offset, or none at the end of the text. -/
def readOffset? : List Char → Option (Option Int)
  | [] => some none
  | ['Z'] | ['z'] => some (some 0)
  | c :: r => do
    let sign : Int ← if c == '+' then some 1 else if c == '-' || c == '−' then some (-1) else none
    let (h, r) ← takeNumber? 2 r
    let (m, r) ← takeNumber? 2 (match r with
      | ':' :: r => r
      | r => r)
    if !r.isEmpty || 59 < m || 23 < h then none
    else some (some (sign * ((h * 60 + m) * 60000000 : Nat)))

/-- A date with a time. -/
def readClock? (s : String) : Option Moment := do
  let (d, r) ← (takeDay s).toOption
  let c :: r := r | none
  if ['T', 't', ' ', '_'].contains c then
    let (t, r) ← takeTime? r
    let o ← readOffset? r
    some ⟨d.toDays * dayLength + t, o⟩
  else none

/-- Days from the first day of the calendar to the first of 1970. -/
def epoch : Int := 719162

/-- A number with up to six places, in millionths. -/
def readMillionths? (cs : List Char) : Option Int := do
  let (negative, body) := Number.splitSign cs
  let whole := body.takeWhile Char.isDigit
  let part ← match body.dropWhile Char.isDigit with
    | [] => some []
    | '.' :: r => if r.all Char.isDigit then some r else none
    | _ => none
  if whole.isEmpty then none
  else
    let six := part.take 6
    let n : Int := Number.digitsValue whole * 1000000
      + Number.digitsValue six * Nat.pow 10 (6 - six.length)
    some (if negative then -n else n)

/-- The greatest number that counts seconds; greater ones count milliseconds. -/
def watershed : Int := 20000000000

/-- A moment counted from 1970 in seconds or milliseconds. -/
def ofCount (millionths : Int) : Except Flaw Moment :=
  let micros := if millionths.natAbs > watershed.natAbs * 1000000 then millionths / 1000
    else millionths
  let wall := epoch * dayLength + micros
  if wall < 0 then .error .tooEarly
  else if endOfTime ≤ wall then .error .tooLate
  else .ok ⟨wall, some 0⟩

/-- A date alone, at midnight. -/
def readDay (s : String) : Except Flaw Moment := do
  let (d, r) ← takeDay s
  if r.isEmpty then .ok ⟨d.toDays * dayLength, none⟩ else .error .surplus

/-- The moment that a text stands for. -/
def read (s : String) : Except Flaw Moment :=
  match readClock? s with
  | some m => .ok m
  | none =>
    match readMillionths? s.toList with
    | some n => ofCount n
    | none => readDay s

end Glasshouse.Calendar.Stamp
