/-
Glasshouse.Calendar.Date — days of the Gregorian calendar from the year 1 on,
as year, month and day and as a count of days since 0001-01-01, which is a
Monday.
-/

namespace Glasshouse.Calendar

/-- A day of the calendar. -/
structure Date where
  year : Nat
  month : Nat
  day : Nat
  deriving DecidableEq, Repr

/-- Whether a year has 366 days. -/
def isLeap (y : Nat) : Bool :=
  y % 4 == 0 && (y % 100 != 0 || y % 400 == 0)

/-- The number of days of a month. -/
def daysInMonth (y m : Nat) : Nat :=
  if m == 2 then (if isLeap y then 29 else 28)
  else if m == 4 || m == 6 || m == 9 || m == 11 then 30
  else 31

/-- The number of days in the years before `y`. -/
def daysBeforeYear (y : Nat) : Nat :=
  let p := y - 1
  p * 365 + p / 4 - p / 100 + p / 400

/-- The number of days in the months before `m` of the year `y`. -/
def daysBeforeMonth (y m : Nat) : Nat :=
  (List.range (m - 1)).foldl (fun n k => n + daysInMonth y (k + 1)) 0

/-- The number of days from 0001-01-01 to the date. -/
def Date.toDays (d : Date) : Nat :=
  daysBeforeYear d.year + daysBeforeMonth d.year d.month + (d.day - 1)

/-- The month that holds the day `n` of a year (counted from 0), and the day in it. -/
def monthOfDay (y : Nat) : List Nat → Nat → Nat × Nat
  | [], n => (12, n + 1)
  | m :: r, n =>
    let k := daysInMonth y m
    if n < k then (m, n + 1) else monthOfDay y r (n - k)

/-- The date that lies `n` days after 0001-01-01. -/
def Date.ofDays (n : Nat) : Date :=
  let n400 := n / 146097
  let r400 := n % 146097
  let n100 := r400 / 36524
  let r100 := r400 % 36524
  let n4 := r100 / 1461
  let r4 := r100 % 1461
  let n1 := r4 / 365
  let r1 := r4 % 365
  let year := n400 * 400 + n100 * 100 + n4 * 4 + n1 + 1
  if n1 == 4 || n100 == 4 then ⟨year - 1, 12, 31⟩
  else
    let (m, d) := monthOfDay year ((List.range 12).map (· + 1)) r1
    ⟨year, m, d⟩

/-- Whether year, month and day name a day of the years 1 to 9999. -/
def Date.isValid (d : Date) : Bool :=
  1 ≤ d.year && d.year ≤ 9999 && 1 ≤ d.month && d.month ≤ 12 && 1 ≤ d.day
    && d.day ≤ daysInMonth d.year d.month

/-- A number with at least `width` digits. -/
def padded (width n : Nat) : String :=
  let t := toString n
  String.ofList (List.replicate (width - t.length) '0') ++ t

/-- `YYYY-MM-DD`. -/
def Date.text (d : Date) : String :=
  padded 4 d.year ++ "-" ++ padded 2 d.month ++ "-" ++ padded 2 d.day

/-- The first Sunday of a month on or after the day `from`. -/
def sundayFrom (y m start : Nat) : Date :=
  let days := Date.toDays ⟨y, m, start⟩
  ⟨y, m, start + (6 - days % 7)⟩

/-- The last Sunday of a month. -/
def lastSunday (y m : Nat) : Date :=
  sundayFrom y m (daysInMonth y m - 6)

end Glasshouse.Calendar
