/-
Glasshouse.Calendar.Moment — points in time as they are written: a wall clock
reading, with or without an offset from universal time. Spans and instants
are integers of microseconds. Arithmetic that leaves the years 1 to 9999, and
arithmetic that mixes readings with and without offset, are faults.
-/
import Glasshouse.Calendar.Date
import Glasshouse.Fault

namespace Glasshouse.Calendar

/-- A length of time in microseconds. -/
abbrev Span := Int

/-- A point in universal time: microseconds since 0001-01-01T00:00:00Z. -/
abbrev Instant := Int

/-- Microseconds of one second. -/
def second : Span := 1000000

/-- Microseconds of one minute. -/
def minute : Span := 60 * second

/-- Microseconds of one day. -/
def dayLength : Span := 86400 * second

/-- The first reading after the year 9999. -/
def endOfTime : Int := 3652059 * dayLength

/-- Whether a wall clock reading lies in the years 1 to 9999. -/
def inCalendar (wall : Int) : Bool :=
  0 ≤ wall && wall < endOfTime

/-- A span of so many minutes, if its days can be counted. -/
def Span.ofMinutes? (n : Int) : Except Fault Span :=
  let span := n * minute
  let days := span / dayLength
  if days < -2147483648 || 2147483647 < days then .error .spanUncountable
  else if days < -999999999 || 999999999 < days then .error (.spanTooLong days)
  else .ok span

/-- A span as a result of arithmetic: its days have to stay countable. -/
def Span.check (span : Span) : Except Fault Span :=
  let days := span / dayLength
  if days < -999999999 || 999999999 < days then .error (.spanTooLong days) else .ok span

/-- The span in seconds. -/
def Span.seconds (span : Span) : Float :=
  Number.decimalFloat (span < 0) span.natAbs 6

/-- A wall clock reading in microseconds since 0001-01-01T00:00:00, and its
offset from universal time in microseconds. -/
structure Moment where
  wall : Int
  offset : Option Int := none
  deriving DecidableEq, Repr

namespace Moment

/-- The reading of universal time at an instant. -/
def ofInstant (i : Instant) : Moment := ⟨i, some 0⟩

/-- Universal time, where a reading without offset counts as universal time. -/
def toInstant (m : Moment) : Except Fault Instant :=
  let i := m.wall - m.offset.getD 0
  if inCalendar i then .ok i else .error .dateOutOfRange

/-- A reading without offset taken as universal time; others are kept. -/
def assumeUtc (m : Moment) : Moment :=
  match m.offset with
  | none => ⟨m.wall, some 0⟩
  | some _ => m

/-- The time from `b` to `a`. -/
def minus (a b : Moment) : Except Fault Span :=
  match a.offset, b.offset with
  | some x, some y => .ok ((a.wall - x) - (b.wall - y))
  | none, none => .ok (a.wall - b.wall)
  | _, _ => .error .mixedSubtraction

/-- Whether `a` lies after `b`. -/
def after (a b : Moment) : Except Fault Bool :=
  match a.offset, b.offset with
  | some x, some y => .ok (decide (b.wall - y < a.wall - x))
  | none, none => .ok (decide (b.wall < a.wall))
  | _, _ => .error .mixedComparison

/-- The reading a span later, on the same clock. -/
def plus (m : Moment) (s : Span) : Except Fault Moment :=
  if inCalendar (m.wall + s) then .ok { m with wall := m.wall + s } else .error .dateOutOfRange

/-- The day of a reading. -/
def date (m : Moment) : Date :=
  Date.ofDays (m.wall / dayLength).toNat

/-- The microseconds since midnight. -/
def timeOfDay (m : Moment) : Nat :=
  (m.wall % dayLength).toNat

/-- The minute of the day, 0 to 1439. -/
def minuteOfDay (m : Moment) : Nat :=
  m.timeOfDay / 60000000

/-- The day of the week, 0 for Sunday. -/
def weekday (m : Moment) : Nat :=
  ((m.wall / dayLength).toNat + 1) % 7

/-- `HH:MM`. -/
def clockText (m : Moment) : String :=
  padded 2 (m.minuteOfDay / 60) ++ ":" ++ padded 2 (m.minuteOfDay % 60)

/-- Hours, minutes, seconds and a fraction of six digits unless it is zero. -/
def timeText (t : Nat) : String :=
  let base := padded 2 (t / 3600000000) ++ ":" ++ padded 2 (t / 60000000 % 60) ++ ":"
    ++ padded 2 (t / 1000000 % 60)
  if t % 1000000 == 0 then base else base ++ "." ++ padded 6 (t % 1000000)

/-- A sign, hours and minutes, and what is finer unless it is zero. -/
def offsetText (o : Int) : String :=
  let t := o.natAbs
  let base := padded 2 (t / 3600000000) ++ ":" ++ padded 2 (t / 60000000 % 60)
  (if o < 0 then "-" else "+") ++
    (if t % 60000000 == 0 then base else timeText t)

/-- The reading with a separator between day and time; the offset follows. -/
def textWith (separator : String) (m : Moment) : String :=
  m.date.text ++ separator ++ timeText m.timeOfDay ++ (m.offset.map offsetText).getD ""

/-- `YYYY-MM-DDTHH:MM:SS[.ffffff][+HH:MM]`. -/
def text (m : Moment) : String := m.textWith "T"

/-- The text with universal time written as `Z`. -/
def textZ (m : Moment) : String :=
  match m.offset with
  | some 0 => { m with offset := none : Moment }.text ++ "Z"
  | _ => m.text

end Moment

/-- The text of an instant without offset. -/
def naiveText (i : Instant) : String := Moment.text ⟨i, none⟩

end Glasshouse.Calendar
