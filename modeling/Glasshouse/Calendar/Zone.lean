/-
Glasshouse.Calendar.Zone — time zones as a standard offset with an optional
summer time, whose begin and end are given for each year as instants. A
lookup distinguishes names that no zone has from names that are no paths.

Limit. `known` has five zones by their present rules, for the data base of all zones
with their history; every other name counts as unknown. What is stated of zones is
stated of any `Zone`, and nothing depends on the table.
-/
import Glasshouse.Calendar.Moment

namespace Glasshouse.Calendar

/-- Summer time of a year: one hour more from `start` to `stop`, both in
minutes of universal time since 0001-01-01. -/
structure SummerTime where
  start : Nat → Date × Nat
  stop : Nat → Date × Nat

/-- A time zone. -/
structure Zone where
  name : String
  /-- Minutes east of universal time in winter. -/
  standard : Int
  summer : Option SummerTime := none

namespace Zone

/-- European summer time: from the last Sunday of March to the last Sunday of
October, both at one o'clock universal time. -/
def europe : SummerTime where
  start y := (lastSunday y 3, 60)
  stop y := (lastSunday y 10, 60)

/-- Summer time of the eastern coast of North America: from the second Sunday
of March to the first Sunday of November, at two o'clock local time. -/
def eastern : SummerTime where
  start y := (sundayFrom y 3 8, 7 * 60)
  stop y := (sundayFrom y 11 1, 6 * 60)

/-- Universal time. -/
def utc : Zone := ⟨"UTC", 0, none⟩

/-- The zones that are known: one of each shape, not the data base of all zones. -/
def known : List Zone := [
  utc,
  ⟨"Europe/Madrid", 60, some europe⟩,
  ⟨"Asia/Jakarta", 420, none⟩,
  ⟨"Asia/Kolkata", 330, none⟩,
  ⟨"America/New_York", -300, some eastern⟩]

/-- Whether a name is a path without empty parts, `.` and `..`. -/
def isPath (name : String) : Bool :=
  (name.splitOn "/").all fun part => part != "" && part != "." && part != ".."

/-- The zone with a name. -/
def find (name : String) : Except Fault Zone :=
  if !isPath name then .error (.zoneMalformed name)
  else
    match known.find? (·.name == name) with
    | some z => .ok z
    | none => .error (.zoneUnknown name)

/-- The instant of a date and a minute of universal time. -/
def instantOf (p : Date × Nat) : Instant :=
  p.1.toDays * dayLength + p.2 * minute

/-- The offset in force at an instant, in microseconds. -/
def offsetAt (z : Zone) (i : Instant) : Int :=
  let base := z.standard * minute
  match z.summer with
  | none => base
  | some s =>
    let y := (Date.ofDays (i / dayLength).toNat).year
    if instantOf (s.start y) ≤ i && i < instantOf (s.stop y) then base + 60 * minute else base

/-- The reading of the zone's clocks at a moment. -/
def local? (z : Zone) (m : Moment) : Except Fault Moment := do
  let i ← m.toInstant
  let o := z.offsetAt i
  if inCalendar (i + o) then .ok ⟨i + o, some o⟩ else .error .dateOutOfRange

end Zone

end Glasshouse.Calendar
