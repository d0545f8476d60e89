/-
Glasshouse.Store.Readings — sensor readings in the store and the answers to
the questions of conditions. Windows reach from so many minutes ago to now,
both ends included; later readings are not seen.

Limit. `combine` adds from left to right and rounds each sum. A database that makes
up for the rounding (SQLite does from 3.43 on) gives sums and averages that may
differ in the last places: ten readings of 0.1 add up to 1.0 there. No statement of
this library names a digit of a sum.
-/
import Glasshouse.Store
import Glasshouse.Query

namespace Glasshouse.Store

open Calendar

/-- A reading stored. What is no number cannot be, and zero has no sign. -/
def addReading (s : Store) (sensor field : String) (value : Float) (time : Moment) :
    Except Fault (ReadingRow × Store) := do
  let i ← instantOf time
  if value.isNaN then .error .constraintViolated
  else
    let row : ReadingRow := ⟨nextId (s.readings.map (·.id)), sensor, field,
      if value == 0.0 then 0.0 else value, i⟩
    .ok (row, { s with readings := s.readings ++ [row] })

/-- The readings of a field. -/
def readingsOf (s : Store) (sensor field : String) : List ReadingRow :=
  s.readings.filter fun r => r.sensor == sensor && r.field == field

/-- Whether a reading is at least as old as another: by time, then by number. -/
def olderFirst (a b : ReadingRow) : Bool :=
  decide (a.recordedAt < b.recordedAt)
    || (a.recordedAt == b.recordedAt && decide (a.id ≤ b.id))

/-- The newest reading of a field. -/
def latest (s : Store) (sensor field : String) : Option ReadingRow :=
  ((s.readingsOf sensor field).mergeSort olderFirst).getLast?

/-- The begin and the end of a window of minutes that ends now. -/
def window (now : Moment) (minutes : Int) : Except Fault (Instant × Instant) := do
  let stop ← instantOf now
  let span ← Span.ofMinutes? minutes
  let start := stop - span
  if inCalendar start then .ok (start, stop) else .error .dateOutOfRange

/-- The readings of a window, oldest first. -/
def history (s : Store) (sensor field : String) (minutes : Int) (now : Moment) :
    Except Fault (List Float) := do
  let (start, stop) ← window now minutes
  let rows := (s.readingsOf sensor field).filter fun r =>
    decide (start ≤ r.recordedAt) && decide (r.recordedAt ≤ stop)
  .ok ((rows.mergeSort olderFirst).map (·.value))

/-- The smaller of two numbers. -/
def smaller (x y : Float) : Float := if y < x then y else x

/-- The greater of two numbers. -/
def greater (x y : Float) : Float := if x < y then y else x

/-- The number that an aggregation makes of at least one value. Sums are those of the doubles
in their order, without any compensation for the rounding. -/
def combine (fn : Aggregation) (first : Float) (rest : List Float) : Float :=
  match fn with
  | .sum => rest.foldl (· + ·) first
  | .avg => rest.foldl (· + ·) first / Float.ofNat (rest.length + 1)
  | .min => rest.foldl smaller first
  | .max => rest.foldl greater first
  | .count => Float.ofNat (rest.length + 1)

/-- The aggregate of a window, if any reading lies in it. -/
def aggregate (s : Store) (sensor field : String) (minutes : Int) (fn : Aggregation)
    (now : Moment) : Except Fault (Option Float) := do
  let (start, stop) ← window now minutes
  let rows := (s.readingsOf sensor field).filter fun r =>
    decide (start ≤ r.recordedAt) && decide (r.recordedAt ≤ stop)
  -- sums depend on the order, which is that of the index of readings
  match (rows.mergeSort olderFirst).map (·.value) with
  | [] => .ok none
  | x :: xs =>
    let y := combine fn x xs
    if y.isNaN then .error .sumUndefined else .ok (some y)

/-- When a sensor reported anything last. -/
def lastSeen (s : Store) (sensor : String) : Option Instant :=
  ((s.readings.filter fun r => r.sensor == sensor).map (·.recordedAt)).max?

end Glasshouse.Store
