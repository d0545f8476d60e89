/-
Glasshouse.Query — the questions that conditions ask about sensors and
devices, each with its own kind of answer. `Leaf.query?` is the one question
of a leaf; `Condition.queries` lists those of a tree, each once, in the order
in which its leaves ask them.
-/
import Glasshouse.Condition
import Glasshouse.Calendar.Moment

namespace Glasshouse

open Calendar

/-- One value of a sensor, and when it was measured. -/
structure Reading where
  value : Float
  time : Moment

/-- A question about sensors and devices. Windows are in minutes and end now. -/
inductive Query where
  /-- The newest reading of a field. -/
  | latest (sensor field : String)
  /-- The status of a device. -/
  | device (id : String)
  /-- One number made of the readings of a window. -/
  | aggregate (sensor field : String) (aggregation : Aggregation) (window : Nat)
  /-- The readings of a window, oldest first. -/
  | history (sensor field : String) (window : Nat)
  /-- When a sensor reported anything last. -/
  | lastSeen (sensor : String)
  deriving DecidableEq, Repr

namespace Query

/-- What answers a question. -/
abbrev Answer : Query → Type
  | latest .. => Option Reading
  | device .. => Option String
  | aggregate .. => Option Float
  | history .. => List Float
  | lastSeen .. => Option Moment

/-- The answer where nothing is known. -/
def nothing : (q : Query) → q.Answer
  | latest .. => none
  | device .. => none
  | aggregate .. => none
  | history .. => []
  | lastSeen .. => none

end Query

/-- The question that a leaf asks; a window of the clock asks none. -/
def Leaf.query? : Leaf → Option Query
  | sensor t => some (.latest t.sensor t.field)
  | device t => some (.device t.device)
  | time _ => none
  | history t => some (.aggregate t.sensor t.field t.aggregation t.window)
  | trend t => some (.history t.sensor t.field t.window)
  | heartbeat t => some (.lastSeen t.sensor)

/-- The questions of a tree, each once. -/
def Condition.queries (c : Condition) : List Query :=
  (c.leaves.filterMap Leaf.query?).eraseDups

end Glasshouse
