/-
Glasshouse.Condition — the trees of conditions that a rule tests. A leaf looks
at one sensor, device, clock, aggregate, trend or sign of life; the inner
nodes are "all of", "any of" and "not". A negation has one child by its type.
-/

namespace Glasshouse

/-- How two numbers are compared. -/
inductive Comparison where
  | gt | gte | lt | lte | eq | neq
  deriving DecidableEq, Repr

namespace Comparison

/-- The name of a comparison. -/
def name : Comparison → String
  | gt => "GT"
  | gte => "GTE"
  | lt => "LT"
  | lte => "LTE"
  | eq => "EQ"
  | neq => "NEQ"

/-- Every comparison, in the order in which messages list them. -/
def all : List Comparison := [gt, gte, lt, lte, eq, neq]

/-- Whether a comparison holds. -/
def holds (c : Comparison) (actual expected : Float) : Bool :=
  match c with
  | gt => decide (expected < actual)
  | gte => decide (expected ≤ actual)
  | lt => decide (actual < expected)
  | lte => decide (actual ≤ expected)
  | eq => actual == expected
  | neq => actual != expected

end Comparison

/-- What a group makes of the results of its children. -/
inductive Logic where
  | and | or | not
  deriving DecidableEq, Repr

namespace Logic

/-- The name of a group's operator. -/
def name : Logic → String
  | and => "AND"
  | or => "OR"
  | not => "NOT"

/-- Every operator. -/
def all : List Logic := [and, or, not]

end Logic

/-- How the readings of a window become one number. -/
inductive Aggregation where
  | avg | min | max | count | sum
  deriving DecidableEq, Repr

namespace Aggregation

/-- The name of an aggregation. -/
def name : Aggregation → String
  | avg => "AVG"
  | min => "MIN"
  | max => "MAX"
  | count => "COUNT"
  | sum => "SUM"

/-- Every aggregation. -/
def all : List Aggregation := [avg, min, max, count, sum]

end Aggregation

/-- The direction in which the readings of a window move. -/
inductive Trend where
  | rising | falling | stable
  deriving DecidableEq, Repr

namespace Trend

/-- The name of a direction. -/
def name : Trend → String
  | rising => "rising"
  | falling => "falling"
  | stable => "stable"

/-- Every direction. -/
def all : List Trend := [rising, falling, stable]

end Trend

/-- The latest reading of a sensor, not too old, compares with a value. -/
structure SensorTest where
  sensor : String
  field : String
  comparison : Comparison
  value : Float
  maxAge : Nat := 10

/-- A device has a status. -/
structure DeviceTest where
  device : String
  expected : String

/-- The local time of day lies between two times `HH:MM`, on certain weekdays. -/
structure TimeTest where
  start : String
  stop : String
  /-- Days of the week, 0 for Sunday, ascending; none for every day. -/
  days : Option (List Nat) := none

/-- An aggregate over a window of minutes compares with a threshold. -/
structure HistoryTest where
  sensor : String
  field : String
  aggregation : Aggregation
  window : Nat
  comparison : Comparison
  threshold : Float

/-- The readings of a window of minutes move in a direction. -/
structure TrendTest where
  sensor : String
  field : String
  trend : Trend
  window : Nat
  slope : Float := 0.01

/-- A sensor has been silent for more than so many minutes. -/
structure HeartbeatTest where
  sensor : String
  timeout : Nat

/-- A condition without parts. -/
inductive Leaf where
  | sensor (t : SensorTest)
  | device (t : DeviceTest)
  | time (t : TimeTest)
  | history (t : HistoryTest)
  | trend (t : TrendTest)
  | heartbeat (t : HeartbeatTest)

/-- A tree of conditions. -/
inductive Condition where
  | all (children : List Condition)
  | any (children : List Condition)
  | negation (child : Condition)
  | leaf (l : Leaf)

/-- The end of a window that lies on the next day: the window wraps midnight. -/
def TimeTest.wraps (t : TimeTest) : Bool :=
  decide (t.stop ≤ t.start)

/-- The name of the kind of a leaf. -/
def Leaf.kind : Leaf → String
  | sensor _ => "sensor"
  | device _ => "device"
  | time _ => "time"
  | history _ => "history"
  | trend _ => "trend"
  | heartbeat _ => "heartbeat"

namespace Condition

/-- The group that an operator makes of its children; a negation needs exactly one. -/
def group? (op : Logic) (children : List Condition) : Option Condition :=
  match op, children with
  | .and, cs => some (.all cs)
  | .or, cs => some (.any cs)
  | .not, [c] => some (.negation c)
  | .not, _ => none

/-- The name of the kind of a node. -/
def kind : Condition → String
  | leaf l => l.kind
  | _ => "group"

mutual

/-- The leaves of a tree, from left to right. -/
def leaves : Condition → List Leaf
  | all cs => leavesOf cs
  | any cs => leavesOf cs
  | negation c => leaves c
  | leaf l => [l]

/-- The leaves of a list of trees. -/
def leavesOf : List Condition → List Leaf
  | [] => []
  | c :: r => leaves c ++ leavesOf r

end

theorem leavesOf_eq_flatMap (cs : List Condition) : leavesOf cs = cs.flatMap leaves := by
  induction cs with
  | nil => rfl
  | cons c r ih => simp [leavesOf, ih]

end Condition

end Glasshouse
