/-
Glasshouse.Condition.Writer — the canonical document of a condition tree:
every field, plain names, groups with their operator. `Condition.same` tells
whether two trees agree, doubles being compared by their bits.
-/
import Glasshouse.Condition
import Glasshouse.Doc

namespace Glasshouse

/-- The canonical document of a leaf. -/
def Leaf.toDoc : Leaf → Doc
  | .sensor t => .record [
      ("type", .str "sensor"), ("sensor_id", .str t.sensor), ("field", .str t.field),
      ("operator", .str t.comparison.name), ("value", .num t.value),
      ("max_data_age_minutes", .nat t.maxAge)]
  | .device t => .record [
      ("type", .str "device"), ("device_id", .str t.device), ("expected_status", .str t.expected)]
  | .time t => .record [
      ("type", .str "time"), ("time_start", .str t.start), ("time_end", .str t.stop),
      ("days_of_week", .ofOption (.ofList .nat) t.days)]
  | .history t => .record [
      ("type", .str "history"), ("sensor_id", .str t.sensor), ("field", .str t.field),
      ("aggregation", .str t.aggregation.name), ("window_minutes", .nat t.window),
      ("operator", .str t.comparison.name), ("threshold", .num t.threshold)]
  | .trend t => .record [
      ("type", .str "trend"), ("sensor_id", .str t.sensor), ("field", .str t.field),
      ("trend", .str t.trend.name), ("window_minutes", .nat t.window),
      ("slope_threshold", .num t.slope)]
  | .heartbeat t => .record [
      ("type", .str "heartbeat"), ("sensor_id", .str t.sensor), ("timeout_minutes", .nat t.timeout)]

namespace Condition

/-- The canonical document of a group. -/
def groupDoc (op : Logic) (children : List Doc) : Doc :=
  .record [("type", .str "group"), ("operator", .str op.name), ("children", .list children)]

mutual

/-- The canonical document of a tree. -/
def toDoc : Condition → Doc
  | all cs => groupDoc .and (toDocs cs)
  | any cs => groupDoc .or (toDocs cs)
  | negation c => groupDoc .not [toDoc c]
  | leaf l => l.toDoc

/-- The canonical documents of a list of trees. -/
def toDocs : List Condition → List Doc
  | [] => []
  | c :: r => toDoc c :: toDocs r

end

end Condition

/-! ## Agreement -/

open Number (sameBits)

/-- Whether two leaves agree. -/
def Leaf.same : Leaf → Leaf → Bool
  | .sensor a, .sensor b =>
    a.sensor == b.sensor && a.field == b.field && a.comparison == b.comparison
      && sameBits a.value b.value && a.maxAge == b.maxAge
  | .device a, .device b => a.device == b.device && a.expected == b.expected
  | .time a, .time b => a.start == b.start && a.stop == b.stop && a.days == b.days
  | .history a, .history b =>
    a.sensor == b.sensor && a.field == b.field && a.aggregation == b.aggregation
      && a.window == b.window && a.comparison == b.comparison && sameBits a.threshold b.threshold
  | .trend a, .trend b =>
    a.sensor == b.sensor && a.field == b.field && a.trend == b.trend && a.window == b.window
      && sameBits a.slope b.slope
  | .heartbeat a, .heartbeat b => a.sensor == b.sensor && a.timeout == b.timeout
  | _, _ => false

namespace Condition

mutual

/-- Whether two trees agree. -/
def same : Condition → Condition → Bool
  | all cs, all ds => sameAll cs ds
  | any cs, any ds => sameAll cs ds
  | negation c, negation d => same c d
  | leaf l, leaf m => l.same m
  | _, _ => false

/-- Whether two lists of trees agree. -/
def sameAll : List Condition → List Condition → Bool
  | [], [] => true
  | c :: r, d :: s => same c d && sameAll r s
  | _, _ => false

end

end Condition

end Glasshouse
