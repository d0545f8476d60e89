/-
Glasshouse.Evaluation.Writer — the outcome of judging a tree as a document.
Every detail has a path, a kind, a result and, except for groups that were
judged, a status.
-/
import Glasshouse.Evaluation

namespace Glasshouse

namespace Evidence

/-- The kind of the leaf. -/
def kind : Evidence → String
  | sensor .. => "sensor"
  | device .. => "device"
  | time .. => "time"
  | history .. => "history"
  | trend .. => "trend"
  | heartbeat .. => "heartbeat"

/-- Whether the data were there and good enough. -/
def status : Evidence → String
  | sensor _ none | device _ none | heartbeat _ none => "missing"
  | sensor _ (some (_, _, false)) => "stale"
  | history _ none => "empty"
  | trend _ values => if (Slope.ofValues? values).isSome then "ok" else "insufficient"
  | _ => "ok"

/-- The fields that each kind of leaf adds. -/
def fields : Evidence → List (String × Doc)
  | sensor t found => [
      ("sensor_id", .str t.sensor), ("field", .str t.field),
      ("operator", .str t.comparison.name), ("expected", .num t.value)] ++
      match found with
      | none => [("actual", .null)]
      | some (r, age, _) =>
        [("actual", .num r.value), ("age_seconds", .num (Number.roundTo 1 age.seconds))]
  | device t status => [
      ("device_id", .str t.device), ("expected", .str t.expected),
      ("actual", .ofOption .str status)]
  | time t clock weekday => [
      ("time_start", .str t.start), ("time_end", .str t.stop), ("actual", .str clock),
      ("weekday", .nat weekday)] ++
      (if t.includesDay weekday then [] else [("reason", .str "day_of_week")])
  | history t value => [
      ("sensor_id", .str t.sensor), ("field", .str t.field),
      ("aggregation", .str t.aggregation.name), ("window_minutes", .nat t.window),
      ("operator", .str t.comparison.name), ("expected", .num t.threshold),
      ("actual", .ofOption .num value)]
  | trend t values => [
      ("sensor_id", .str t.sensor), ("field", .str t.field), ("trend", .str t.trend.name),
      ("window_minutes", .nat t.window), ("samples", .nat values.length)] ++
      ((Slope.ofValues? values).map fun x => ("slope", .num (Number.roundTo 6 x))).toList
  | heartbeat t seen => [
      ("sensor_id", .str t.sensor), ("timeout_minutes", .nat t.timeout),
      ("last_seen", .ofOption (fun p => .str p.1.text) seen)]

end Evidence

/-- A path as a text. -/
def pathText (path : List Nat) : String :=
  ".".intercalate ("root" :: path.map toString)

/-- A detail as a document. -/
def Detail.toDoc (d : Detail) : Doc :=
  .record (("path", .str (pathText d.path)) ::
    match d.finding with
    | .group op result => [
        ("type", .str "group"), ("operator", .str op.name), ("result", .bool result)]
    | .leaf e => ("type", .str e.kind) :: e.fields ++ [
        ("result", .bool e.result), ("status", .str e.status)]
    | .skipped kind => [
        ("type", .str kind), ("result", .null), ("status", .str "skipped")])

/-- The outcome as a document. -/
def Evaluation.toDoc (e : Evaluation) : Doc :=
  .record [("result", .bool e.result), ("details", .ofList Detail.toDoc e.details)]

end Glasshouse
