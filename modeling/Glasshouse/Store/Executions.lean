/-
Glasshouse.Store.Executions — the history of rules in the store: what was
recorded, newest first, and how often a rule fired in a span of time.
-/
import Glasshouse.Store

namespace Glasshouse

open Calendar

/-- What is to be recorded about a rule that fired. -/
structure Execution where
  ruleId : Int
  triggeredAt : Moment
  success : Bool := true
  /-- Milliseconds, where they were measured. -/
  time : Option Float := none
  suppressed : Bool := false
  triggerData : Option Doc := none
  evaluation : Option Doc := none
  actions : List Doc := []
  error : Option String := none
  stackTrace : Option String := none

/-- An execution as a document, without its duration and its stack trace. -/
def Execution.toDoc (e : Execution) : Doc :=
  .record [
    ("rule_id", .int e.ruleId), ("triggered_at", .str e.triggeredAt.text),
    ("success", .bool e.success), ("suppressed", .bool e.suppressed),
    ("trigger_data", .ofOption id e.triggerData),
    ("evaluation_result", .ofOption id e.evaluation), ("actions_executed", .list e.actions),
    ("error", .ofOption .str e.error)]

/-- The duration in whole milliseconds, a half going to the even neighbour; one that
was not measured counts as zero. -/
def Execution.wholeTime? (e : Execution) : Option Int :=
  match e.time with
  | none => some 0
  | some t => Number.roundInt? t

/-- How often a rule fired. -/
structure Stats where
  ruleId : Int
  total : Nat
  successful : Nat
  failed : Nat
  suppressed : Nat
  last : Option Instant

/-- The numbers as a document, with the time written by a function. -/
def Stats.toDoc (time : Instant → Doc) (s : Stats) : Doc :=
  .record [
    ("rule_id", .int s.ruleId), ("total_executions", .nat s.total),
    ("successful_executions", .nat s.successful), ("failed_executions", .nat s.failed),
    ("suppressed_executions", .nat s.suppressed), ("last_execution", .ofOption time s.last)]

namespace Store

/-- An execution recorded; gives its number. -/
def recordExecution (s : Store) (e : Execution) : Except Fault (Int × Store) := do
  let i ← instantOf e.triggeredAt
  let some time := e.wholeTime? | .error .integerTooLarge
  requireFits [e.ruleId, time]
  let id := nextId (s.executions.map (·.id))
  let row : ExecutionRow := ⟨id, e.ruleId, i, e.success, e.suppressed, time,
    e.triggerData.getD .null, e.evaluation.getD .null, .list e.actions, e.error, e.stackTrace⟩
  .ok (id, { s with executions := s.executions ++ [row] })

/-- Whether an execution comes before another in lists: later ones first. -/
def newerFirst (a b : ExecutionRow) : Bool :=
  decide (b.triggeredAt < a.triggeredAt)
    || (a.triggeredAt == b.triggeredAt && decide (b.id ≤ a.id))

/-- The executions of a rule, newest first; a negative limit is none. -/
def executionsOf (s : Store) (id : Int) (limit : Int) : Except Fault (List ExecutionRow) := do
  requireFits [id, limit]
  let rows := (s.executions.filter fun e => e.ruleId == id).mergeSort newerFirst
  .ok (if limit < 0 then rows else rows.take limit.toNat)

/-- How often a rule fired from `start` to `stop`, both included. -/
def stats (s : Store) (id : Int) (start stop : Moment) : Except Fault Stats := do
  let a ← instantOf start
  let b ← instantOf stop
  requireFits [id]
  let rows := s.executions.filter fun e =>
    e.ruleId == id && decide (a ≤ e.triggeredAt) && decide (e.triggeredAt ≤ b)
  .ok {
    ruleId := id
    total := rows.length
    successful := rows.countP fun e => e.success
    failed := rows.countP fun e => !e.success
    suppressed := rows.countP fun e => e.suppressed
    last := (rows.map (·.triggeredAt)).max? }

end Store

end Glasshouse
