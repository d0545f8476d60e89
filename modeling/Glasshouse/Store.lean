/-
Glasshouse.Store — the tables that outlive a run: rules, their executions,
sensor readings, devices and queued jobs. Times are kept as universal time;
numbers of rows grow from the greatest number in use.
-/
import Glasshouse.Doc.Text
import Glasshouse.Calendar.Moment
import Glasshouse.Number.Text

namespace Glasshouse

open Calendar

/-- A stored rule. Conditions and actions may hold any document. -/
structure RuleRow where
  id : Int
  name : String
  description : Option String := none
  enabled : Bool := true
  priority : Int := 5
  cooldown : Int := 15
  conditions : Doc
  actions : Doc := .list []
  lastTriggered : Option Instant := none
  triggerCount : Int := 0

/-- A stored execution of a rule. -/
structure ExecutionRow where
  id : Int
  ruleId : Int
  triggeredAt : Instant
  success : Bool
  suppressed : Bool
  /-- Milliseconds. -/
  time : Int
  triggerData : Doc
  evaluation : Doc
  actions : Doc
  error : Option String
  stackTrace : Option String

/-- A stored reading of a sensor. -/
structure ReadingRow where
  id : Int
  sensor : String
  field : String
  value : Float
  recordedAt : Instant

/-- A stored device. -/
structure DeviceRow where
  id : String
  name : String
  kind : String := "relay"
  status : String := "off"
  value : Option String := none

/-- A stored job of a queue. -/
structure JobRow where
  id : Int
  queue : String
  rank : String
  payload : Doc
  status : String := "pending"

/-- Everything that is stored. -/
structure Store where
  rules : List RuleRow := []
  executions : List ExecutionRow := []
  readings : List ReadingRow := []
  devices : List DeviceRow := []
  jobs : List JobRow := []

namespace Store

/-- Whether an integer has a 64 bit form. -/
def fits (n : Int) : Bool := decide (-0x8000000000000000 ≤ n) && decide (n < 0x8000000000000000)

/-- Integers have to have a 64 bit form. -/
def requireFits (ns : List Int) : Except Fault Unit :=
  if ns.all fits then .ok () else .error .integerTooLarge

/-- The number of a new row: one more than the greatest in use. -/
def nextId (ids : List Int) : Int :=
  match ids with
  | [] => 1
  | i :: r => r.foldl max i + 1

theorem le_foldl_max (r : List Int) (i : Int) : i ≤ r.foldl max i := by
  induction r generalizing i with
  | nil => exact Int.le_refl i
  | cons j r ih => exact Int.le_trans (Int.le_max_left i j) (ih (max i j))

theorem le_foldl_max_of_mem {r : List Int} {i j : Int} (h : j ∈ r) : j ≤ r.foldl max i := by
  induction r generalizing i with
  | nil => simp at h
  | cons k r ih =>
    rcases List.mem_cons.1 h with rfl | h
    · exact Int.le_trans (Int.le_max_right i j) (le_foldl_max r (max i j))
    · exact ih h

/-- A new number is greater than every number in use. -/
theorem lt_nextId {ids : List Int} {i : Int} (h : i ∈ ids) : i < nextId ids := by
  cases ids with
  | nil => simp at h
  | cons j r =>
    simp only [nextId]
    rcases List.mem_cons.1 h with rfl | h
    · have := le_foldl_max r i; omega
    · have := @le_foldl_max_of_mem r j i h; omega

/-- The universal time of a moment, which has to lie in the calendar. -/
def instantOf (m : Moment) : Except Fault Instant := m.toInstant

end Store

/-! ## Rows as documents -/

/-- A stored time, without offset. -/
def timeDoc (i : Instant) : Doc := .str (naiveText i)

/-- A stored rule as a document. -/
def RuleRow.toDoc (r : RuleRow) : Doc :=
  .record [
    ("id", .int r.id), ("name", .str r.name), ("description", .ofOption .str r.description),
    ("enabled", .bool r.enabled), ("priority", .int r.priority),
    ("cooldown_minutes", .int r.cooldown), ("conditions", r.conditions), ("actions", r.actions),
    ("last_triggered", .ofOption timeDoc r.lastTriggered), ("trigger_count", .int r.triggerCount)]

/-- A stored execution as a document, without its duration. -/
def ExecutionRow.toDoc (e : ExecutionRow) : Doc :=
  .record [
    ("id", .int e.id), ("rule_id", .int e.ruleId), ("triggered_at", timeDoc e.triggeredAt),
    ("success", .bool e.success), ("suppressed", .bool e.suppressed),
    ("trigger_data", e.triggerData), ("evaluation_result", e.evaluation),
    ("actions_executed", e.actions), ("error_message", .ofOption .str e.error),
    ("has_stack_trace", .bool e.stackTrace.isSome)]

/-- A stored reading as a document. -/
def ReadingRow.toDoc (r : ReadingRow) : Doc :=
  .record [
    ("id", .int r.id), ("sensor_id", .str r.sensor), ("field", .str r.field),
    ("value", .num r.value), ("recorded_at", timeDoc r.recordedAt)]

/-- A stored device as a document. -/
def DeviceRow.toDoc (d : DeviceRow) : Doc :=
  .record [
    ("id", .str d.id), ("name", .str d.name), ("device_type", .str d.kind),
    ("status", .str d.status), ("value", .ofOption .str d.value)]

/-- A stored job as a document. -/
def JobRow.toDoc (j : JobRow) : Doc :=
  .record [
    ("id", .int j.id), ("queue_name", .str j.queue), ("priority", .str j.rank),
    ("payload", j.payload), ("status", .str j.status)]

/-! ## Rows in one line -/

/-- A truth value as a word. -/
def truthWord (b : Bool) : String := (Doc.bool b).text

/-- A rule in one line. -/
def RuleRow.label (r : RuleRow) : String :=
  s!"<Rule {r.id} {Text.quoted r.name} priority={r.priority} enabled={truthWord r.enabled}>"

/-- An execution in one line. -/
def ExecutionRow.label (e : ExecutionRow) : String :=
  "<RuleExecution rule=" ++ toString e.ruleId ++ " success=" ++ truthWord e.success
    ++ " suppressed=" ++ truthWord e.suppressed ++ ">"

/-- A reading in one line. -/
def ReadingRow.label (r : ReadingRow) : String :=
  "<SensorReading " ++ r.sensor ++ "." ++ r.field ++ "=" ++ Number.floatText r.value ++ " at "
    ++ Moment.textWith " " ⟨r.recordedAt, none⟩ ++ ">"

/-- A text between quotes, or the word for nothing. -/
def quotedOrNone (s : Option String) : String := (Doc.ofOption .str s).inner

/-- A device in one line. -/
def DeviceRow.label (d : DeviceRow) : String :=
  "<Device " ++ Text.quoted d.id ++ " status=" ++ Text.quoted d.status ++ " value="
    ++ quotedOrNone d.value ++ ">"

/-- A job in one line. -/
def JobRow.label (j : JobRow) : String :=
  "<QueuedAction " ++ toString j.id ++ " queue=" ++ Text.quoted j.queue ++ " status="
    ++ Text.quoted j.status ++ ">"

end Glasshouse
