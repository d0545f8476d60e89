/-
Glasshouse.Scheduler — ticks at an interval. Starting, stopping and every tick
publish the status of the engine. What makes a tick fail is kept as the last
error and stops no later tick.
-/
import Glasshouse.Engine

namespace Glasshouse

open Calendar

/-- The status of the engine and its schedule. -/
structure Status where
  schedule : Schedule
  interval : Int
  memory : Memory

namespace Status

/-- The status of a world. -/
def ofWorld (w : World) : Status := ⟨w.schedule, w.settings.interval, w.memory⟩

/-- The status as a document, with times written by a function. Of the next tick
it is only told whether there is one. -/
def toDoc (time : Moment → String) (s : Status) : Doc :=
  let m := s.memory
  let t := m.tally
  .record [
    ("is_running", .bool s.schedule.running), ("interval_seconds", .int s.interval),
    ("next_tick_at", if s.schedule.running then .str "set" else .null),
    ("overruns", .nat s.schedule.overruns), ("active_rules", .nat m.activeRules),
    ("last_tick_at", .ofOption (fun x => .str (time x)) m.lastTickAt),
    ("last_error", .ofOption .str m.lastError), ("tick_in_progress", .bool m.locked),
    ("ticks", .nat t.ticks), ("skipped_ticks", .nat t.skipped),
    ("rules_evaluated", .nat t.evaluated), ("rules_triggered", .nat t.triggered),
    ("suppressed", .nat t.suppressed), ("failed_executions", .nat t.failed),
    ("invalid_rules", .nat t.invalid), ("recorder_failures", .nat m.lost)]

end Status

namespace Scheduler

/-- The status published. -/
def announce : Activity Unit := do
  let s ← Plan.look Status.ofWorld
  Engine.publish .engineStatus (s.toDoc Moment.text)

/-- A change of the schedule. -/
def arrange (f : Schedule → Schedule) : Activity Unit :=
  Plan.modify fun w => { w with schedule := f w.schedule }

/-- The schedule started, unless it is running; the first tick is due at once. -/
def start : Activity Unit := do
  if ← Plan.look fun w => w.schedule.running then pure ()
  else
    arrange fun s => { s with running := true, due := true }
    announce

/-- A tick of the schedule. -/
def tick : Activity Unit := do
  arrange fun s => { s with due := false }
  match ← Engine.tick.run with
  | .ok _ => pure ()
  | .error f => Engine.remember fun m => { m with lastError := some f.text }
  announce

/-- How long to wait for a tick that is under way. -/
def patience (w : World) : Duration := (Dispatch.limit? w.settings.stopTimeout).getD 0

/-- The schedule stopped, if it is running, after a tick that is under way. -/
def stop : Activity Unit := do
  if ← Plan.look fun w => w.schedule.running then
    arrange fun s => { s with running := false, due := false }
    let d ← Plan.look patience
    Plan.whenFree d fun _ => pure ()
    announce
  else pure ()

/-- A tick by hand. -/
def tickNow : Work (Option Summary) := do
  let s ← Engine.tick
  ExceptT.lift announce
  pure s

/-- A tick that is left out because the one before it took too long. -/
def overrun : Activity Unit := do
  arrange fun s => { s with overruns := s.overruns + 1 }
  Engine.count fun t => { t with skipped := t.skipped + 1 }

end Scheduler

end Glasshouse
