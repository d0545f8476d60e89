/-
Glasshouse.Dispatch — the actions of a rule carried out. Each is tried once, in
order and within a time limit; one that fails or takes too long leaves the
others alone. Commands to one device never overlap: each first waits for the
last one to it, also if that was given up. The table of last commands,
`World.writes`, says which one that is.
-/
import Glasshouse.Notice
import Glasshouse.Template

namespace Glasshouse

open Calendar

/-- What actions may know about why they are carried out. -/
structure Occasion where
  ruleId : Int
  ruleName : String
  now : Moment
  snapshot : Option Snapshot := none

/-- What an action did. -/
inductive Effect where
  | notice (message : String) (delivered : Delivered)
  /-- The change of a device, and the job that undoes it. -/
  | device (change : DeviceChange) (revert : Option Int)
  | response (status : Nat) (body : Doc)
  | queued (queue : String) (job : Int)

/-- An effect as a document. -/
def Effect.toDoc : Effect → Doc
  | notice message delivered =>
    .record [("message", .str message), ("channels", delivered.toDoc)]
  | device change revert =>
    .record (change.fields ++ (revert.map fun j => ("revert_job_id", Doc.int j)).toList)
  | response status body => .record [("status_code", .nat status), ("body", body)]
  | queued queue job => .record [("queue_name", .str queue), ("job_id", .int job)]

/-- What became of an action: its effect, or why it failed. -/
structure Outcome where
  index : Nat
  kind : String
  result : Except String Effect

namespace Outcome

/-- Whether an action succeeded. -/
def succeeded (o : Outcome) : Bool :=
  match o.result with
  | .ok _ => true
  | .error _ => false

/-- What became of an action, as a document. -/
def toDoc (o : Outcome) : Doc :=
  .record ([("action_index", .nat o.index), ("type", .str o.kind),
    ("success", .bool o.succeeded)] ++ match o.result with
    | .ok e => [("result", e.toDoc)]
    | .error t => [("error", .str t)])

/-- The failures of a list in one line; none if there are none. -/
def complaint? (os : List Outcome) : Option String :=
  let parts := os.filterMap fun o => match o.result with
    | .ok _ => none
    | .error t => some ("#" ++ toString o.index ++ " " ++ o.kind ++ ": " ++ t)
  if parts.isEmpty then none else some ("; ".intercalate parts)

end Outcome

/-- The queue of jobs that undo commands. -/
def revertQueue : String := "device_revert"

/-- The job that undoes a command. -/
structure Revert where
  device : String
  command : Command
  value : Option String
  due : Moment
  ruleId : Int

/-- The job that undoes a command, as a document. -/
def Revert.toDoc (r : Revert) : Doc :=
  .record [("device_id", .str r.device), ("action", .str r.command.name),
    ("value", .ofOption .str r.value), ("due_at", .str r.due.text), ("rule_id", .int r.ruleId)]

/-- The command that leads back to what a device was before a change: to its value
where a value was set, to its status otherwise. -/
def undo (command : Command) (c : DeviceChange) : Command × Option String :=
  if command == .setValue then (.setValue, c.previousValue)
  else if c.previousStatus == "on" then (.turnOn, none)
  else (.turnOff, none)

/-- The job that undoes a command after so many minutes. -/
def Revert.after (a : DeviceAction) (c : DeviceChange) (minutes : Nat) (o : Occasion) :
    Except Fault Revert := do
  let span ← Span.ofMinutes? minutes
  let due ← o.now.plus span
  let (command, value) := undo a.command c
  .ok ⟨a.device, command, value, due, o.ruleId⟩

namespace Dispatch

/-- What fills a template: values of sensors, those of the action, and those of the rule,
of which later ones count. -/
def fillings (a : NoticeAction) (o : Occasion) : Fields :=
  let sensors := (o.snapshot.map Snapshot.sensorValues).getD []
  Fields.set "timestamp" (.str o.now.text) <| Fields.set "rule_name" (.str o.ruleName) <|
    Fields.set "rule_id" (.int o.ruleId) (sensors.update a.values)

/-- A notice built from its template and sent. -/
def notify (a : NoticeAction) (o : Occasion) : Work Effect := do
  let values := fillings a o
  let message := Template.render a.template values
  let title := match a.title with
    | some t => if t.isEmpty then none else some (Template.render t values)
    | none => none
  let media := a.media.map Medium.name
  let metadata := Doc.record [("rule_id", .int o.ruleId), ("rule_name", .str o.ruleName)]
  let delivered ← Notice.sendNoted ⟨message, title, media, a.urgency.name, metadata⟩ [
    ("message", .str message), ("title", .ofOption .str title), ("channels", .ofList .str media),
    ("priority", .str a.urgency.name), ("metadata", metadata)]
  if delivered.failed.isEmpty then pure (.notice message delivered)
  else throw (.notDelivered delivered.failed)

/-- A command sent on its way and entered as the last one to its device; gives its number and
how long it takes, also where it fails in the end. -/
def takeOff (device command : String) (value : Option String) (w : World) :
    (Nat × Duration) × World :=
  let (fault, w) := w.consult .deviceCommand
  let delay := (w.delays.get? command).getD 0
  ((w.tickets, delay), { w with
    tickets := w.tickets + 1
    flights := w.flights ++ [⟨w.tickets, device, command, value, w.elapsed + delay, fault⟩]
    writes := w.writes.put device w.tickets })

/-- A command carried out, however long that takes. -/
def commandDevice (device command : String) (value : Option String) : Work DeviceChange := do
  let (ticket, delay) ← ExceptT.lift (Plan.change (takeOff device command value))
  ExceptT.lift (Plan.sleep delay)
  let result ← ExceptT.lift (Plan.look fun w => w.landed.get? ticket)
  Work.ofExcept (result.getD (.error (.deviceMissing device)))

/-- A command, and the job that undoes it. -/
def control (a : DeviceAction) (o : Occasion) : Work Effect := do
  let change ← commandDevice a.device a.command.name (a.value.map Setting.stored)
  match a.duration with
  | none => pure (.device change none)
  | some minutes =>
    let revert ← Work.ofExcept (Revert.after a change minutes o)
    ExceptT.lift Plan.yield
    let job ← Work.store .enqueue fun s => s.enqueue revertQueue revert.toDoc JobRank.high.name
    pure (.device change (some job))

/-- The greatest number of characters kept of an answer that is no document. -/
def bodyLimit : Nat := 500

/-- A request to a web address, with the payload as its body unless it only asks. -/
def callWebhook (url method : String) (headers : List (String × String)) (payload : Option Doc) :
    Work Effect := do
  let body := if method == Method.get.name then none else payload
  let answer ← Work.exchangeOk .webhook (Wire.prepare (Text.upper method) url headers body)
  pure (.response answer.status (answer.content bodyLimit))

/-- A job put into its queue, with the rule that asked for it. -/
def enqueue (a : JobAction) (o : Occasion) : Work Effect := do
  ExceptT.lift Plan.yield
  let payload := Doc.obj (Fields.set "rule_id" (.int o.ruleId) a.payload)
  let job ← Work.store .enqueue fun s => s.enqueue a.queue payload a.rank.name
  pure (.queued a.queue job)

/-- An action carried out. -/
def perform (a : Action) (o : Occasion) : Work Effect :=
  match a with
  | .notice a => notify a o
  | .device a => control a o
  | .webhook a =>
    callWebhook a.url.text a.method.name a.headers (a.payload.map Doc.obj)
  | .job a => enqueue a o

/-- A time limit in seconds as a length of time; none if no time is left at all. -/
def limit? (seconds : Float) : Option Duration :=
  if seconds ≤ 0.0 then none
  else some (match Number.roundInt? (seconds * 1000000.0) with
    | some n => max n.toNat 1
    | none => Plan.forever)

/-- An activity within a time limit; without any time it is not even begun. -/
def limited {α : Type} (seconds : Float) (p : Activity α) : Activity (Option α) := do
  Plan.yield
  match limit? seconds with
  | none => pure none
  | some d => p.within d

/-- A wait for the last command to a device until it is over, and then for the one that is
the last by then, for so many commands at most. -/
def awaitLast (device : String) : Nat → Activity Unit
  | 0 => pure ()
  | n + 1 => do
    let d ← Plan.look fun w => (w.pending? device).map fun f => f.due - w.elapsed
    match d with
    | none => pure ()
    | some d =>
      Plan.sleep d
      awaitLast device n

/-- A wait until the last command to a device is over. Each wait is for one of the commands
that are on their way now, as none is sent meanwhile. -/
def awaitDevice (device : String) : Activity Unit := do
  let n ← Plan.look fun w => w.flights.length
  awaitLast device n

/-- The text of the result of an action that was tried. -/
def settle (kind : String) (seconds : Float) :
    Option (Except Fault Effect) → Except String Effect
  | some (.ok e) => .ok e
  | none | some (.error (.foreign .timeout _)) => .error (Fault.actionTimedOut kind seconds).record
  | some (.error e) => .error e.record

/-- One action tried. -/
def tryOne (index : Nat) (a : Action) (o : Occasion) : Activity Outcome := do
  match a with
  | .device d => awaitDevice d.device
  | _ => pure ()
  let seconds ← Plan.look fun w => w.settings.actionTimeout
  let result ← limited seconds (perform a o).run
  pure ⟨index, a.kind, settle a.kind seconds result⟩

/-- The actions from a number on tried in order. -/
def tryFrom (i : Nat) (o : Occasion) : List Action → Activity (List Outcome)
  | [] => pure []
  | a :: r => do
    let x ← tryOne i a o
    let xs ← tryFrom (i + 1) o r
    pure (x :: xs)

/-- The actions of a rule carried out. -/
def run (actions : List Action) (o : Occasion) : Work (List Outcome) := do
  Work.consult .dispatch
  ExceptT.lift (tryFrom 0 o actions)

end Dispatch

end Glasshouse
