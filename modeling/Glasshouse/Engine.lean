/-
Glasshouse.Engine — rules judged and their actions carried out. A tick takes
all enabled rules in their order; a manual trigger takes one rule and does not
ask how long ago it fired. Ticks and manual triggers exclude each other by a
lock. What goes wrong with one rule is recorded with it and stops no other.
-/
import Glasshouse.Dispatch
import Glasshouse.Evaluation.Writer

namespace Glasshouse

open Calendar

/-- What became of a rule that was looked at. -/
inductive Report where
  | notMatched (ruleId : Int) (evaluation : Evaluation)
  | suppressed (e : Execution)
  /-- All actions succeeded; `noted` tells whether that could be noted with the rule. -/
  | triggered (e : Execution) (noted : Bool)
  | failed (e : Execution)

/-- What became of a rule, as a document. -/
def Report.toDoc : Report → Doc
  | notMatched id evaluation => .record [
      ("rule_id", .int id), ("status", .str "not_matched"), ("evaluation", evaluation.toDoc)]
  | suppressed e => report "suppressed" e
  | triggered e _ => report "triggered" e
  | failed e => report "failed" e
where
  /-- The report on an execution. -/
  report (status : String) (e : Execution) : Doc :=
    .record [("rule_id", .int e.ruleId), ("status", .str status), ("execution", e.toDoc)]

/-- What a tick did. -/
structure Summary where
  startedAt : Moment
  evaluated : Nat := 0
  triggered : Nat := 0
  suppressed : Nat := 0
  failed : Nat := 0
  error : Option String := none

namespace Summary

/-- A tick as a document, without its duration. -/
def toDoc (s : Summary) : Doc :=
  .record ([("started_at", .str s.startedAt.text), ("evaluated", .nat s.evaluated),
    ("triggered", .nat s.triggered), ("suppressed", .nat s.suppressed),
    ("failed", .nat s.failed)] ++ (s.error.map fun e => ("error", Doc.str e)).toList)

/-- A tick with one more rule. -/
def add (s : Summary) (r : Report) : Summary :=
  let s := { s with evaluated := s.evaluated + 1 }
  match r with
  | .notMatched .. => s
  | .suppressed _ => { s with suppressed := s.suppressed + 1 }
  | .triggered .. => { s with triggered := s.triggered + 1 }
  | .failed _ => { s with failed := s.failed + 1 }

end Summary

/-- A tick in full. -/
inductive Round where
  /-- The rules could not be loaded. -/
  | unloaded (startedAt : Moment) (error : String)
  /-- The rules that were loaded, in their order, and what became of each. -/
  | done (startedAt : Moment) (rules : List Rule) (reports : List Report)

/-- What a tick did, in numbers. -/
def Round.summary : Round → Summary
  | unloaded t e => { startedAt := t, error := some e }
  | done t _ reports => reports.foldl Summary.add { startedAt := t }

namespace Engine

/-! ## Memory -/

/-- A change of what the engine remembers. -/
def remember (f : Memory → Memory) : Activity Unit :=
  Plan.modify fun w => { w with memory := f w.memory }

/-- A change of the engine's counts. -/
def count (f : Tally → Tally) : Activity Unit :=
  remember fun m => { m with tally := f m.tally }

/-- An event published. -/
def publish (kind : EventKind) (payload : Doc) : Activity Unit :=
  Plan.modify fun w => { w with channel := w.channel.publish ⟨kind, payload⟩ }

/-- A change of the cooldowns, kept also where it fails half way. -/
def adjust (f : Cooldown → Except Fault Unit × Cooldown) : Work Unit :=
  ExceptT.mk (Plan.change fun w =>
    let (r, c) := f w.memory.cooldowns
    (r, { w with memory := { w.memory with cooldowns := c } }))

/-! ## Records -/

/-- A record that may fail to be written, which is only counted. -/
def keep {α : Type} (x : Work α) : Activity (Option α) := do
  match ← x.run with
  | .ok a => pure (some a)
  | .error _ =>
    remember fun m => { m with lost := m.lost + 1 }
    pure none

/-- An execution recorded; gives its number. -/
def record (e : Execution) : Activity (Option Int) :=
  keep (Work.store .recordExecution fun s => s.recordExecution e)

/-- A trigger noted with its rule. -/
def noteTrigger (id : Int) (time : Moment) (count : Nat) : Activity (Option Unit) :=
  keep (Work.store .noteTrigger fun s => s.noteTrigger id time count)

/-! ## One rule -/

/-- Conditions judged on the present state. -/
def evaluate (c : Condition) (now : Moment) : Work (Evaluation × Snapshot) := do
  let zone ← ExceptT.lift (Plan.look World.zone)
  let s ← c.capture zone now (Work.ask now)
  let e ← Work.ofExcept (c.evaluate s)
  pure (e, s)

/-- Whether a rule may fire by its cooldown. -/
def eligible (id : Int) (now : Moment) : Work Bool := do
  let c ← ExceptT.lift (Plan.look fun w => w.memory.cooldowns)
  Work.ofExcept (c.eligible id now)

/-- What is recorded about a rule whose conditions hold. -/
def execution (rule : Rule) (now : Moment) (e : Evaluation) (s : Snapshot) : Execution :=
  { ruleId := rule.id, triggeredAt := now, triggerData := some s.toDoc,
    evaluation := some e.toDoc }

/-- A rule whose conditions hold, but that has fired not long ago. -/
def suppress (rule : Rule) (now : Moment) (e : Evaluation) (s : Snapshot) : Work Report := do
  ExceptT.lift (count fun t => { t with suppressed := t.suppressed + 1 })
  let c ← ExceptT.lift (Plan.look fun w => w.memory.cooldowns)
  let _ ← Work.ofExcept (c.remaining rule.id now)
  let x := { execution rule now e s with suppressed := true }
  let _ ← ExceptT.lift (record x)
  pure (.suppressed x)

/-- A success noted in the cooldowns and with the rule; tells whether the latter could be. -/
def markTriggered (rule : Rule) (now : Moment) : Work Bool := do
  let (time, n) ← ExceptT.mk (Plan.change fun w =>
    match w.memory.cooldowns.mark rule.id now with
    | .ok (r, c) => (.ok r, { w with memory := { w.memory with cooldowns := c } })
    | .error e => (.error e, w))
  let noted ← ExceptT.lift (noteTrigger rule.id time n)
  ExceptT.lift (count fun t => { t with triggered := t.triggered + 1 })
  pure noted.isSome

/-- A failure counted; nothing is noted with the rule. -/
def countFailure : Work Bool := do
  ExceptT.lift (count fun t => { t with failed := t.failed + 1 })
  pure false

/-- The event that tells of a rule that fired. -/
def triggeredEvent (rule : Rule) (now : Moment) (success : Bool) (outcomes : List Outcome) : Doc :=
  .record [("rule_id", .int rule.id), ("rule_name", .str rule.name),
    ("triggered_at", .str now.text), ("success", .bool success),
    ("actions_executed", .ofList Outcome.toDoc outcomes)]

/-- The actions of a rule carried out and recorded. -/
def fire (rule : Rule) (now : Moment) (e : Evaluation) (s : Snapshot) : Work Report := do
  let outcomes ← Dispatch.run rule.actions ⟨rule.id, rule.name, now, some s⟩
  let success := outcomes.all Outcome.succeeded
  let noted ← if success then markTriggered rule now else countFailure
  let x := { execution rule now e s with
    success := success
    actions := outcomes.map Outcome.toDoc
    error := Outcome.complaint? outcomes }
  let _ ← ExceptT.lift (record x)
  ExceptT.lift (publish .ruleTriggered (triggeredEvent rule now success outcomes))
  pure (if success then .triggered x noted else .failed x)

/-- A rule whose conditions hold or do not count. -/
def respond (rule : Rule) (now : Moment) (bypass : Bool) (e : Evaluation) (s : Snapshot) :
    Work Report := do
  if bypass then fire rule now e s
  else if ← eligible rule.id now then fire rule now e s
  else suppress rule now e s

/-- A fault recorded with the rule that it came from. -/
def recordFault (rule : Rule) (now : Moment) (judged : Option (Evaluation × Snapshot))
    (f : Fault) : Activity Report := do
  count fun t => { t with failed := t.failed + 1 }
  let x : Execution := {
    ruleId := rule.id
    triggeredAt := now
    success := false
    triggerData := judged.map fun p => p.2.toDoc
    evaluation := judged.map fun p => p.1.toDoc
    error := some f.record
    stackTrace := some "" }
  let _ ← record x
  pure (.failed x)

/-- A rule looked at. With `force` its conditions do not count, with `bypass` its
cooldown does not. -/
def processRule (rule : Rule) (now : Moment) (bypass force : Bool) : Activity Report := do
  count fun t => { t with evaluated := t.evaluated + 1 }
  match ← (evaluate rule.conditions now).run with
  | .error f => recordFault rule now none f
  | .ok (e, s) =>
    if !e.result && !force then pure (.notMatched rule.id e)
    else
      match ← (respond rule now bypass e s).run with
      | .ok r => pure r
      | .error f => recordFault rule now (some (e, s)) f

/-! ## Ticks -/

/-- The rules that rows hold; a row that is refused is only counted. -/
def build : List RuleRow → Work (List Rule)
  | [] => pure []
  | row :: rows => do
    match row.toRule with
    | .ok r => do
      let rs ← build rows
      pure (r :: rs)
    | .error (.rejected _) => do
      ExceptT.lift (count fun t => { t with invalid := t.invalid + 1 })
      build rows
    | .error (.fault f) => throw f

/-- Rules put in their order, which is remembered. -/
def arrange (rules : List Rule) : Activity (List Rule) :=
  Plan.change fun w =>
    let (sorted, order) := w.memory.order.sort rules
    (sorted, { w with memory := { w.memory with order := order } })

/-- Rules looked at one after the other. -/
def processAll (now : Moment) : List Rule → Activity (List Report)
  | [] => pure []
  | r :: rs => do
    let report ← processRule r now false false
    let reports ← processAll now rs
    pure (report :: reports)

/-- A tick with the rows of the enabled rules. -/
def tickWith (now : Moment) (rows : List RuleRow) : Work Round := do
  let rules ← build rows
  ExceptT.lift (remember fun m => { m with activeRules := rules.length })
  adjust fun c => c.refresh rules
  let sorted ← ExceptT.lift (arrange rules)
  let reports ← ExceptT.lift (processAll now sorted)
  ExceptT.lift (remember fun m => { m with lastError := none })
  pure (.done now sorted reports)

/-- A tick, once it holds the lock. -/
def tickLocked : Work Round := do
  let now ← ExceptT.lift (Plan.look World.clock)
  ExceptT.lift (count fun t => { t with ticks := t.ticks + 1 })
  ExceptT.lift (remember fun m => { m with lastTickAt := some now })
  match ← ExceptT.lift (Work.fetch .enabledRules fun s => .ok s.enabledRules).run with
  | .ok rows => tickWith now rows
  | .error f =>
    let error := "Failed to load rules: " ++ f.text
    ExceptT.lift (remember fun m => { m with lastError := some error })
    pure (.unloaded now error)

/-- An activity that holds the lock, which has to be free. -/
def locked {α : Type} (p : Activity α) : Activity α := do
  remember fun m => { m with locked := true }
  let a ← p
  remember fun m => { m with locked := false }
  pure a

/-- A tick in full, unless a tick or a trigger is under way. -/
def round : Work (Option Round) := do
  Work.consult .tick
  if ← ExceptT.lift (Plan.look fun w => w.memory.locked) then
    ExceptT.lift (count fun t => { t with skipped := t.skipped + 1 })
    pure none
  else
    let r ← ExceptT.mk (locked tickLocked.run)
    pure (some r)

/-- A tick in numbers, unless a tick or a trigger is under way. -/
def tick : Work (Option Summary) := do
  let r ← round
  pure (r.map Round.summary)

/-! ## By hand -/

/-- The rule with a number as it is stored. -/
def load (id : Int) : ExceptT Refusal Activity Rule := do
  match ← (Work.fetch .getRule fun s => s.findRule id).run with
  | .error f => throw (.fault f)
  | .ok none => throw (.fault (.ruleMissing id))
  | .ok (some row) => ExceptT.mk (pure row.toRule)

/-- A loaded rule looked at, once the lock is held. -/
def triggerLocked (rule : Rule) (force : Bool) : Work Report := do
  adjust fun c => c.sync rule
  let now ← ExceptT.lift (Plan.look World.clock)
  ExceptT.lift (processRule rule now true force)

/-- A rule looked at now, whether or not it is enabled and however long ago it fired. -/
def trigger (id : Int) (force : Bool) : ExceptT Refusal Activity Report := do
  let rule ← load id
  ExceptT.lift Plan.awaitLock
  let r ← ExceptT.lift (locked (triggerLocked rule force).run)
  ExceptT.mk (pure (r.mapError .fault))

/-- Conditions judged on the present state, without any consequence. -/
def test (c : Condition) : Work Doc := do
  let now ← ExceptT.lift (Plan.look World.clock)
  let (e, s) ← evaluate c now
  pure (.record [("result", .bool e.result), ("details", .ofList Detail.toDoc e.details),
    ("state", s.toDoc)])

/-- Conditions given as a document judged on the present state. -/
def testDoc (d : Doc) : ExceptT Refusal Activity Doc := do
  let c ← ExceptT.mk (pure (match d with
    | .obj _ | .list _ | .str _ => Condition.parse d
    | d => .error (.fault (.nodeUnsupported d.kindName))))
  ExceptT.mk ((test c).run.bind fun r => pure (r.mapError .fault))

end Engine

end Glasshouse
