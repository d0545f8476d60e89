/-
Glasshouse.Service — the engine as others see it over the web: rules written,
switched, tested and triggered, their history, and the schedule. `respond`
answers every call. An obstacle ends a call early; what was done before it
stays done.
-/
import Glasshouse.Scheduler
import Glasshouse.Service.Form
import Glasshouse.Service.Route

namespace Glasshouse.Service

open Calendar

/-- What a call does on its way to an answer. -/
abbrev Handling := ExceptT Obstacle Activity

namespace Handling

/-- A reading that has to succeed. -/
def valid {α : Type} : Checked α → Handling α
  | .ok a => pure a
  | .flawed is => throw (.malformed is)
  | .broken e => throw (.failed e)

/-- Work that has to succeed. -/
def work {α : Type} (x : Work α) : Handling α :=
  ExceptT.mk (x.run.bind fun r => pure (r.mapError .failed))

/-- The obstacle of a refusal. -/
def obstacle : Refusal → Obstacle
  | .rejected r => .rejected r
  | .fault (.ruleMissing _) => .ruleMissing
  | .fault e => .failed e

/-- Work that may be refused. -/
def attempt {α : Type} (x : ExceptT Refusal Activity α) : Handling α :=
  ExceptT.mk (x.run.bind fun r => pure (r.mapError obstacle))

/-- A rule that has to be there. -/
def present {α : Type} : Option α → Handling α
  | some a => pure a
  | none => throw .ruleMissing

/-- A view that has to have its form. -/
def fit {α : Type} : Option α → Handling α
  | some a => pure a
  | none => throw .unfit

/-- The rule with a number. -/
def findRule (id : Int) : Handling RuleRow := do
  present (← work (.fetch .getRule (·.findRule id)))

/-- An answer that holds a document. -/
def ok (d : Doc) : Handling Answer := pure (.ofDoc 200 (finite d))

end Handling

open Handling

/-! ## Rules -/

/-- All rules, or those that are switched on or off. -/
def listRules (c : Call) : Handling Answer := do
  let on ← valid (parameter c "enabled" none fun s => some <$> Schema.truth (.str s))
  let rules ← work (.fetch .allRules fun s => .ok s.allRules)
  let chosen := rules.filter fun r => on.all (r.enabled == ·)
  ok (.list (← chosen.mapM fun r => fit (ruleView? r)))

/-- A rule created. -/
def createRule (b : Option Doc) : Handling Answer := do
  let draft ← valid (body ruleDraft b)
  let d ← attempt (ExceptT.mk (pure (Definition.parse draft)))
  let row ← work (.store .createRule (·.createRule d))
  let view ← fit (ruleView? row)
  pure (.ofDoc 201 (finite view))

/-- Conditions tested on the present state. -/
def testConditions (b : Option Doc) : Handling Answer := do
  let d ← valid (body conditionsDraft b)
  ok (← attempt (Engine.testDoc d))

/-- Rules switched on or off; tells which of them there are. -/
def setRules (b : Option Doc) (on : Bool) : Handling Answer := do
  let ids ← valid (body ruleNumbers b)
  let rows ← work (.store .setAllEnabled (·.setAllEnabled ids on))
  let sorted (ns : List Int) : List Int := ns.mergeSort fun a b => decide (a ≤ b)
  let updated := sorted (rows.map (·.id))
  let missing := sorted ((ids.filter fun i => !updated.contains i).eraseDups)
  ok (.record [("updated", .ofList .int updated), ("not_found", .ofList .int missing)])

/-- One rule. -/
def showRule (id : String) : Handling Answer := do
  let row ← findRule (← valid (ruleNumber id))
  ok (← fit (ruleView? row))

/-- A rule switched on or off. -/
def setRule (id : String) (on : Bool) : Handling Answer := do
  let n ← valid (ruleNumber id)
  let row ← present (← work (.store .setEnabled (·.setEnabled n on)))
  ok (← fit (ruleView? row))

/-- A rule removed with its history. -/
def deleteRule (id : String) : Handling Answer := do
  let n ← valid (ruleNumber id)
  if ← work (.store .deleteRule (·.deleteRule n)) then
    ok (.record [("status", .str "ok"), ("message", .str s!"Rule {n} deleted")])
  else throw .ruleMissing

/-! ## History -/

/-- The executions of a rule, newest first. -/
def executions (c : Call) (id : String) : Handling Answer := do
  let (n, limit) ← valid (Prod.mk <$> ruleNumber id
    <*> parameter c "limit" 50 fun s => Schema.integer (.str s))
  let _ ← findRule n
  let rows ← work (.fetch .executions (·.executionsOf n limit))
  ok (.list (← rows.mapM fun e => fit (executionView? e)))

/-- How often a rule fired; in the last day unless a span is given. -/
def stats (c : Call) (id : String) : Handling Answer := do
  let (n, start, stop) ← valid ((fun n a b => (n, a, b)) <$> ruleNumber id
    <*> parameter c "start" none (fun s => some <$> stamp s)
    <*> parameter c "end" none (fun s => some <$> stamp s))
  let _ ← findRule n
  let wall ← ExceptT.lift (Plan.look World.wall)
  let stop := stop.getD wall
  let start ← match start with
    | some m => pure m
    | none => work (Work.ofExcept (stop.plus (-dayLength)))
  let s ← work (.fetch .stats (·.stats n start stop))
  ok (s.toDoc fun i => .str (Moment.ofInstant i).textZ)

/-- A rule looked at now. -/
def trigger (b : Option Doc) (id : String) : Handling Answer := do
  let (n, force) ← valid (Prod.mk <$> ruleNumber id <*> bodyOr false force b)
  let report ← attempt (Engine.trigger n force)
  let part (k : String) : String × Doc := (k, (report.toDoc.field? k).getD .null)
  ok (.record [part "rule_id", part "status", part "execution", part "evaluation"])

/-! ## The schedule -/

/-- The status of the engine. -/
def status : Handling Answer := do
  let s ← ExceptT.lift (Plan.look Status.ofWorld)
  ok (s.toDoc Moment.textZ)

/-- Something done, and the status after it. -/
def andStatus (p : Activity Unit) : Handling Answer := do
  ExceptT.lift p
  status

/-- A tick by hand. -/
def tick : Handling Answer := do
  let s ← work Scheduler.tickNow
  ok (.record [("skipped", .bool s.isNone), ("summary", .ofOption Summary.toDoc s)])

/-- That the service is there. -/
def health : Doc :=
  .record [("status", .str "ok"), ("service", .str "hortiflow"), ("version", .str "1.0.0")]

/-! ## Calls -/

/-- What a route does, with the document in the body where it takes one. -/
def handle (c : Call) (b : Option Doc) : Route → Handling Answer
  | .health => ok health
  | .listRules => listRules c
  | .createRule => createRule b
  | .testConditions => testConditions b
  | .setRules on => setRules b on
  | .rule id => showRule id
  | .setRule id on => setRule id on
  | .deleteRule id => deleteRule id
  | .executions id => executions c id
  | .stats id => stats c id
  | .trigger id => trigger b id
  | .status => status
  | .start => andStatus Scheduler.start
  | .stop => andStatus Scheduler.stop
  | .tick => tick

/-- The document that a call brings to a route. -/
def document (c : Call) (r : Route) : Except Obstacle (Option Doc) :=
  if r.takesBody then c.document?.mapError fun i => .malformed [i] else .ok none

/-- The answer to a call. -/
def respond (c : Call) : Activity Answer := do
  match Route.ofCall c with
  | .error a => pure a
  | .ok r =>
    match document c r with
    | .error o => pure o.answer
    | .ok b =>
      match ← (handle c b r).run with
      | .ok a => pure a
      | .error o => pure o.answer

end Glasshouse.Service
