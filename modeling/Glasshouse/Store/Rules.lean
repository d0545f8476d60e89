/-
Glasshouse.Store.Rules — rules in the store. A rule is stored as its
definition says and read back with `RuleRow.toRule`, which may refuse what was
put there by other means. Removing a rule removes its executions.
-/
import Glasshouse.Store
import Glasshouse.Rule.Reader
import Glasshouse.Rule.Writer

namespace Glasshouse

open Calendar

namespace RuleRow

/-- The fields of a stored rule. -/
def fields (r : RuleRow) : Fields :=
  match r.toDoc with
  | .obj o => o
  | _ => []

/-- The rule that a row holds; a stored time is universal time. -/
def toRule (r : RuleRow) : Except Refusal Rule :=
  Rule.ofRecord r.fields (r.lastTriggered.map fun i => ⟨i, none⟩)

/-- The row of a new rule. -/
def ofDefinition (id : Int) (d : Definition) : RuleRow :=
  { id := id, name := d.name, description := d.description, enabled := d.enabled,
    priority := d.priority, cooldown := d.cooldown, conditions := d.conditions.toDoc,
    actions := Action.listToDoc d.actions }

/-- Whether a rule comes before another in lists: by priority, then by number. -/
def before (a b : RuleRow) : Bool :=
  decide (a.priority < b.priority) || (a.priority == b.priority && decide (a.id ≤ b.id))

end RuleRow

namespace Store

/-- A row added; its integers must fit and its number must be new. -/
def addRule (s : Store) (r : RuleRow) : Except Fault (RuleRow × Store) := do
  requireFits [r.id, r.priority, r.cooldown, r.triggerCount]
  if s.rules.any fun q => q.id == r.id then .error .constraintViolated
  else .ok (r, { s with rules := s.rules ++ [r] })

/-- The number of the next rule. -/
def nextRule (s : Store) : Int := nextId (s.rules.map (·.id))

/-- A rule stored. Actions with a value that contains itself cannot be written out. -/
def createRule (s : Store) (d : Definition) : Except Fault (RuleRow × Store) :=
  let row : RuleRow := .ofDefinition s.nextRule d
  if row.actions.ends then s.addRule row else .error .circular

/-- The rule with a number. -/
def rule? (s : Store) (id : Int) : Option RuleRow := s.rules.find? (·.id == id)

/-- The rule with a number; the number has to fit. -/
def findRule (s : Store) (id : Int) : Except Fault (Option RuleRow) := do
  requireFits [id]
  .ok (s.rule? id)

/-- All rules, by priority and number. -/
def allRules (s : Store) : List RuleRow := s.rules.mergeSort RuleRow.before

/-- The enabled rules, by priority and number. -/
def enabledRules (s : Store) : List RuleRow := s.allRules.filter (·.enabled)

/-- A rule changed. -/
def updateRule (s : Store) (id : Int) (f : RuleRow → RuleRow) : Store :=
  { s with rules := s.rules.map fun r => if r.id == id then f r else r }

/-- A rule switched on or off; gives the row if there is one. -/
def setEnabled (s : Store) (id : Int) (on : Bool) : Except Fault (Option RuleRow × Store) := do
  requireFits [id]
  let t := s.updateRule id fun r => { r with enabled := on }
  .ok (t.rule? id, t)

/-- Rules switched on or off; gives the rows that there are. -/
def setAllEnabled (s : Store) (ids : List Int) (on : Bool) :
    Except Fault (List RuleRow × Store) := do
  requireFits ids
  let t := ids.foldl (fun t id => t.updateRule id fun r => { r with enabled := on }) s
  .ok (t.rules.filter fun r => ids.contains r.id, t)

/-- A rule removed with its executions, if it is there. -/
def deleteRule (s : Store) (id : Int) : Except Fault (Bool × Store) := do
  requireFits [id]
  if (s.rule? id).isSome then
    .ok (true, { s with
      rules := s.rules.filter fun r => r.id != id
      executions := s.executions.filter fun e => e.ruleId != id })
  else .ok (false, s)

/-- A trigger noted with a rule, if it is there: the time never moves back and the
count never shrinks. -/
def noteTrigger (s : Store) (id : Int) (time : Moment) (count : Int) : Except Fault (Unit × Store) := do
  let i ← instantOf time
  requireFits [id]
  match s.rule? id with
  | none => .ok ((), s)
  | some r =>
    if r.triggerCount < count then requireFits [count]
    .ok ((), s.updateRule id fun r => { r with
      lastTriggered := some (match r.lastTriggered with
        | some j => max i j
        | none => i)
      triggerCount := max r.triggerCount count })

end Store

end Glasshouse
