/-
Glasshouse.Service.Form — the forms of what calls bring and of what answers
hold. A body or a parameter of the wrong form is answered with all that is
wrong; an answer that would have the wrong form is not given at all.
-/
import Glasshouse.Calendar.Stamp
import Glasshouse.Rule.Reader
import Glasshouse.Service.Call
import Glasshouse.Store.Executions

namespace Glasshouse.Service

open Schema Calendar

/-! ## What calls bring -/

/-- The number of a rule in a place. -/
def ruleNumber (name : String) : Checked Int :=
  ((integer (.str name)).under (.key "rule_id")).under (.key "path")

/-- A parameter that may be missing. -/
def parameter {α : Type} (c : Call) (name : String) (absent : α) (read : String → Checked α) :
    Checked α :=
  match c.parameter? name with
  | none => .ok absent
  | some s => ((read s).under (.key name)).under (.key "query")

/-- A moment. -/
def stamp (s : String) : Checked Moment :=
  match Stamp.read s with
  | .ok m => .ok m
  | .error f => .flaw (.momentFromDate f.text)

/-- A body that has to be there. -/
def body {α : Type} (read : Doc → Checked α) : Option Doc → Checked α
  | none => .flawed [⟨[.key "body"], .missing⟩]
  | some d => (read d).under (.key "body")

/-- A body that may be missing. -/
def bodyOr {α : Type} (absent : α) (read : Doc → Checked α) : Option Doc → Checked α
  | none => .ok absent
  | some d => (read d).under (.key "body")

/-- The fields of a body. -/
def fieldsOf {α : Type} (read : Fields → Checked α) : Doc → Checked α
  | .obj o => read o
  | _ => .flaw .notBody

/-- A table or a list. -/
def tableOrList : Doc → Checked Doc
  | .obj o => .ok (.obj o)
  | .list xs => .ok (.list xs)
  | _ => .flawed [⟨[.key "dict[str,any]"], .notTable⟩, ⟨[.key "list[any]"], .notList⟩]

/-- A table. -/
def anyTable : Doc → Checked Doc
  | .obj o => .ok (.obj o)
  | _ => .flaw .notTable

/-- A rule to be created, of the right form but not yet read. -/
def ruleDraft : Doc → Checked Doc :=
  fieldsOf fun o =>
    (fun name description enabled priority cooldown conditions actions => Doc.record [
      ("name", .str name), ("description", .ofOption .str description),
      ("enabled", .bool enabled), ("priority", .int priority),
      ("cooldown_minutes", .nat cooldown), ("conditions", conditions),
      ("actions", .list actions)])
    <$> required o Key.name (boundedText maxNameLength)
    <*> optional o Key.description none (nullable text)
    <*> optional o Key.enabled true truth
    <*> optional o Key.rulePriority 5 integer
    <*> optional o Key.cooldownMinutes 15 natural
    <*> required o Key.conditions tableOrList
    <*> optional o Key.actions [] (list anyTable)

/-- Conditions to be tested. -/
def conditionsDraft : Doc → Checked Doc :=
  fieldsOf fun o => required o Key.conditions tableOrList

/-- At least one number. -/
def someNumbers (d : Doc) : Checked (List Int) :=
  (list integer d).andThen fun ns => if ns.isEmpty then .flaw .tooFew else .ok ns

/-- Numbers of rules. -/
def ruleNumbers : Doc → Checked (List Int) :=
  fieldsOf fun o => required o (.same "rule_ids") someNumbers

/-- Whether to carry out actions in any case. -/
def force : Doc → Checked Bool :=
  fieldsOf fun o => optional o (.same "force") false truth

/-! ## What answers hold -/

/-- A document that is a table. -/
def isTable : Doc → Bool
  | .obj _ => true
  | _ => false

/-- A document that is a list of tables. -/
def isTables : Doc → Bool
  | .list xs => xs.all isTable
  | _ => false

/-- A document that is `null` or has a form. -/
def orNull (p : Doc → Bool) : Doc → Bool
  | .null => true
  | d => p d

/-- A stored rule in an answer. -/
def ruleView? (r : RuleRow) : Option Doc :=
  if isTable r.conditions && isTables r.actions then some r.toDoc else none

/-- A stored execution in an answer. -/
def executionView? (e : ExecutionRow) : Option Doc :=
  if orNull isTable e.triggerData && orNull isTable e.evaluation && orNull isTables e.actions then
    some (match e.toDoc with
      | .obj o => .obj (Fields.erase "has_stack_trace" o)
      | d => d)
  else none

mutual

/-- A document whose doubles are all finite: others become `null`. -/
def finite : Doc → Doc
  | .atom (.num x) => if x.isFinite then .num x else .null
  | .atom a => .atom a
  | .list xs => .list (finiteItems xs)
  | .obj o => .obj (finiteFields o)
  | .set xs => .set xs

/-- Elements made finite. -/
def finiteItems : List Doc → List Doc
  | [] => []
  | d :: r => finite d :: finiteItems r

/-- Fields made finite. -/
def finiteFields : List (Atom × Doc) → List (Atom × Doc)
  | [] => []
  | (k, d) :: r => (k, finite d) :: finiteFields r

end

end Glasshouse.Service
