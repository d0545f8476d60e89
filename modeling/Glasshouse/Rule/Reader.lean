/-
Glasshouse.Rule.Reader — rules read from documents. A condition tree or an
action list that is refused ends the reading at once and hides what else may
be wrong; all other issues are collected. Keys that no field has are ignored.
-/
import Glasshouse.Rule
import Glasshouse.Condition.Reader
import Glasshouse.Action.Reader

namespace Glasshouse

open Schema

namespace Key

def name : FieldName := .same "name"
def description : FieldName := .same "description"
def enabled : FieldName := .same "enabled"
def rulePriority : FieldName := .same "priority"
def cooldownMinutes : FieldName := .same "cooldown_minutes"
def conditions : FieldName := .same "conditions"
def actions : FieldName := .same "actions"
def id : FieldName := .same "id"
def triggerCount : FieldName := .same "trigger_count"

end Key

/-- The greatest number of characters of a rule's name. -/
def maxNameLength : Nat := 200

namespace Definition

/-- The condition tree of a definition; an issue if there is none. -/
def readConditions (o : Fields) : Except Refusal (Checked Condition) :=
  match Fields.get? "conditions" o with
  | none => .ok (required o Key.conditions fun _ => .flaw .missing)
  | some d => (Condition.parse d).map .ok

/-- The actions of a definition. -/
def readActions (o : Fields) : Except Refusal (List Action) :=
  match Fields.get? "actions" o with
  | none => .ok []
  | some d => Action.parse d

/-- A definition with everything that is wrong with its fields. -/
def readFields (o : Fields) : Except Refusal (Checked Definition) := do
  let conditions ← readConditions o
  let actions ← readActions o
  .ok (Definition.mk <$> required o Key.name (boundedText maxNameLength)
    <*> optional o Key.description none (nullable text)
    <*> optional o Key.enabled true truth
    <*> optional o Key.rulePriority 5 integer
    <*> optional o Key.cooldownMinutes 15 natural
    <*> conditions <*> .ok actions)

/-- A reading with all of its issues in one rejection. -/
def accept {α : Type} (wrap : List Issue → Rejection) : Checked α → Except Refusal α
  | .ok a => .ok a
  | .flawed is => .error (.rejected (wrap is))
  | .broken e => .error (.fault e)

/-- The definition that an authored document holds. -/
def parse (d : Doc) : Except Refusal Definition :=
  match d with
  | .obj o => do accept .definition (← readFields o)
  | _ => .error (.rejected (.definition [⟨[], .notDefinition⟩]))

end Definition

namespace Rule

/-- A rule from the columns of its record and the time it last fired. -/
def read (o : Fields) (last : Option Calendar.Moment) : Except Refusal Rule := do
  let definition ← Definition.readFields o
  let count := match Fields.get? "trigger_count" o with
    | some d => if d.truthy then d else .int 0
    | none => .int 0
  let assemble (d : Definition) (id : Int) (n : Nat) : Rule := ⟨d, id, last, n⟩
  Definition.accept .fields (assemble <$> definition <*> required o Key.id integer
    <*> (natural count).under (.key "trigger_count"))

/-- The rule of a stored record. A time without offset is universal time, and a
refusal names the rule. -/
def ofRecord (o : Fields) (last : Option Calendar.Moment) : Except Refusal Rule :=
  match read o (last.map Calendar.Moment.assumeUtc) with
  | .ok r => .ok r
  | .error e => .error (e.within (.inRule ((Fields.get? "id" o).getD .null).text))

end Rule

end Glasshouse
