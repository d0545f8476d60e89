/-
Glasshouse.Store.Column — rows put into the store as they are, column by
column. Nothing is validated but what the tables themselves ask for: known
columns, values of the right kind and all that may not be missing. A column
that is missing or `null` gets its usual value; a column of documents holds
any document, `null` too.
-/
import Glasshouse.Store.Devices
import Glasshouse.Store.Readings
import Glasshouse.Store.Rules

namespace Glasshouse

open Calendar

namespace Column

/-- All keys have to be names of columns. -/
def requireKnown (names : List String) (o : Fields) : Except Fault Unit :=
  match o.find? fun f => !names.any fun n => f.1.isText n with
  | none => .ok ()
  | some (k, _) => .error (.columnUnknown k.text)

/-- The value in a column, if there is one. -/
def value? (o : Fields) (name : String) : Option Doc :=
  match Fields.get? name o with
  | some .null | none => none
  | some d => some d

/-- A text, which numbers are written as. -/
def text? (o : Fields) (name : String) : Except Fault (Option String) :=
  match value? o name with
  | none => .ok none
  | some (.str s) => .ok (some s)
  | some (.int n) => .ok (some (toString n))
  | some (.num x) => .ok (some (Number.floatText x))
  | some (.bool b) => .ok (some (if b then "1" else "0"))
  | some _ => .error (.columnMistyped name)

/-- An integer, which may come as a text. -/
def integer (o : Fields) (name : String) (absent : Int) : Except Fault Int :=
  match value? o name with
  | none => .ok absent
  | some d =>
    match Schema.integer d with
    | .ok n => .ok n
    | _ => .error (.columnMistyped name)

/-- A truth value. -/
def truth (o : Fields) (name : String) (absent : Bool) : Except Fault Bool :=
  match value? o name with
  | none => .ok absent
  | some (.bool b) => .ok b
  | some (.int 0) => .ok false
  | some (.int 1) => .ok true
  | some _ => .error (.columnMistyped name)

/-- A double; an integer has to have a 64 bit form. -/
def double? : Doc → Except Fault (Option Float)
  | .null => .ok none
  | .num x => .ok (some x)
  | .int n => do
    Store.requireFits [n]
    .ok (some (Float.ofInt n))
  | .bool b => .ok (some (if b then 1.0 else 0.0))
  | _ => .error (.columnMistyped "value")

/-- A value that may not be missing. -/
def require {α : Type} : Option α → Except Fault α
  | some a => .ok a
  | none => .error .constraintViolated

end Column

namespace Store

/-- The columns of rules. -/
def ruleColumns : List String := [
  "id", "name", "description", "enabled", "priority", "cooldown_minutes", "conditions",
  "actions", "last_triggered", "trigger_count", "created_at", "updated_at"]

/-- The columns of devices. -/
def deviceColumns : List String := ["id", "name", "device_type", "status", "value", "updated_at"]

/-- A rule put in by its columns; of the time that it last fired, the offset is
dropped. Gives its number. -/
def insertRule (s : Store) (o : Fields) (last : Option Moment) : Except Fault (Int × Store) := do
  Column.requireKnown ruleColumns o
  let id ← Column.integer o "id" s.nextRule
  let name ← Column.text? o "name"
  let row : RuleRow := {
    id := id
    name := name.getD ""
    description := ← Column.text? o "description"
    enabled := ← Column.truth o "enabled" true
    priority := ← Column.integer o "priority" 5
    cooldown := ← Column.integer o "cooldown_minutes" 15
    conditions := (Fields.get? "conditions" o).getD .null
    actions := (Fields.get? "actions" o).getD (.list [])
    lastTriggered := last.map (·.wall)
    triggerCount := ← Column.integer o "trigger_count" 0 }
  requireFits [row.id, row.priority, row.cooldown, row.triggerCount]
  let _ ← Column.require name
  let _ ← Column.require (Fields.get? "conditions" o)
  let (row, s) ← s.addRule row
  .ok (row.id, s)

/-- A device put in by its columns. -/
def insertDevice (s : Store) (o : Fields) : Except Fault (DeviceRow × Store) := do
  Column.requireKnown deviceColumns o
  let id ← Column.text? o "id"
  let name ← Column.text? o "name"
  let kind ← Column.text? o "device_type"
  let status ← Column.text? o "status"
  let value ← Column.text? o "value"
  s.createDevice ⟨← Column.require id, ← Column.require name, kind.getD "relay",
    status.getD "off", value⟩

/-- A reading put in with a value that may be an integer. -/
def insertReading (s : Store) (sensor field : String) (value : Doc) (time : Moment) :
    Except Fault (ReadingRow × Store) := do
  let x ← Column.double? value
  s.addReading sensor field (← Column.require x) time

end Store

end Glasshouse
