/-
Glasshouse.Rule.Writer — the columns of a rule as a document.
-/
import Glasshouse.Rule
import Glasshouse.Condition.Writer
import Glasshouse.Action.Writer

namespace Glasshouse

/-- The columns of a definition. -/
def Definition.columns (d : Definition) : List (String × Doc) := [
  ("name", .str d.name), ("description", .ofOption .str d.description),
  ("enabled", .bool d.enabled), ("priority", .int d.priority),
  ("cooldown_minutes", .nat d.cooldown), ("conditions", d.conditions.toDoc),
  ("actions", Action.listToDoc d.actions)]

/-- A definition as a document. -/
def Definition.toDoc (d : Definition) : Doc := .record d.columns

/-- A stored rule as a document. -/
def Rule.toDoc (r : Rule) : Doc :=
  .record (r.columns ++ [
    ("id", .int r.id), ("last_triggered", .ofOption (fun m => .str m.text) r.lastTriggered),
    ("trigger_count", .nat r.triggerCount)])

end Glasshouse
