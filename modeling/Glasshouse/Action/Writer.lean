/-
Glasshouse.Action.Writer — the canonical document of a list of actions: every
field, plain names, addresses in their normal form.
-/
import Glasshouse.Action
import Glasshouse.Doc.Plain

namespace Glasshouse

/-- The value of a command as a document. -/
def Setting.toDoc : Setting → Doc
  | number x => .num x
  | text s => .str s

/-- The value of a command as a device stores it. -/
def Setting.stored (s : Setting) : String :=
  s.toDoc.text

namespace Action

/-- The canonical document of an action. -/
def toDoc : Action → Doc
  | notice a => .record [
      ("type", .str "notification"), ("channels", .ofList (fun m => .str m.name) a.media),
      ("template", .str a.template), ("title", .ofOption .str a.title),
      ("priority", .str a.urgency.name), ("variables", (Doc.obj a.values).plain)]
  | device a => .record [
      ("type", .str "device_control"), ("device_id", .str a.device),
      ("action", .str a.command.name), ("value", .ofOption Setting.toDoc a.value),
      ("duration_minutes", .ofOption .nat a.duration)]
  | webhook a => .record [
      ("type", .str "webhook"), ("url", .str a.url.text), ("method", .str a.method.name),
      ("headers", .record (a.headers.map fun h => (h.1, .str h.2))),
      ("payload", .ofOption (fun o => (Doc.obj o).plain) a.payload)]
  | job a => .record [
      ("type", .str "queue"), ("queue_name", .str a.queue), ("priority", .str a.rank.name),
      ("payload", (Doc.obj a.payload).plain)]

/-- The canonical document of a list of actions. -/
def listToDoc (as : List Action) : Doc :=
  .ofList toDoc as

end Action

end Glasshouse
