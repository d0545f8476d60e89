/-
Glasshouse.Action.Reader — lists of actions read from documents. Kinds of
actions are read in any case and by older names; commands, media and methods
in any case. A command that sets a value needs one.
-/
import Glasshouse.Action
import Glasshouse.Schema
import Glasshouse.Json.Reader
import Glasshouse.Rejection

namespace Glasshouse

open Schema

/-! ## Parts -/

/-- A command in any case. -/
def Command.read (d : Doc) : Checked Command :=
  oneOf .notMember (Command.all.map fun c => (c.name, c)) (onText Text.upper d)

/-- A medium. -/
def Medium.read (d : Doc) : Checked Medium :=
  oneOf .notMember (Medium.all.map fun m => (m.name, m)) d

/-- A list of media in any case; a single text stands for a list of one. -/
def readMedia (d : Doc) : Checked (List Medium) :=
  match d with
  | .str s => Checked.each Medium.read 0 [.str (Text.lower s)]
  | d =>
    match d.members with
    | .error e => .broken e
    | .ok ms => Checked.each Medium.read 0 (ms.map (onText Text.lower))

/-- The urgency of a notice. -/
def Urgency.read (d : Doc) : Checked Urgency :=
  oneOf .notLiteral (Urgency.all.map fun u => (u.name, u)) d

/-- The rank of a job. -/
def JobRank.read (d : Doc) : Checked JobRank :=
  oneOf .notLiteral (JobRank.all.map fun r => (r.name, r)) d

/-- A method in any case. -/
def Method.read (d : Doc) : Checked Method :=
  oneOf .notLiteral (Method.all.map fun m => (m.name, m)) (onText Text.upper d)

/-- The value of a command: a text, or a number or truth value as a double. -/
def Setting.read : Doc → Checked Setting
  | .str s => .ok (.text s)
  | .atom (.bytes b) => (Schema.text (.atom (.bytes b))).map .text
  | d =>
    match double d with
    | .ok x => .ok (.number x)
    | other => (fun x _ => .number x) <$> other.under (.key "float")
        <*> (Schema.text d).under (.key "str")

/-- The address of a webhook. -/
def readUrl (d : Doc) : Checked Url :=
  match text d with
  | .ok s =>
    if Url.maxBytes < s.utf8ByteSize then .flaw .urlTooLong
    else
      match Url.read s with
      | .error p => .flaw (.urlMalformed p)
      | .ok none => .flaw .urlScheme
      | .ok (some u) => .ok u
  | _ => .flaw .urlNotText

/-! ## Actions -/

namespace Key

def kind : FieldName := .same "type"
def channels : FieldName := .same "channels"
def template : FieldName := .same "template"
def title : FieldName := .same "title"
def priority : FieldName := .same "priority"
def templateValues : FieldName := .same "variables"
def device : FieldName := ⟨"device_id", "deviceId"⟩
def action : FieldName := .same "action"
def setting : FieldName := .same "value"
def durationMinutes : FieldName := ⟨"duration_minutes", "durationMinutes"⟩
def url : FieldName := .same "url"
def method : FieldName := .same "method"
def headers : FieldName := .same "headers"
def payload : FieldName := .same "payload"
def queueName : FieldName := ⟨"queue_name", "queueName"⟩

end Key

/-- A notice. -/
def NoticeAction.read (o : Fields) : Checked NoticeAction :=
  NoticeAction.mk <$> optional o Key.channels [.log] readMedia
    <*> required o Key.template filledText <*> optional o Key.title none (nullable text)
    <*> optional o Key.priority .normal Urgency.read <*> optional o Key.templateValues [] table
    <* noOthers o [Key.kind, Key.channels, Key.template, Key.title, Key.priority, Key.templateValues]

/-- A command to a device. -/
def DeviceAction.read (o : Fields) : Checked DeviceAction :=
  let fields := DeviceAction.mk <$> required o Key.device filledText
    <*> required o Key.action Command.read <*> optional o Key.setting none (nullable Setting.read)
    <*> optional o Key.durationMinutes none (nullable positive)
    <* noOthers o [Key.kind, Key.device, Key.action, Key.setting, Key.durationMinutes]
  fields.andThen fun a =>
    if a.command == .setValue && a.value.isNone then .flaw .valueRequired else .ok a

/-- A request to a web address. -/
def WebhookAction.read (o : Fields) : Checked WebhookAction :=
  WebhookAction.mk <$> required o Key.url readUrl <*> optional o Key.method .post Method.read
    <*> optional o Key.headers [] textTable <*> optional o Key.payload none (nullable table)
    <* noOthers o [Key.kind, Key.url, Key.method, Key.headers, Key.payload]

/-- A job for a queue. -/
def JobAction.read (o : Fields) : Checked JobAction :=
  JobAction.mk <$> required o Key.queueName filledText
    <*> optional o Key.priority .medium JobRank.read <*> optional o Key.payload [] table
    <* noOthers o [Key.kind, Key.queueName, Key.priority, Key.payload]

namespace Action

/-- The readers of actions by kind. -/
def readers : List (String × (Fields → Checked Action)) := [
  ("notification", fun o => notice <$> NoticeAction.read o),
  ("device_control", fun o => device <$> DeviceAction.read o),
  ("webhook", fun o => webhook <$> WebhookAction.read o),
  ("queue", fun o => job <$> JobAction.read o)]

/-- Older names of kinds. -/
def kindAliases : List (String × String) :=
  [("device_status", "device_control"), ("operation", "queue")]

/-- A kind without blanks around it, in small letters and by its present name. -/
def kindName (s : String) : String :=
  let t := Text.lower (Text.trim s)
  (kindAliases.lookup t).getD t

/-- An action. -/
def read : Doc → Checked Action
  | .obj o =>
    match Fields.get? "type" o with
    | none => .flaw .noTag
    | some tag =>
      let kind := (onText kindName tag).text
      match readers.lookup kind with
      | some read => (read o).under (.key kind)
      | none => .flaw (.tagUnknown kind (readers.map (·.1)))
  | _ => .flaw .notNode

/-- The actions of a document: a list, `null` for none, or a JSON text of a list. -/
def parse (d : Doc) : Except Refusal (List Action) :=
  match d with
  | .null => .ok []
  | .str s =>
    match Json.read s with
    | .ok d => accept d
    | .error f => .error (.rejected (.unreadable .actions (f.message s)))
  | d => accept d
where
  /-- A list of actions with all of its issues in one rejection. -/
  accept : Doc → Except Refusal (List Action)
    | .list xs =>
      match Checked.each read 0 xs with
      | .ok as => .ok as
      | .flawed is => .error (.rejected (.actionList is))
      | .broken e => .error (.fault e)
    | _ => .error (.rejected .actionsNotList)

end Action

end Glasshouse
