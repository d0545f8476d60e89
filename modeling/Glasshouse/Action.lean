/-
Glasshouse.Action — what a rule does when it fires: send a notice, command a
device, call a web address or hand a job to a queue.
-/
import Glasshouse.Doc
import Glasshouse.Url

namespace Glasshouse

/-- A command to a device. -/
inductive Command where
  | turnOn | turnOff | toggle | setValue | reset
  deriving DecidableEq, Repr

namespace Command

/-- The name of a command. -/
def name : Command → String
  | turnOn => "TURN_ON"
  | turnOff => "TURN_OFF"
  | toggle => "TOGGLE"
  | setValue => "SET_VALUE"
  | reset => "RESET"

/-- Every command. -/
def all : List Command := [turnOn, turnOff, toggle, setValue, reset]

/-- The command with a name. -/
def ofName? (s : String) : Option Command :=
  all.find? (·.name == s)

end Command

/-- A way to deliver a notice. -/
inductive Medium where
  | log | telegram | whatsapp | webhook
  deriving DecidableEq, Repr

namespace Medium

/-- The name of a medium. -/
def name : Medium → String
  | log => "log"
  | telegram => "telegram"
  | whatsapp => "whatsapp"
  | webhook => "webhook"

/-- Every medium. -/
def all : List Medium := [log, telegram, whatsapp, webhook]

/-- The medium with a name. -/
def ofName? (s : String) : Option Medium :=
  all.find? (·.name == s)

end Medium

/-- The urgency of a notice. -/
inductive Urgency where
  | low | normal | high | critical
  deriving DecidableEq, Repr

namespace Urgency

/-- The name of an urgency. -/
def name : Urgency → String
  | low => "low"
  | normal => "normal"
  | high => "high"
  | critical => "critical"

/-- Every urgency. -/
def all : List Urgency := [low, normal, high, critical]

end Urgency

/-- The rank of a job in its queue. -/
inductive JobRank where
  | low | medium | high | critical
  deriving DecidableEq, Repr

namespace JobRank

/-- The name of a rank. -/
def name : JobRank → String
  | low => "low"
  | medium => "medium"
  | high => "high"
  | critical => "critical"

/-- Every rank. -/
def all : List JobRank := [low, medium, high, critical]

end JobRank

/-- The method of a request. -/
inductive Method where
  | get | post | put | patch | delete
  deriving DecidableEq, Repr

namespace Method

/-- The name of a method. -/
def name : Method → String
  | get => "GET"
  | post => "POST"
  | put => "PUT"
  | patch => "PATCH"
  | delete => "DELETE"

/-- Every method. -/
def all : List Method := [get, post, put, patch, delete]

end Method

/-- The value that a command may carry. -/
inductive Setting where
  | number (x : Float)
  | text (s : String)

/-- A notice built from a template. -/
structure NoticeAction where
  media : List Medium := [.log]
  template : String
  title : Option String := none
  urgency : Urgency := .normal
  /-- What the template may refer to besides sensors and the rule. -/
  values : Fields := []

/-- A command to a device, undone after a number of minutes if one is given. -/
structure DeviceAction where
  device : String
  command : Command
  value : Option Setting := none
  duration : Option Nat := none

/-- A request to a web address. -/
structure WebhookAction where
  url : Url
  method : Method := .post
  headers : List (String × String) := []
  payload : Option Fields := none

/-- A job for a queue. -/
structure JobAction where
  queue : String
  rank : JobRank := .medium
  payload : Fields := []

/-- What a rule does. -/
inductive Action where
  | notice (a : NoticeAction)
  | device (a : DeviceAction)
  | webhook (a : WebhookAction)
  | job (a : JobAction)

/-- The name of the kind of an action. -/
def Action.kind : Action → String
  | notice _ => "notification"
  | device _ => "device_control"
  | webhook _ => "webhook"
  | job _ => "queue"

end Glasshouse
