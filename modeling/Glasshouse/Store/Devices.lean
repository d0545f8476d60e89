/-
Glasshouse.Store.Devices — devices and queued jobs in the store. A command
changes the status or the value of a device and tells what they were before,
from which the command that undoes it follows.
-/
import Glasshouse.Store
import Glasshouse.Action.Writer

namespace Glasshouse

/-- The effect of a command on a device. -/
structure DeviceChange where
  device : String
  status : String
  value : Option String
  previousStatus : String
  previousValue : Option String

/-- The fields of the effect of a command. -/
def DeviceChange.fields (c : DeviceChange) : List (String × Doc) := [
  ("device_id", .str c.device), ("status", .str c.status), ("value", .ofOption .str c.value),
  ("previous_status", .str c.previousStatus),
  ("previous_value", .ofOption .str c.previousValue)]

namespace DeviceRow

/-- A device after a command. -/
def apply (d : DeviceRow) (command : Command) (value : Option String) : DeviceRow :=
  match command with
  | .turnOn => { d with status := "on" }
  | .turnOff => { d with status := "off" }
  | .toggle => { d with status := if d.status == "on" then "off" else "on" }
  | .setValue => { d with value := value }
  | .reset => { d with status := "off", value := none }

end DeviceRow

namespace Store

/-- A device stored under a new name. -/
def createDevice (s : Store) (d : DeviceRow) : Except Fault (DeviceRow × Store) :=
  if s.devices.any fun e => e.id == d.id then .error .constraintViolated
  else .ok (d, { s with devices := s.devices ++ [d] })

/-- The device with a name. -/
def device? (s : Store) (id : String) : Option DeviceRow := s.devices.find? (·.id == id)

/-- A device after a command. -/
def applyCommand (s : Store) (id : String) (command : Command) (value : Option String) : Store :=
  { s with devices := s.devices.map fun d => if d.id == id then d.apply command value else d }

/-- A command by its name, carried out on a device. -/
def command (s : Store) (id : String) (name : String) (value : Option String) :
    Except Fault (DeviceChange × Store) :=
  match s.device? id, Command.ofName? name with
  | none, _ => .error (.deviceMissing id)
  | some _, none => .error (.commandUnknown name)
  | some d, some c =>
    let e := d.apply c value
    .ok (⟨id, e.status, e.value, d.status, d.value⟩, s.applyCommand id c value)

/-- A job put at the end of a queue; gives its number. -/
def enqueue (s : Store) (queue : String) (payload : Doc) (rank : String) :
    Except Fault (Int × Store) :=
  let id := nextId (s.jobs.map (·.id))
  .ok (id, { s with jobs := s.jobs ++ [⟨id, queue, rank, payload, "pending"⟩] })

/-- The jobs with a status, of one queue if it is named. -/
def queued (s : Store) (queue : Option String) (status : String) : List JobRow :=
  s.jobs.filter fun j => j.status == status && (match queue with
    | some q => q.isEmpty || j.queue == q
    | none => true)

end Store

end Glasshouse
