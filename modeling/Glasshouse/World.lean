/-
Glasshouse.World — everything that the engine acts on: settings, a clock, the
store, lines to other machines, the event channel and what the engine itself
remembers. Collaborators may be laid down to fail. Commands to devices may take
time; one that was given up still arrives, `Timed.elapse` says when.
-/
import Glasshouse.Channel
import Glasshouse.Cooldown
import Glasshouse.Plan
import Glasshouse.Rule.Order
import Glasshouse.Settings
import Glasshouse.Snapshot
import Glasshouse.Store.Devices
import Glasshouse.Store.Executions
import Glasshouse.Store.Readings
import Glasshouse.Store.Rules
import Glasshouse.Wire

namespace Glasshouse

open Calendar

/-- The calls to collaborators that may fail. -/
inductive Contact where
  | createRule | getRule | allRules | enabledRules | setEnabled | setAllEnabled | deleteRule
  | noteTrigger | recordExecution | executions | stats | addReading | latest | aggregate
  | history | lastSeen | createDevice | device | deviceStatus | deviceCommand | enqueue | queued
  | dispatch | tick
  deriving DecidableEq, Repr

/-- A line to other machines. -/
inductive Line where
  | webhook | notice
  deriving DecidableEq, Repr

/-- A command on its way to a device. -/
structure Flight where
  ticket : Nat
  device : String
  command : String
  value : Option String
  /-- When it arrives. -/
  due : Duration
  /-- Why it fails on arrival, whatever the device. -/
  fault : Option Fault := none

/-- The table of last commands once a command is over: its entry is struck out, unless that
is one of a later command by then. -/
def Flight.strike (f : Flight) (t : Table String Nat) : Table String Nat :=
  if t.get? f.device = some f.ticket then t.erase f.device else t

/-- How often the engine did what. -/
structure Tally where
  ticks : Nat := 0
  skipped : Nat := 0
  evaluated : Nat := 0
  triggered : Nat := 0
  suppressed : Nat := 0
  failed : Nat := 0
  invalid : Nat := 0

/-- What the engine remembers. -/
structure Memory where
  cooldowns : Cooldown := {}
  order : RuleOrder := {}
  activeRules : Nat := 0
  lastTickAt : Option Moment := none
  lastError : Option String := none
  tally : Tally := {}
  /-- Records that could not be written. -/
  lost : Nat := 0
  /-- Whether a tick or a manual trigger is under way. -/
  locked : Bool := false

/-- The state of the schedule. -/
structure Schedule where
  running : Bool := false
  overruns : Nat := 0
  /-- Whether a tick is to begin at once. -/
  due : Bool := false

/-- Everything that the engine acts on. -/
structure World where
  settings : Settings
  zone : Zone
  /-- The clock that the engine goes by. -/
  clock : Moment
  /-- The clock on the wall, which may differ. -/
  wall : Moment
  store : Store := {}
  channel : Channel := {}
  memory : Memory := {}
  schedule : Schedule := {}
  webhooks : Wire := { replies := .always Wire.usual }
  notices : Wire := { replies := .always Wire.usual }
  /-- The notices sent so far, oldest first. -/
  sent : List Doc := []
  /-- What each call fails with, if with anything. -/
  outages : Table Contact (Script (Option Fault)) := []
  /-- How long commands take to arrive, by their names. -/
  delays : Table String Duration := []
  elapsed : Duration := 0
  flights : List Flight := []
  /-- What became of commands that have arrived. -/
  landed : Table Nat (Except Fault DeviceChange) := []
  /-- The number of the next command. -/
  tickets : Nat := 0
  /-- The number of the last command to each device, until that is over. -/
  writes : Table String Nat := []

/-- A plan in a world. -/
abbrev Activity := Plan World

/-- A plan in a world that may fail. -/
abbrev Work := ExceptT Fault Activity

namespace World

/-- A world with settings and its two clocks. -/
def create (settings : Settings) (zone : Zone) (clock wall : Moment) : World :=
  { settings, zone, clock, wall, channel := { capacity := settings.eventQueueSize } }

/-! ## Commands on their way -/

/-- A command that arrives, and is over then. -/
def land (w : World) (f : Flight) : World :=
  let result : Except Fault (DeviceChange × Store) := match f.fault with
    | some e => .error e
    | none => w.store.command f.device f.command f.value
  let writes := f.strike w.writes
  match result with
  | .ok (c, s) => { w with store := s, landed := w.landed.put f.ticket (.ok c), writes }
  | .error e => { w with landed := w.landed.put f.ticket (.error e), writes }

/-- The world after a length of time: commands arrive in the order of their times. -/
def elapse (d : Duration) (w : World) : World :=
  let now := w.elapsed + d
  let arriving := (w.flights.filter fun f => decide (f.due ≤ now)).mergeSort fun f g =>
    decide (f.due ≤ g.due)
  arriving.foldl land
    { w with elapsed := now, flights := w.flights.filter fun f => !decide (f.due ≤ now) }

instance : Timed World where
  elapse := elapse
  locked w := w.memory.locked

/-- The last command to a device, if it is still on its way. -/
def pending? (w : World) (device : String) : Option Flight :=
  (w.writes.get? device).bind fun n =>
    w.flights.find? fun f => f.ticket == n && f.device == device

/-! ## Calls that may fail -/

/-- What a call fails with this time, if with anything. -/
def consult (c : Contact) (w : World) : Option Fault × World :=
  match w.outages.get? c with
  | none => (none, w)
  | some s => (s.head, { w with outages := w.outages.put c s.next })

/-- A call to the store: it fails as laid down, or does its work. A call that fails
changes nothing. -/
def callStore {α : Type} (c : Contact) (f : Store → Except Fault (α × Store)) (w : World) :
    Except Fault α × World :=
  match w.consult c with
  | (some e, w) => (.error e, w)
  | (none, w) =>
    match f w.store with
    | .ok (a, s) => (.ok a, { w with store := s })
    | .error e => (.error e, w)

/-- The wire of a line. -/
def wire (l : Line) (w : World) : Wire :=
  match l with
  | .webhook => w.webhooks
  | .notice => w.notices

/-- The wire of a line replaced. -/
def setWire (l : Line) (x : Wire) (w : World) : World :=
  match l with
  | .webhook => { w with webhooks := x }
  | .notice => { w with notices := x }

end World

namespace Work

/-- The outcome of a computation. -/
def ofExcept {α : Type} (x : Except Fault α) : Work α := ExceptT.mk (pure x)

/-- A call to the store that changes it. -/
def store {α : Type} (c : Contact) (f : Store → Except Fault (α × Store)) : Work α :=
  ExceptT.mk (Plan.change (World.callStore c f))

/-- A call to the store that only reads. -/
def fetch {α : Type} (c : Contact) (f : Store → Except Fault α) : Work α :=
  store c fun s => (f s).map fun a => (a, s)

/-- A call that fails as laid down and does nothing otherwise. -/
def consult (c : Contact) : Work Unit :=
  ExceptT.mk (Plan.change fun w =>
    match w.consult c with
    | (some e, w) => (.error e, w)
    | (none, w) => (.ok (), w))

/-- A request on a line and the answer to it. -/
def exchange (l : Line) (r : Except Fault Request) : Work Response := do
  let r ← ofExcept r
  let reply ← ExceptT.lift (Plan.change fun w =>
    let (reply, x) := (w.wire l).send r
    (reply, w.setWire l x))
  ExceptT.lift (Plan.sleep reply.delay)
  ofExcept reply.outcome

/-- An answer that has to be a success. -/
def exchangeOk (l : Line) (r : Except Fault Request) : Work Response := do
  let answer ← exchange l r
  match r with
  | .ok q =>
    if answer.isSuccess then pure answer else throw (.badStatus (answer.complaint q.url))
  | .error e => throw e

/-- The answer of the store to a question of conditions. -/
def ask (now : Moment) : (q : Query) → Work q.Answer
  | .latest s f => fetch .latest fun st =>
      .ok ((st.latest s f).map fun r => ⟨r.value, .ofInstant r.recordedAt⟩)
  | .device d => do
    consult .deviceStatus
    fetch .device fun st => .ok ((st.device? d).map (·.status))
  | .aggregate s f fn w => fetch .aggregate fun st => st.aggregate s f w fn now
  | .history s f w => fetch .history fun st => st.history s f w now
  | .lastSeen s => fetch .lastSeen fun st => .ok ((st.lastSeen s).map .ofInstant)

end Work

end Glasshouse
