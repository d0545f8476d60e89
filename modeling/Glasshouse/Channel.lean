/-
Glasshouse.Channel — events handed to any number of subscribers. Publishing
never blocks: a queue that is full loses its oldest event. Queues that were
unsubscribed keep what they hold and receive nothing more.
-/
import Glasshouse.Doc

namespace Glasshouse

/-- The kinds of events. -/
inductive EventKind where
  | ruleTriggered | engineStatus
  deriving DecidableEq, Repr

namespace EventKind

/-- The name of a kind. -/
def name : EventKind → String
  | ruleTriggered => "RULE_TRIGGERED"
  | engineStatus => "RULE_ENGINE_STATUS"

/-- Every kind. -/
def all : List EventKind := [ruleTriggered, engineStatus]

/-- The kind with a name. -/
def ofName? (s : String) : Option EventKind :=
  all.find? (·.name == s)

end EventKind

/-- Something that happened. -/
structure Event where
  kind : EventKind
  payload : Doc

/-- An event as a document. -/
def Event.toDoc (e : Event) : Doc :=
  .record [("type", .str e.kind.name), ("payload", e.payload)]

/-- The queue of a subscriber. -/
structure Mailbox where
  /-- Oldest first. -/
  pending : List Event := []
  subscribed : Bool := true

/-- The channel with every queue and every listener that it ever had. -/
structure Channel where
  /-- The greatest number of events in a queue; none if it is not positive. -/
  capacity : Int := 100
  boxes : List Mailbox := []
  /-- What each listener has heard, oldest first. -/
  listeners : List (List Event) := []
  published : Nat := 0
  dropped : Nat := 0

namespace Channel

/-- Whether a queue has no room. -/
def isFull (c : Channel) (b : Mailbox) : Bool :=
  decide (0 < c.capacity) && decide (c.capacity ≤ b.pending.length)

/-- A new subscriber. -/
def subscribe (c : Channel) : Channel :=
  { c with boxes := c.boxes ++ [{}] }

/-- A queue that receives nothing more. -/
def unsubscribe (c : Channel) (i : Nat) : Channel :=
  { c with boxes := c.boxes.modify i fun b => { b with subscribed := false } }

/-- A new listener. -/
def listen (c : Channel) : Channel :=
  { c with listeners := c.listeners ++ [[]] }

/-- An event put into a queue, whose oldest event makes room if need be. -/
def deliver (c : Channel) (e : Event) (b : Mailbox) : Mailbox :=
  if !b.subscribed then b
  else if c.isFull b then { b with pending := b.pending.drop 1 ++ [e] }
  else { b with pending := b.pending ++ [e] }

/-- An event handed to every subscriber and every listener. -/
def publish (c : Channel) (e : Event) : Channel :=
  { c with
    boxes := c.boxes.map (c.deliver e)
    listeners := c.listeners.map (· ++ [e])
    published := c.published + 1
    dropped := c.dropped + c.boxes.countP fun b => b.subscribed && c.isFull b }

/-- The oldest event of a queue taken out by its subscriber; nothing happens to an empty
queue. -/
def take (c : Channel) (i : Nat) : Channel :=
  { c with boxes := c.boxes.modify i fun b => { b with pending := b.pending.drop 1 } }

/-- A queue emptied. -/
def drain (c : Channel) (i : Nat) : Channel :=
  { c with boxes := c.boxes.modify i fun b => { b with pending := [] } }

/-- The numbers of events published, lost and waiting. -/
def counts (c : Channel) : Doc :=
  .record [("published", .nat c.published), ("dropped", .nat c.dropped),
    ("pending", .ofList (fun b => .nat b.pending.length) c.boxes)]

end Channel

end Glasshouse
