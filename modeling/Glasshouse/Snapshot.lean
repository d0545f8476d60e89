/-
Glasshouse.Snapshot — the answers to all questions of a tree, gathered at one
moment. A tree is judged against a snapshot, so that readings which arrive
meanwhile have no part in it. `capture` asks in any monad; each question is
asked once.
-/
import Glasshouse.Query
import Glasshouse.Calendar.Zone
import Glasshouse.Doc

namespace Glasshouse

open Calendar

/-- A question with its answer. -/
abbrev Answered := (q : Query) × q.Answer

/-- The state that a tree was judged on. -/
structure Snapshot where
  takenAt : Moment
  /-- The same moment on the clocks of the configured zone. -/
  localTime : Moment
  answers : List Answered := []

namespace Snapshot

/-- The answer to a question among others. -/
def find? (q : Query) : List Answered → Option q.Answer
  | [] => none
  | ⟨p, a⟩ :: r => if h : p = q then some (h ▸ a) else find? q r

/-- What the snapshot knows about a question. -/
def ask (s : Snapshot) (q : Query) : q.Answer :=
  (find? q s.answers).getD q.nothing

/-- The answers to questions, asked one after the other. -/
def gather {m : Type → Type} [Monad m] (ask : (q : Query) → m q.Answer) :
    List Query → m (List Answered)
  | [] => pure []
  | q :: r => do
    let a ← ask q
    let rest ← gather ask r
    pure (⟨q, a⟩ :: rest)

/-- The latest values of sensors by `sensor.field`, for templates. -/
def sensorValues (s : Snapshot) : Fields :=
  Fields.ofPairs <| s.answers.filterMap fun
    | ⟨.latest sensor field, some r⟩ => some (.str (sensor ++ "." ++ field), .num r.value)
    | _ => none

/-! ## The snapshot as a document -/

/-- The entries of a part; of entries with one key the last counts. -/
def part (s : Snapshot) (entry : Answered → Option (String × Doc)) : Doc :=
  .obj (Fields.ofPairs (s.answers.filterMap fun a => (entry a).map fun e => (.str e.1, e.2)))

/-- A window in a key. -/
def windowText (n : Nat) : String := toString n ++ "m"

/-- The latest reading of a field. -/
def latestEntry : Answered → Option (String × Doc)
  | ⟨.latest sensor field, r⟩ => some (sensor ++ "." ++ field, .ofOption (fun r => .record [
      ("value", .num r.value), ("timestamp", .str r.time.text)]) r)
  | _ => none

/-- The status of a device. -/
def deviceEntry : Answered → Option (String × Doc)
  | ⟨.device id, status⟩ => some (id, .ofOption .str status)
  | _ => none

/-- An aggregate. -/
def aggregateEntry : Answered → Option (String × Doc)
  | ⟨.aggregate sensor field fn window, x⟩ =>
    some (".".intercalate [sensor, field, fn.name, windowText window], .ofOption .num x)
  | _ => none

/-- The readings of a window. -/
def historyEntry : Answered → Option (String × Doc)
  | ⟨.history sensor field window, xs⟩ =>
    some (".".intercalate [sensor, field, windowText window], .ofList .num xs)
  | _ => none

/-- The last sign of life of a sensor. -/
def lastSeenEntry : Answered → Option (String × Doc)
  | ⟨.lastSeen sensor, m⟩ => some (sensor, .ofOption (fun m => .str m.text) m)
  | _ => none

/-- The snapshot as it is kept with an execution. -/
def toDoc (s : Snapshot) : Doc :=
  .record [
    ("taken_at", .str s.takenAt.text), ("local_time", .str s.localTime.text),
    ("sensors", s.part latestEntry), ("devices", s.part deviceEntry),
    ("aggregates", s.part aggregateEntry), ("histories", s.part historyEntry),
    ("last_seen", s.part lastSeenEntry)]

end Snapshot

/-- A snapshot of everything that a tree asks about. The clock of the zone is
read first. -/
def Condition.capture {m : Type → Type} [Monad m] [MonadExcept Fault m] (c : Condition)
    (zone : Zone) (now : Moment) (ask : (q : Query) → m q.Answer) : m Snapshot := do
  match zone.local? now with
  | .error e => throw e
  | .ok clock =>
    let answers ← Snapshot.gather ask c.queries
    pure ⟨now, clock, answers⟩

end Glasshouse
