/-
Glasshouse.Station — a world together with the tick that its schedule has
begun. Whatever else happens there leaves that tick alone; during waits both go
on. Main statement: where no tick is under way, an activity does what it does
alone.
-/
import Glasshouse.Logging
import Glasshouse.Scheduler

namespace Glasshouse

open Calendar

/-- A world and what is left of a tick that goes on in it. -/
structure Station where
  world : World
  tick : Activity Unit := pure ()

namespace Station

variable {α : Type}

/-- A station without a tick under way. -/
def create (settings : Settings) (zone : Zone) (clock wall : Moment) : Station :=
  { world := .create settings zone clock wall }

/-- An activity performed to its end. -/
def perform (p : Activity α) (s : Station) : α × Station :=
  let (a, q, w) := p.runBeside s.tick s.world
  (a, ⟨w, q⟩)

/-- Activities that begin at the same time, performed to their ends. -/
def performAll (ps : List (Activity α)) (s : Station) : List α × Station :=
  let (ps, w) := Plan.startAll ps s.world
  ps.foldl (fun (as, s) p =>
    let (a, s) := s.perform p
    (as ++ [a], s)) ([], { s with world := w })

/-- A tick that is due begun, up to its first wait for something. -/
def begin (s : Station) : Station :=
  if s.world.schedule.due then
    let (q, w) := Scheduler.tick.spend 0 s.world
    ⟨w, q⟩
  else s

/-- A tick that is due performed to its end. -/
def settle (s : Station) : Station :=
  if s.world.schedule.due then (s.perform Scheduler.tick).2 else s

/-- An activity performed while something else holds the lock. -/
def performLocked (p : Activity α) (s : Station) : α × Station :=
  let hold (on : Bool) (s : Station) : Station :=
    { s with world := { s.world with memory := { s.world.memory with locked := on } } }
  let (a, s) := (hold true s).perform p
  (a, hold false s)

/-- A station as its settings ask for it; the schedule may start by itself. -/
def launch (settings : Settings) (clock wall : Moment) : Except Fault Station := do
  let _ ← Logging.threshold settings.logLevel
  let zone ← Zone.find settings.timezone
  let s := create settings zone clock wall
  .ok (if settings.autostart then (s.perform Scheduler.start).2 else s)

/-- A station shut down. -/
def shutDown (s : Station) : Station := (s.perform Scheduler.stop).2

/-- Where no tick is under way, an activity does what it does alone. -/
theorem perform_idle (p : Activity α) (w : World) :
    (⟨w, pure ()⟩ : Station).perform p = ((p.run w).1, ⟨(p.run w).2, pure ()⟩) := by
  have h := Plan.runBeside_done p () w
  simp only [perform, pure, h]

end Station

end Glasshouse
