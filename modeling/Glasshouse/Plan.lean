/-
Glasshouse.Plan — activities that change a state and take time. What stands
between two waits happens at once; during a wait, and until the lock is free,
other activities may go on. `Plan.within` gives a plan a time limit,
`Plan.run` performs one alone, `Plan.runBeside` one while another goes on,
and `Plan.spend` what fits into a span, and keeps the rest.
-/

namespace Glasshouse

/-- A length of time in microseconds. -/
abbrev Duration := Nat

/-- States that go on by themselves while time passes, and that have a lock. -/
class Timed (σ : Type) where
  /-- The state after a length of time. -/
  elapse : Duration → σ → σ
  /-- Whether the lock is taken. -/
  locked : σ → Bool

/-- An activity with a result. -/
inductive Plan (σ α : Type) where
  | done (a : α)
  /-- A change of the state; what follows depends on the state before it. -/
  | act (f : σ → σ) (next : σ → Plan σ α)
  /-- A wait, which others may use, however short it is. -/
  | wait (d : Duration) (next : Plan σ α)
  /-- A wait until the lock is free, with an end to patience; tells whether it is free. -/
  | whenFree (patience : Duration) (next : Bool → Plan σ α)

namespace Plan

variable {σ α β : Type}

/-- A wait that outlasts every time limit. -/
def forever : Duration := Nat.pow 10 18

/-- One plan after another. -/
def bind : Plan σ α → (α → Plan σ β) → Plan σ β
  | done a, k => k a
  | act f next, k => act f fun s => (next s).bind k
  | wait d next, k => wait d (next.bind k)
  | whenFree d next, k => whenFree d fun free => (next free).bind k

instance : Monad (Plan σ) where
  pure := done
  bind := bind

/-- A question about the state. -/
def look (f : σ → α) : Plan σ α := act id fun s => done (f s)

/-- A change of the state with a result. -/
def change (f : σ → α × σ) : Plan σ α := act (fun s => (f s).2) fun s => done (f s).1

/-- A change of the state. -/
def modify (f : σ → σ) : Plan σ Unit := act f fun _ => done ()

/-- A wait. -/
def sleep (d : Duration) : Plan σ Unit := wait d (done ())

/-- A moment in which others may go on. -/
def yield : Plan σ Unit := sleep 0

/-- A wait for the lock, however long it takes. -/
def awaitLock : Plan σ Unit := whenFree forever fun _ => done ()

/-- A plan that is given up when its time is over; its changes up to then stay. -/
def within (limit : Duration) : Plan σ α → Plan σ (Option α)
  | done a => done (some a)
  | act f next => act f fun s => (next s).within limit
  | wait d next => if d < limit then wait d (next.within (limit - d)) else wait limit (done none)
  | whenFree d next => whenFree (min d limit) fun free => (next free).within limit

/-- A plan performed alone. -/
def run [Timed σ] : Plan σ α → σ → α × σ
  | done a, s => (a, s)
  | act f next, s => (next s).run (f s)
  | wait d next, s => next.run (Timed.elapse d s)
  | whenFree d next, s =>
    if Timed.locked s then (next false).run (Timed.elapse d s) else (next true).run s

/-- A plan performed up to its first wait. -/
def start [Timed σ] : Plan σ α → σ → Plan σ α × σ
  | done a, s => (done a, s)
  | act f next, s => (next s).start (f s)
  | wait d next, s => (wait d next, s)
  | whenFree d next, s =>
    if Timed.locked s then (whenFree d next, s) else (next true).start s

/-- What a plan does within a length of time, and what is left of it. -/
def spend [Timed σ] (d : Duration) : Plan σ α → σ → Plan σ α × σ
  | done a, s => (done a, Timed.elapse d s)
  | act f next, s => (next s).spend d (f s)
  | wait e next, s =>
    if e ≤ d then next.spend (d - e) (Timed.elapse e s)
    else (wait (e - d) next, Timed.elapse d s)
  | whenFree e next, s =>
    if !Timed.locked s then (next true).spend d s
    else if e ≤ d then (next false).spend (d - e) (Timed.elapse e s)
    else (whenFree (e - d) next, Timed.elapse d s)

/-- A plan that goes on until it has freed the lock and waits, for a length of
time at most; tells whether the lock is free, and what is left of the plan. -/
def release [Timed σ] (d : Duration) : Plan σ α → σ → Bool × Plan σ α × σ
  | done a, s => (false, done a, Timed.elapse d s)
  | act f next, s =>
    if Timed.locked (f s) then (next s).release d (f s)
    else (true, (next s).start (f s))
  | wait e next, s =>
    if e ≤ d then next.release (d - e) (Timed.elapse e s)
    else (false, wait (e - d) next, Timed.elapse d s)
  | whenFree e next, s =>
    if e ≤ d then (next false).release (d - e) (Timed.elapse e s)
    else (false, whenFree (e - d) next, Timed.elapse d s)

/-- A plan performed to its end while another goes on during its waits; its
result, what is left of the other, and the state. -/
def runBeside [Timed σ] : Plan σ α → Plan σ β → σ → α × Plan σ β × σ
  | done a, q, s => (a, q, s)
  | act f next, q, s => (next s).runBeside q (f s)
  | wait d next, q, s =>
    let (q, s) := q.spend d s
    next.runBeside q s
  | whenFree d next, q, s =>
    if Timed.locked s then
      let (free, q, s) := q.release d s
      (next free).runBeside q s
    else (next true).runBeside q s

/-- Plans started one after the other, each up to its first wait. -/
def startAll [Timed σ] : List (Plan σ α) → σ → List (Plan σ α) × σ
  | [], s => ([], s)
  | p :: r, s =>
    let (p, s) := p.start s
    let (r, s) := startAll r s
    (p :: r, s)

/-! ## Laws -/

@[simp] theorem run_pure [Timed σ] (a : α) (s : σ) : (pure a : Plan σ α).run s = (a, s) := rfl

theorem run_bind [Timed σ] (p : Plan σ α) (k : α → Plan σ β) (s : σ) :
    (p.bind k).run s = (k (p.run s).1).run (p.run s).2 := by
  induction p generalizing s with
  | done a => rfl
  | act f next ih => exact ih s (f s)
  | wait d next ih => exact ih _
  | whenFree d next ih =>
    simp only [bind, run]
    split <;> exact ih _ _

@[simp] theorem run_bind' [Timed σ] (p : Plan σ α) (k : α → Plan σ β) (s : σ) :
    (p >>= k).run s = (k (p.run s).1).run (p.run s).2 := run_bind p k s

/-- Beside a plan that is done, a plan does what it does alone. -/
theorem runBeside_done [Timed σ] (p : Plan σ α) (b : β) (s : σ) :
    p.runBeside (done b) s = ((p.run s).1, done b, (p.run s).2) := by
  induction p generalizing s with
  | done a => rfl
  | act f next ih => exact ih s (f s)
  | wait d next ih => exact ih _
  | whenFree d next ih =>
    simp only [runBeside, run, release]
    split <;> exact ih _ _

@[simp] theorem run_look [Timed σ] (f : σ → α) (s : σ) : (look f).run s = (f s, s) := rfl

@[simp] theorem run_change [Timed σ] (f : σ → α × σ) (s : σ) : (change f).run s = f s := rfl

end Plan

end Glasshouse
