/-
Glasshouse.Evaluation — a tree of conditions judged against the answers to its
questions. Groups stop at the first child that decides them; what comes after
is listed as skipped. Missing, stale or too few data make a leaf false and are
recorded, they are no faults; only arithmetic on times can fail.
-/
import Glasshouse.Snapshot
import Glasshouse.Slope

namespace Glasshouse

open Calendar

/-- What a leaf was judged on. -/
inductive Evidence where
  /-- The latest reading and its age, and whether it is recent enough. -/
  | sensor (t : SensorTest) (found : Option (Reading × Span × Bool))
  | device (t : DeviceTest) (status : Option String)
  /-- The local time `HH:MM` and the day of the week. -/
  | time (t : TimeTest) (clock : String) (weekday : Nat)
  | history (t : HistoryTest) (value : Option Float)
  | trend (t : TrendTest) (values : List Float)
  /-- The last sign of life, and whether the silence since then is too long. -/
  | heartbeat (t : HeartbeatTest) (seen : Option (Moment × Bool))

/-- Whether a time of day lies in the window, whose end is not part of it. -/
def TimeTest.contains (t : TimeTest) (clock : String) : Bool :=
  if t.wraps then decide (t.start ≤ clock) || decide (clock < t.stop)
  else decide (t.start ≤ clock) && decide (clock < t.stop)

/-- Whether a day of the week is one of the days of the window. -/
def TimeTest.includesDay (t : TimeTest) (weekday : Nat) : Bool :=
  match t.days with
  | none => true
  | some days => days.contains weekday

/-- Whether a slope is a movement in a direction. -/
def Trend.holds (d : Trend) (threshold slope : Float) : Bool :=
  match d with
  | .rising => decide (threshold < slope)
  | .falling => decide (slope < -threshold)
  | .stable => decide (slope.abs ≤ threshold)

namespace Evidence

/-- The verdict on a leaf. -/
def result : Evidence → Bool
  | sensor _ none => false
  | sensor t (some (r, _, fresh)) => fresh && t.comparison.holds r.value t.value
  | device _ none => false
  | device t (some status) => status == t.expected
  | time t clock weekday => t.includesDay weekday && t.contains clock
  | history _ none => false
  | history t (some x) => t.comparison.holds x t.threshold
  | trend t values =>
    match Slope.ofValues? values with
    | none => false
    | some slope => t.trend.holds t.slope slope
  | heartbeat _ none => true
  | heartbeat _ (some (_, silent)) => silent

end Evidence

/-- What a leaf is judged on, given the answers to questions. -/
def Leaf.examine (now clock : Moment) (ask : (q : Query) → q.Answer) :
    Leaf → Except Fault Evidence
  | sensor t =>
    match ask (.latest t.sensor t.field) with
    | none => .ok (.sensor t none)
    | some r => do
      let age ← now.minus r.time
      let limit ← Span.ofMinutes? t.maxAge
      .ok (.sensor t (some (r, age, decide (age ≤ limit))))
  | device t => .ok (.device t (ask (.device t.device)))
  | time t => .ok (.time t clock.clockText clock.weekday)
  | history t => .ok (.history t (ask (.aggregate t.sensor t.field t.aggregation t.window)))
  | trend t => .ok (.trend t (ask (.history t.sensor t.field t.window)))
  | heartbeat t =>
    match ask (.lastSeen t.sensor) with
    | none => .ok (.heartbeat t none)
    | some seen => do
      let silence ← now.minus seen
      let limit ← Span.ofMinutes? t.timeout
      .ok (.heartbeat t (some (seen, decide (limit < silence))))

/-- What became of a node. -/
inductive Finding where
  | group (op : Logic) (result : Bool)
  | leaf (e : Evidence)
  /-- A node of this kind, not judged. -/
  | skipped (kind : String)

/-- What became of the node that child numbers lead to from the root. -/
structure Detail where
  path : List Nat
  finding : Finding

/-- The outcome of judging a tree. -/
structure Evaluation where
  result : Bool
  details : List Detail

namespace Condition

mutual

/-- The details of a tree that is not judged. -/
def skip (path : List Nat) : Condition → List Detail
  | all cs => ⟨path, .skipped "group"⟩ :: skipFrom path 0 cs
  | any cs => ⟨path, .skipped "group"⟩ :: skipFrom path 0 cs
  | negation c => ⟨path, .skipped "group"⟩ :: skip (path ++ [0]) c
  | leaf l => [⟨path, .skipped l.kind⟩]

/-- The details of children from the number `i` on that are not judged. -/
def skipFrom (path : List Nat) (i : Nat) : List Condition → List Detail
  | [] => []
  | c :: r => skip (path ++ [i]) c ++ skipFrom path (i + 1) r

end

mutual

/-- The verdict on a tree and the details of its nodes, parents first. -/
def judge (now clock : Moment) (ask : (q : Query) → q.Answer) (path : List Nat) :
    Condition → Except Fault Evaluation
  | all cs => do
    let e ← judgeFrom now clock ask path 0 false cs
    .ok ⟨e.result, ⟨path, .group .and e.result⟩ :: e.details⟩
  | any cs => do
    let e ← judgeFrom now clock ask path 0 true cs
    .ok ⟨e.result, ⟨path, .group .or e.result⟩ :: e.details⟩
  | negation c => do
    let e ← judge now clock ask (path ++ [0]) c
    .ok ⟨!e.result, ⟨path, .group .not (!e.result)⟩ :: e.details⟩
  | leaf l => do
    let e ← l.examine now clock ask
    .ok ⟨e.result, [⟨path, .leaf e⟩]⟩

/-- The verdict on children from the number `i` on: `stop` as soon as one of them
is `stop`, and its opposite after the last. -/
def judgeFrom (now clock : Moment) (ask : (q : Query) → q.Answer) (path : List Nat) (i : Nat)
    (stop : Bool) : List Condition → Except Fault Evaluation
  | [] => .ok ⟨!stop, []⟩
  | c :: r => do
    let e ← judge now clock ask (path ++ [i]) c
    if e.result == stop then .ok ⟨stop, e.details ++ skipFrom path (i + 1) r⟩
    else
      let rest ← judgeFrom now clock ask path (i + 1) stop r
      .ok ⟨rest.result, e.details ++ rest.details⟩

end

section Children

variable {now clock : Moment} {ask : (q : Query) → q.Answer} {path : List Nat} {i : Nat}
  {stop : Bool} {c : Condition}

/-- A child without verdict leaves its group without. -/
theorem judgeFrom_fails {f : Fault} (h : c.judge now clock ask (path ++ [i]) = .error f)
    (r : List Condition) : judgeFrom now clock ask path i stop (c :: r) = .error f := by
  rw [judgeFrom, h]
  rfl

/-- The child that decides its group is the last that is judged. -/
theorem judgeFrom_stops {e : Evaluation} (h : c.judge now clock ask (path ++ [i]) = .ok e)
    (decided : e.result = stop) (r : List Condition) :
    judgeFrom now clock ask path i stop (c :: r)
      = .ok ⟨stop, e.details ++ skipFrom path (i + 1) r⟩ := by
  rw [judgeFrom, h]
  exact if_pos (beq_iff_eq.2 decided)

/-- Any other leaves the verdict to the children after it. -/
theorem judgeFrom_goesOn {e : Evaluation} (h : c.judge now clock ask (path ++ [i]) = .ok e)
    (undecided : e.result ≠ stop) (r : List Condition) :
    judgeFrom now clock ask path i stop (c :: r)
      = (judgeFrom now clock ask path (i + 1) stop r).map fun rest =>
        ⟨rest.result, e.details ++ rest.details⟩ := by
  rw [judgeFrom, h]
  exact if_neg fun decided => undecided (beq_iff_eq.1 decided)

end Children

/-- A tree judged against a snapshot. -/
def evaluate (c : Condition) (s : Snapshot) : Except Fault Evaluation :=
  c.judge s.takenAt s.localTime s.ask []

end Condition

end Glasshouse
