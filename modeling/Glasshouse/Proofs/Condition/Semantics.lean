/-
Glasshouse.Proofs.Condition.Semantics — what a tree of conditions means. Each leaf is a
statement about the store, the moment and the clock of the zone; a group is
"all", "any" or "not" of its children, without an order among them
(`Condition.Holds`). A tree that is judged on a snapshot, child by child and no
further than needed, gets the verdict that it has by its meaning
(`judge_agrees`). The one thing in a store that has no answer is an aggregate of
readings whose sum is undefined; a tree that asks for one is not judged at all.
Main statement: `evaluate_agrees`.

How the proof goes. One lemma for each kind of leaf says that it is judged as it means
(`Leaf.judged`), and `judge_agrees` goes along the tree. What is captured is what the store
answers (`Answering.evaluate`).

Side conditions of the main statement. The calls that read for conditions answer, the
moment has a local time in the zone, and no window or limit of a leaf leaves the
calendar (`Leaf.InTime`); Condition.Verdicts tells what happens where one does. Sums are
those of `Store.combine`, whose last digits depend on the database.
-/
import Glasshouse.Proofs.World.Apart
import Glasshouse.Proofs.Engine.History
import Glasshouse.Proofs.Condition.Snapshot

namespace Glasshouse

open Calendar

/-! ## What leaves mean -/

/-- The values of a field from so many minutes ago to now, oldest first. -/
def Store.recent (s : Store) (sensor field : String) (minutes : Int) (now : Moment) : List Float :=
  (((s.readingsOf sensor field).filter fun r =>
      decide (now.instant - minutes * minute ≤ r.recordedAt) &&
        decide (r.recordedAt ≤ now.instant)).mergeSort Store.olderFirst).map (·.value)

/-- The latest reading is there, not too old, and compares as asked. -/
def SensorTest.Holds (t : SensorTest) (s : Store) (now : Moment) : Prop :=
  ∃ r, s.latest t.sensor t.field = some r ∧ now.instant - r.recordedAt ≤ t.maxAge * minute ∧
    t.comparison.holds r.value t.value = true

/-- The device is there and has the status. -/
def DeviceTest.Holds (t : DeviceTest) (s : Store) : Prop :=
  ∃ d, s.device? t.device = some d ∧ d.status = t.expected

/-- It is one of the days, and the time of day lies in the window, which may wrap
midnight. -/
def TimeTest.Holds (t : TimeTest) (clock : Moment) : Prop :=
  (∀ days, t.days = some days → clock.weekday ∈ days) ∧
    if t.stop ≤ t.start then t.start ≤ clock.clockText ∨ clock.clockText < t.stop
    else t.start ≤ clock.clockText ∧ clock.clockText < t.stop

/-- There are readings in the window, and their aggregate compares as asked. -/
def HistoryTest.Holds (t : HistoryTest) (s : Store) (now : Moment) : Prop :=
  ∃ x xs, s.recent t.sensor t.field t.window now = x :: xs ∧
    t.comparison.holds (Store.combine t.aggregation x xs) t.threshold = true

/-- There are two or more readings in the window, and their slope goes in the direction. -/
def TrendTest.Holds (t : TrendTest) (s : Store) (now : Moment) : Prop :=
  let values := s.recent t.sensor t.field t.window now
  2 ≤ values.length ∧ t.trend.holds t.slope (Slope.slope Float.ofNat values) = true

/-- The sensor has never been seen, or has been silent for longer than the timeout. -/
def HeartbeatTest.Holds (t : HeartbeatTest) (s : Store) (now : Moment) : Prop :=
  ∀ seen, s.lastSeen t.sensor = some seen → t.timeout * minute < now.instant - seen

namespace Leaf

/-- What a leaf says about a store at a moment, `clock` being the time in the zone. -/
def Holds (s : Store) (now clock : Moment) : Leaf → Prop
  | sensor t => t.Holds s now
  | device t => t.Holds s
  | time t => t.Holds clock
  | history t => t.Holds s now
  | trend t => t.Holds s now
  | heartbeat t => t.Holds s now

/-- No arithmetic on times leaves the calendar where a leaf is judged: its minutes
are a span, and its window begins within the calendar. -/
def InTime (s : Store) (now : Moment) : Leaf → Prop
  | sensor t => s.latest t.sensor t.field = none ∨ ∃ limit, Span.ofMinutes? t.maxAge = .ok limit
  | device _ => True
  | time _ => True
  | history t => ∃ p, Store.window now t.window = .ok p
  | trend t => ∃ p, Store.window now t.window = .ok p
  | heartbeat t => s.lastSeen t.sensor = none ∨ ∃ limit, Span.ofMinutes? t.timeout = .ok limit

/-- The aggregate that a leaf asks for is a number. -/
def Defined (s : Store) (now : Moment) : Leaf → Prop
  | history t => ∀ x xs, s.recent t.sensor t.field t.window now = x :: xs →
      (Store.combine t.aggregation x xs).isNaN = false
  | _ => True

end Leaf

/-! ## What trees mean -/

namespace Condition

mutual

/-- The meaning of a tree, given the meaning of its leaves. -/
def Holds (P : Leaf → Prop) : Condition → Prop
  | all cs => AllHold P cs
  | any cs => AnyHolds P cs
  | negation c => ¬ Holds P c
  | leaf l => P l

/-- All trees of a list hold. -/
def AllHold (P : Leaf → Prop) : List Condition → Prop
  | [] => True
  | c :: cs => Holds P c ∧ AllHold P cs

/-- Some tree of a list holds. -/
def AnyHolds (P : Leaf → Prop) : List Condition → Prop
  | [] => False
  | c :: cs => Holds P c ∨ AnyHolds P cs

end

/-- All children hold if each of them does. -/
theorem allHold_iff {P : Leaf → Prop} {cs : List Condition} :
    AllHold P cs ↔ ∀ c ∈ cs, c.Holds P := by
  induction cs with
  | nil => simp [AllHold]
  | cons c cs ih => rw [AllHold, ih, List.forall_mem_cons]

/-- One child is enough. -/
theorem anyHolds_iff {P : Leaf → Prop} {cs : List Condition} :
    AnyHolds P cs ↔ ∃ c ∈ cs, c.Holds P := by
  induction cs with
  | nil => simp [AnyHolds]
  | cons c cs ih => rw [AnyHolds, ih]; simp

section Judge

variable {P : Leaf → Prop} {now clock : Moment} {ask : (q : Query) → q.Answer}

/-- A leaf that is judged, and as it is meant. -/
def Judged (P : Leaf → Prop) (now clock : Moment) (ask : (q : Query) → q.Answer) (l : Leaf) :
    Prop :=
  ∃ e, l.examine now clock ask = .ok e ∧ (e.result = true ↔ P l)

mutual

/-- If all leaves are judged as they are meant, so is the tree. -/
theorem judge_agrees (path : List Nat) :
    (c : Condition) → (∀ l ∈ c.leaves, Judged P now clock ask l) →
      ∃ e, c.judge now clock ask path = .ok e ∧ (e.result = true ↔ c.Holds P)
  | all cs, h => by
    obtain ⟨e, he, hall, -⟩ := judgeFrom_agrees path 0 false cs h
    exact ⟨_, bind_eq_ok.2 ⟨e, he, rfl⟩, hall rfl⟩
  | any cs, h => by
    obtain ⟨e, he, -, hany⟩ := judgeFrom_agrees path 0 true cs h
    exact ⟨_, bind_eq_ok.2 ⟨e, he, rfl⟩, hany rfl⟩
  | negation c, h => by
    obtain ⟨e, he, hc⟩ := judge_agrees (path ++ [0]) c h
    refine ⟨_, bind_eq_ok.2 ⟨e, he, rfl⟩, ?_⟩
    rw [Holds, ← hc, Bool.not_eq_true', Bool.not_eq_true]
  | leaf l, h => by
    obtain ⟨e, he, hl⟩ := h l (List.mem_singleton.2 rfl)
    exact ⟨_, bind_eq_ok.2 ⟨e, he, rfl⟩, hl⟩

/-- The children of a group are judged up to the first that decides it, and the
verdict is that on all of them. -/
theorem judgeFrom_agrees (path : List Nat) (i : Nat) (stop : Bool) :
    (cs : List Condition) → (∀ l ∈ leavesOf cs, Judged P now clock ask l) →
      ∃ e, judgeFrom now clock ask path i stop cs = .ok e ∧
        (stop = false → (e.result = true ↔ AllHold P cs)) ∧
        (stop = true → (e.result = true ↔ AnyHolds P cs))
  | [], _ => by
    refine ⟨_, rfl, fun hs => ?_, fun hs => ?_⟩
    · simp [hs, AllHold]
    · simp [hs, AnyHolds]
  | c :: cs, h => by
    have hleaves : (∀ l ∈ c.leaves, Judged P now clock ask l) ∧
        ∀ l ∈ leavesOf cs, Judged P now clock ask l := List.forall_mem_append.1 h
    obtain ⟨e, he, hc⟩ := judge_agrees (path ++ [i]) c hleaves.1
    by_cases hstop : e.result = stop
    · refine ⟨⟨stop, e.details ++ skipFrom path (i + 1) cs⟩, ?_, fun hs => ?_, fun hs => ?_⟩
      · exact judgeFrom_stops he hstop cs
      · have hfalse : ¬ c.Holds P := fun hh => by
          rw [hs, hc.2 hh] at hstop
          cases hstop
        simp [hs, AllHold, hfalse]
      · have htrue : c.Holds P := hc.1 (hstop.trans hs)
        simp [hs, AnyHolds, htrue]
    · obtain ⟨rest, hrest, hall, hany⟩ := judgeFrom_agrees path (i + 1) stop cs hleaves.2
      refine ⟨⟨rest.result, e.details ++ rest.details⟩, ?_, fun hs => ?_, fun hs => ?_⟩
      · rw [judgeFrom_goesOn he hstop, hrest]
        rfl
      · have htrue : c.Holds P := hc.1 (by simpa [hs] using hstop)
        rw [hall hs, AllHold]
        exact (and_iff_right htrue).symm
      · have hfalse : ¬ c.Holds P := fun hh => hstop ((hc.2 hh).trans hs.symm)
        rw [hany hs, AnyHolds]
        exact (or_iff_right hfalse).symm

end

end Judge

end Condition

/-! ## What the store answers -/

/-- The answer of a store to a question of conditions. -/
def Store.answer (s : Store) (now : Moment) : (q : Query) → Except Fault q.Answer
  | .latest sensor field =>
    .ok ((s.latest sensor field).map fun r => ⟨r.value, .ofInstant r.recordedAt⟩)
  | .device d => .ok ((s.device? d).map (·.status))
  | .aggregate sensor field fn w => s.aggregate sensor field w fn now
  | .history sensor field w => s.history sensor field w now
  | .lastSeen sensor => .ok ((s.lastSeen sensor).map .ofInstant)

/-- No call that reads for conditions is laid down to fail. -/
def World.Answering (w : World) : Prop :=
  ∀ c ∈ [Contact.latest, .deviceStatus, .device, .aggregate, .history, .lastSeen],
    w.outages.get? c = none

namespace Store

variable {s : Store} {now : Moment}

theorem window_eq_ok {minutes : Int} {p : Instant × Instant} (h : window now minutes = .ok p) :
    p = (now.instant - minutes * minute, now.instant) := by
  obtain ⟨stop, hstop, h⟩ := bind_eq_ok.1 h
  obtain ⟨span, hspan, h⟩ := bind_eq_ok.1 h
  obtain ⟨-, rfl⟩ := Moment.toInstant_eq_ok.1 hstop
  rw [Span.ofMinutes?_eq_ok hspan] at h
  simp only at h
  split at h
  · cases h
    rfl
  · cases h

theorem history_of_window {minutes : Int} (sensor field : String)
    (h : ∃ p, window now minutes = .ok p) :
    s.history sensor field minutes now = .ok (s.recent sensor field minutes now) := by
  obtain ⟨p, hp⟩ := h
  unfold history
  rw [hp, window_eq_ok hp]
  rfl

/-- An aggregate of a window in the calendar: none without readings, a fault where
the sum is undefined. -/
theorem aggregate_of_window {minutes : Int} (sensor field : String) (fn : Aggregation)
    (h : ∃ p, window now minutes = .ok p) :
    s.aggregate sensor field minutes fn now = match s.recent sensor field minutes now with
      | [] => .ok none
      | x :: xs => if (combine fn x xs).isNaN then .error .sumUndefined
          else .ok (some (combine fn x xs)) := by
  obtain ⟨p, hp⟩ := h
  unfold aggregate
  rw [hp, window_eq_ok hp]
  rfl

end Store

namespace World

variable {w : World}

theorem Answering.consult (h : w.Answering) {c : Contact}
    (hc : c ∈ [Contact.latest, .deviceStatus, .device, .aggregate, .history, .lastSeen]) :
    w.consult c = (none, w) := by
  unfold World.consult
  rw [h c hc]

/-- A call that reads for conditions gives what the store says. -/
theorem Answering.fetch {α : Type} (h : w.Answering) {c : Contact}
    (hc : c ∈ [Contact.latest, .deviceStatus, .device, .aggregate, .history, .lastSeen])
    (f : Store → Except Fault α) : (Work.fetch c f).run.run w = (f w.store, w) := by
  rw [Work.run_fetch, h.consult hc]

theorem Answering.ask (h : w.Answering) (now : Moment) (q : Query) :
    (Work.ask now q).run.run w = (w.store.answer now q, w) := by
  cases q with
  | latest sensor field => exact h.fetch (by simp) _
  | device d =>
    have hconsult : (Work.consult .deviceStatus).run.run w = (.ok (), w) := by
      rw [Work.run_consult, h.consult (by simp)]
      rfl
    unfold Work.ask
    rw [Work.run_bind, hconsult]
    exact h.fetch (by simp) _
  | aggregate sensor field fn n => exact h.fetch (by simp) _
  | history sensor field n => exact h.fetch (by simp) _
  | lastSeen sensor => exact h.fetch (by simp) _

theorem Answering.gather (h : w.Answering) (now : Moment) (qs : List Query) :
    (Snapshot.gather (Work.ask now) qs).run.run w
      = (Snapshot.gather (w.store.answer now) qs, w) := by
  induction qs with
  | nil => rfl
  | cons q qs ih =>
    rw [Snapshot.gather, Snapshot.gather, Work.run_bind, h.ask now q]
    cases w.store.answer now q with
    | error e => rfl
    | ok a =>
      show (_ >>= _ : Work _).run.run w = _
      rw [Work.run_bind, ih]
      cases Snapshot.gather (w.store.answer now) qs with
      | error e => rfl
      | ok rest => rfl

/-- A world that answers is read and not changed. -/
theorem Answering.evaluate (h : w.Answering) (c : Condition) (now : Moment) :
    (Engine.evaluate c now).run.run w
      = (do
          let s ← c.capture w.zone now (w.store.answer now)
          let e ← c.evaluate s
          pure (e, s), w) := by
  unfold Engine.evaluate
  rw [Work.run_bind, Work.run_lift, Plan.run_look]
  simp only
  rw [Work.run_bind]
  unfold Condition.capture
  cases w.zone.local? now with
  | error e => rfl
  | ok clock =>
    simp only
    rw [Work.run_bind, h.gather now]
    cases Snapshot.gather (w.store.answer now) c.queries with
    | error e => rfl
    | ok found =>
      show (_ >>= _ : Work _).run.run w = _
      rw [Work.run_bind, Work.run_ofExcept]
      show _ = ((c.evaluate ⟨now, clock, found⟩ >>= fun e => pure (e, _) : Except _ _), w)
      cases c.evaluate ⟨now, clock, found⟩ with
      | error e => rfl
      | ok e => rfl

end World

/-! ## Verdicts -/

section Verdict

variable {s : Store} {now clock : Moment} {ask : (q : Query) → q.Answer}

open Condition (Judged)

theorem SensorTest.judged (t : SensorTest) (aware : now.Aware)
    (intime : (Leaf.sensor t).InTime s now)
    (h : s.answer now (.latest t.sensor t.field) = .ok (ask (.latest t.sensor t.field))) :
    Judged (Leaf.Holds s now clock) now clock ask (.sensor t) := by
  have hask := (Except.ok.inj h).symm
  unfold Judged
  simp only [Leaf.examine, hask, Leaf.Holds, SensorTest.Holds]
  cases hr : s.latest t.sensor t.field with
  | none => exact ⟨_, rfl, by simp [Evidence.result]⟩
  | some r =>
    obtain ⟨limit, hlimit⟩ := intime.resolve_left fun hn => by rw [hr] at hn; cases hn
    have hage := Moment.minus_of_aware aware (Moment.utc_ofInstant r.recordedAt).aware
    refine ⟨_, bind_eq_ok.2 ⟨_, hage, bind_eq_ok.2 ⟨_, hlimit, rfl⟩⟩, ?_⟩
    simp [Evidence.result, Span.ofMinutes?_eq_ok hlimit]

theorem HeartbeatTest.judged (t : HeartbeatTest) (aware : now.Aware)
    (intime : (Leaf.heartbeat t).InTime s now)
    (h : s.answer now (.lastSeen t.sensor) = .ok (ask (.lastSeen t.sensor))) :
    Judged (Leaf.Holds s now clock) now clock ask (.heartbeat t) := by
  have hask := (Except.ok.inj h).symm
  unfold Judged
  simp only [Leaf.examine, hask, Leaf.Holds, HeartbeatTest.Holds]
  cases hi : s.lastSeen t.sensor with
  | none => exact ⟨_, rfl, by simp [Evidence.result]⟩
  | some i =>
    obtain ⟨limit, hlimit⟩ := intime.resolve_left fun hn => by rw [hi] at hn; cases hn
    have hage := Moment.minus_of_aware aware (Moment.utc_ofInstant i).aware
    refine ⟨_, bind_eq_ok.2 ⟨_, hage, bind_eq_ok.2 ⟨_, hlimit, rfl⟩⟩, ?_⟩
    simp [Evidence.result, Span.ofMinutes?_eq_ok hlimit]

theorem DeviceTest.judged (t : DeviceTest)
    (h : s.answer now (.device t.device) = .ok (ask (.device t.device))) :
    Judged (Leaf.Holds s now clock) now clock ask (.device t) := by
  refine ⟨_, rfl, ?_⟩
  rw [← Except.ok.inj h, Leaf.Holds, DeviceTest.Holds]
  cases s.device? t.device with
  | none => simp [Evidence.result]
  | some d => simp [Evidence.result]

theorem TimeTest.includesDay_iff (t : TimeTest) (weekday : Nat) :
    t.includesDay weekday = true ↔ ∀ days, t.days = some days → weekday ∈ days := by
  unfold TimeTest.includesDay
  cases t.days with
  | none => simp
  | some days => simp

theorem TimeTest.judged (t : TimeTest) :
    Judged (Leaf.Holds s now clock) now clock ask (.time t) := by
  have hwindow : t.contains clock.clockText = true ↔
      if t.stop ≤ t.start then t.start ≤ clock.clockText ∨ clock.clockText < t.stop
      else t.start ≤ clock.clockText ∧ clock.clockText < t.stop := by
    unfold TimeTest.contains TimeTest.wraps
    by_cases h : t.stop ≤ t.start
    · simp [h]
    · simp [h]
  refine ⟨_, rfl, ?_⟩
  rw [Evidence.result, Bool.and_eq_true, t.includesDay_iff, hwindow]
  rfl

theorem HistoryTest.judged (t : HistoryTest) (intime : (Leaf.history t).InTime s now)
    (h : s.answer now (.aggregate t.sensor t.field t.aggregation t.window)
      = .ok (ask (.aggregate t.sensor t.field t.aggregation t.window))) :
    Judged (Leaf.Holds s now clock) now clock ask (.history t) := by
  rw [Store.answer, Store.aggregate_of_window _ _ _ intime] at h
  refine ⟨_, rfl, ?_⟩
  rw [Leaf.Holds, HistoryTest.Holds]
  cases hv : s.recent t.sensor t.field t.window now with
  | nil =>
    rw [hv] at h
    rw [← Except.ok.inj h]
    simp [Evidence.result]
  | cons x xs =>
    rw [hv] at h
    simp only at h
    split at h
    · cases h
    · rw [← Except.ok.inj h]
      simp [Evidence.result]

theorem TrendTest.judged (t : TrendTest) (intime : (Leaf.trend t).InTime s now)
    (h : s.answer now (.history t.sensor t.field t.window)
      = .ok (ask (.history t.sensor t.field t.window))) :
    Judged (Leaf.Holds s now clock) now clock ask (.trend t) := by
  rw [Store.answer, Store.history_of_window _ _ intime] at h
  refine ⟨_, rfl, ?_⟩
  rw [← Except.ok.inj h, Evidence.result, Slope.ofValues?, Leaf.Holds, TrendTest.Holds]
  by_cases hlen : (s.recent t.sensor t.field t.window now).length < 2
  · simp [hlen, Nat.not_le_of_lt hlen]
  · simp [hlen, Nat.le_of_not_lt hlen]

/-- A leaf judged on the answers of a store says what it means. -/
theorem Leaf.judged (aware : now.Aware) {l : Leaf} (intime : l.InTime s now)
    (answers : ∀ q, l.query? = some q → s.answer now q = .ok (ask q)) :
    Judged (Leaf.Holds s now clock) now clock ask l := by
  cases l with
  | sensor t => exact t.judged aware intime (answers _ rfl)
  | device t => exact t.judged (answers _ rfl)
  | time t => exact t.judged
  | history t => exact t.judged intime (answers _ rfl)
  | trend t => exact t.judged intime (answers _ rfl)
  | heartbeat t => exact t.judged aware intime (answers _ rfl)

/-- A leaf that is defined has an answer to its question; of the others the sum is
undefined. -/
theorem Leaf.answered {l : Leaf} {q : Query} (intime : l.InTime s now) (hq : l.query? = some q) :
    (l.Defined s now → ∃ a, s.answer now q = .ok a) ∧
      (¬ l.Defined s now → s.answer now q = .error .sumUndefined) := by
  cases l with
  | sensor t => cases hq; exact ⟨fun _ => ⟨_, rfl⟩, fun h => absurd trivial h⟩
  | device t => cases hq; exact ⟨fun _ => ⟨_, rfl⟩, fun h => absurd trivial h⟩
  | time t => cases hq
  | history t =>
    cases hq
    rw [Store.answer, Store.aggregate_of_window _ _ _ intime, Leaf.Defined]
    cases s.recent t.sensor t.field t.window now with
    | nil => exact ⟨fun _ => ⟨_, rfl⟩, fun h => absurd (fun _ _ e => by cases e) h⟩
    | cons x xs =>
      cases hn : (Store.combine t.aggregation x xs).isNaN with
      | false =>
        exact ⟨fun _ => ⟨some (Store.combine t.aggregation x xs), if_neg (ne_true_of_eq_false hn)⟩,
          fun h => absurd (fun _ _ e => by cases e; exact hn) h⟩
      | true =>
        exact ⟨fun h => Bool.noConfusion (hn.symm.trans (h x xs rfl)), fun _ => if_pos hn⟩
  | trend t =>
    cases hq
    rw [Store.answer, Store.history_of_window _ _ intime]
    exact ⟨fun _ => ⟨_, rfl⟩, fun h => absurd trivial h⟩
  | heartbeat t => cases hq; exact ⟨fun _ => ⟨_, rfl⟩, fun h => absurd trivial h⟩

end Verdict

/-! ## Trees judged on the store -/

section Agreement

variable {c : Condition} {now clock : Moment} {w : World}

theorem Condition.mem_queries {q : Query} :
    q ∈ c.queries ↔ ∃ l ∈ c.leaves, l.query? = some q := by
  rw [queries, List.mem_eraseDups, List.mem_filterMap]

/-- A tree whose aggregates are defined gets the verdict of its meaning. -/
theorem evaluate_of_defined (aware : now.Aware) (answering : w.Answering)
    (localTime : w.zone.local? now = .ok clock) (intime : ∀ l ∈ c.leaves, l.InTime w.store now)
    (defined : ∀ l ∈ c.leaves, l.Defined w.store now) :
    ∃ e s asked, (Engine.evaluate c now).run.run w = (.ok (e, s), w) ∧
      (e.result = true ↔ c.Holds (Leaf.Holds w.store now clock)) ∧
      (c.capture w.zone now (Query.noted (w.store.answer now))).perform [] = (.ok s, asked) ∧
      c.Captured (w.store.answer now) asked s := by
  have hanswered : ∀ q ∈ c.queries, ∃ a, w.store.answer now q = .ok a := fun q hq =>
    have ⟨l, hl, hlq⟩ := Condition.mem_queries.1 hq
    (Leaf.answered (intime l hl) hlq).1 (defined l hl)
  obtain ⟨found, hfound⟩ := Snapshot.gather_of_answered hanswered
  have hcapture : c.capture w.zone now (w.store.answer now) = .ok ⟨now, clock, found⟩ := by
    unfold Condition.capture
    rw [localTime]
    exact bind_eq_ok.2 ⟨found, hfound, rfl⟩
  obtain ⟨asked, hrun, -, hcaptured⟩ := c.capture_noted localTime (w.store.answer now)
  have hcap := hcaptured _ hcapture
  -- the snapshot answers each leaf as the store does, so the leaf says what it means
  have hleaves : ∀ l ∈ c.leaves, Condition.Judged (Leaf.Holds w.store now clock) now clock
      (Snapshot.mk now clock found).ask l := by
    refine fun l hl => Leaf.judged aware (intime l hl) fun q hq => ?_
    obtain ⟨a, ha, hans⟩ := hcap.found q (List.mem_filterMap.2 ⟨l, hl, hq⟩)
    rw [hans, Snapshot.ask, ha]
    rfl
  obtain ⟨e, he, hres⟩ := Condition.judge_agrees [] c hleaves
  refine ⟨e, ⟨now, clock, found⟩, asked, ?_, hres, hrun.trans (by rw [hcapture]), hcap⟩
  rw [answering.evaluate, hcapture]
  exact congrArg (·, w) (bind_eq_ok.2 ⟨_, rfl, bind_eq_ok.2 ⟨e, he, rfl⟩⟩)

/-- A tree that asks for an undefined sum gets no verdict. -/
theorem evaluate_of_undefined (answering : w.Answering) (localTime : w.zone.local? now = .ok clock)
    (intime : ∀ l ∈ c.leaves, l.InTime w.store now)
    (undefined : ∃ l ∈ c.leaves, ¬ l.Defined w.store now) :
    (Engine.evaluate c now).run.run w = (.error .sumUndefined, w) := by
  obtain ⟨l, hl, hundef⟩ := undefined
  obtain ⟨q, hq⟩ : ∃ q, l.query? = some q := by
    cases l with
    | time t => exact absurd trivial hundef
    | sensor t | device t | history t | trend t | heartbeat t => exact ⟨_, rfl⟩
  have honly : ∀ p ∈ c.queries, ∀ x, w.store.answer now p = .error x → x = .sumUndefined := by
    intro p hp x hx
    obtain ⟨k, hk, hkp⟩ := Condition.mem_queries.1 hp
    obtain ⟨hok, hno⟩ := Leaf.answered (intime k hk) hkp
    by_cases hd : k.Defined w.store now
    · obtain ⟨a, ha⟩ := hok hd
      rw [ha] at hx
      cases hx
    · rw [hno hd] at hx
      exact (Except.error.inj hx).symm
  have hgather : Snapshot.gather (w.store.answer now) c.queries = .error .sumUndefined :=
    Snapshot.gather_of_unanswered honly
      ⟨q, Condition.mem_queries.2 ⟨l, hl, hq⟩, (Leaf.answered (intime l hl) hq).2 hundef⟩
  rw [answering.evaluate]
  unfold Condition.capture
  rw [localTime]
  simp only [hgather]
  rfl

/-- **Judging on a snapshot is judging on the store.** In a world whose calls
answer, and with no arithmetic that leaves the calendar, there are two cases. If
every aggregate that the tree asks for is defined, the tree is judged, the world
stays as it is, and the verdict is the meaning of the tree when each leaf reads the
store, without any shortcut; the snapshot was made by asking each question of the
tree once, in order of first occurrence, and none that a leaf looks up is missing.
If the sum of some aggregate is undefined, the tree has no verdict, whatever its
meaning is. -/
theorem evaluate_agrees (c : Condition) (now clock : Moment) (w : World) (aware : now.Aware)
    (answering : w.Answering) (localTime : w.zone.local? now = .ok clock)
    (intime : ∀ l ∈ c.leaves, l.InTime w.store now) :
    ((∀ l ∈ c.leaves, l.Defined w.store now) →
      ∃ e s asked, (Engine.evaluate c now).run.run w = (.ok (e, s), w) ∧
        (e.result = true ↔ c.Holds (Leaf.Holds w.store now clock)) ∧
        (c.capture w.zone now (Query.noted (w.store.answer now))).perform [] = (.ok s, asked) ∧
        c.Captured (w.store.answer now) asked s) ∧
    ((∃ l ∈ c.leaves, ¬ l.Defined w.store now) →
      (Engine.evaluate c now).run.run w = (.error .sumUndefined, w)) :=
  ⟨evaluate_of_defined aware answering localTime intime,
    evaluate_of_undefined answering localTime intime⟩

end Agreement

/-! ## A greenhouse at noon -/

/-- A greenhouse at noon with its fan on, where a probe has reported values, one a
minute, the last of them a minute ago. -/
def World.noon (values : List Float) : World :=
  { World.quiet 720 with store := {
      devices := [{ id := "fan", name := "Fan", status := "on" }]
      readings := values.zipIdx.map fun (x, i) =>
        ⟨i + 1, "probe", "t", x, (World.quiet 720).clock.wall - (values.length - i) * minute⟩ } }

/-- Whether the fan is on or it is night, the probe is hot and getting hotter, and
it is not silent. -/
def Condition.airing : Condition :=
  .all [.any [.leaf (.device ⟨"fan", "on"⟩), .leaf (.time ⟨"22:00", "06:00", none⟩)],
    .leaf (.sensor ⟨"probe", "t", .gt, 21.5, 10⟩),
    .leaf (.history ⟨"probe", "t", .avg, 30, .gte, 21.0⟩),
    .leaf (.trend ⟨"probe", "t", .rising, 30, 0.5⟩),
    .negation (.leaf (.heartbeat ⟨"probe", 5⟩))]

theorem World.noon_answering (values : List Float) : (World.noon values).Answering :=
  fun _ _ => rfl

theorem Condition.airing_inTime (s : Store) :
    ∀ l ∈ airing.leaves, l.InTime s (World.quiet 720).clock := by
  refine List.forall_mem_cons.2 ⟨trivial, List.forall_mem_cons.2 ⟨trivial, ?_⟩⟩
  refine List.forall_mem_cons.2 ⟨.inr ⟨_, rfl⟩, List.forall_mem_cons.2 ⟨⟨_, rfl⟩, ?_⟩⟩
  refine List.forall_mem_cons.2 ⟨⟨_, rfl⟩, List.forall_mem_cons.2 ⟨.inr ⟨_, rfl⟩, ?_⟩⟩
  exact List.forall_mem_nil _

/-- The readings of the last half hour at noon. -/
theorem World.noon_recent :
    (noon [20.0, 21.0, 22.0]).store.recent "probe" "t" 30 (quiet 720).clock
      = [20.0, 21.0, 22.0] := by
  unfold Store.recent
  rw [List.mergeSort_of_pairwise (by decide +kernel)]
  rfl

/-- The latest reading at noon. -/
theorem World.noon_latest : ∃ r, (noon [20.0, 21.0, 22.0]).store.latest "probe" "t" = some r ∧
    (quiet 720).clock.instant - r.recordedAt ≤ (10 : Nat) * minute ∧
    Comparison.gt.holds r.value 21.5 = true := by
  unfold Store.latest
  rw [List.mergeSort_of_pairwise (by decide +kernel)]
  exact ⟨_, rfl, by decide +kernel, by decide +kernel⟩

/-- It is to be aired at noon: the snapshot says so, and so does the store. -/
theorem evaluate_agrees_airing :
    ∃ e s asked, (Engine.evaluate .airing (World.quiet 720).clock).run.run
          (World.noon [20.0, 21.0, 22.0]) = (.ok (e, s), World.noon [20.0, 21.0, 22.0]) ∧
      e.result = true ∧ Condition.airing.Captured
        ((World.noon [20.0, 21.0, 22.0]).store.answer (World.quiet 720).clock) asked s := by
  have hdef : ∀ l ∈ Condition.airing.leaves,
      l.Defined (World.noon [20.0, 21.0, 22.0]).store (World.quiet 720).clock := by
    refine List.forall_mem_cons.2 ⟨trivial, List.forall_mem_cons.2 ⟨trivial, ?_⟩⟩
    refine List.forall_mem_cons.2 ⟨trivial, List.forall_mem_cons.2 ⟨fun x xs h => ?_, ?_⟩⟩
    · cases World.noon_recent.symm.trans h
      decide +kernel
    · refine List.forall_mem_cons.2 ⟨trivial, List.forall_mem_cons.2 ⟨trivial, ?_⟩⟩
      exact List.forall_mem_nil _
  have hholds : Condition.airing.Holds (Leaf.Holds (World.noon [20.0, 21.0, 22.0]).store
      (World.quiet 720).clock (World.quiet 720).clock) := by
    refine ⟨.inl ⟨_, rfl, rfl⟩, World.noon_latest, ⟨_, _, World.noon_recent, by decide +kernel⟩,
      ?_, fun h => ?_, trivial⟩
    · have hrecent := World.noon_recent
      generalize (World.noon [20.0, 21.0, 22.0]).store = st at hrecent
      show 2 ≤ (st.recent "probe" "t" 30 _).length ∧
        Trend.rising.holds 0.5 (Slope.slope Float.ofNat (st.recent "probe" "t" 30 _)) = true
      rw [hrecent]
      decide +kernel
    · exact absurd (h _ rfl) (by decide +kernel)
  obtain ⟨e, s, asked, hrun, hres, -, hcap⟩ := (evaluate_agrees .airing (World.quiet 720).clock
    (World.quiet 720).clock (World.noon [20.0, 21.0, 22.0]) rfl (World.noon_answering _) rfl
    (Condition.airing_inTime _)).1 hdef
  exact ⟨e, s, asked, hrun, hres.2 hholds, hcap⟩

/-- Whether the fan is on or the average of the probe is high. -/
def Condition.airingOrHot : Condition :=
  .any [.leaf (.device ⟨"fan", "on"⟩), .leaf (.history ⟨"probe", "t", .avg, 30, .gte, 21.0⟩)]

/-- Without bounds, two readings whose sum is undefined take the verdict from a tree
that holds for another reason. -/
theorem undefined_sum_stops_verdict :
    let w := World.noon [Float.ofBits 0x7ff0000000000000, Float.ofBits 0xfff0000000000000]
    let now := (World.quiet 720).clock
    now.Aware ∧ w.Answering ∧ w.zone.local? now = .ok now ∧
      (∀ l ∈ Condition.airingOrHot.leaves, l.InTime w.store now) ∧
      Condition.airingOrHot.Holds (Leaf.Holds w.store now now) ∧
      (Engine.evaluate .airingOrHot now).run.run w = (.error .sumUndefined, w) := by
  intro w now
  have hintime : ∀ l ∈ Condition.airingOrHot.leaves, l.InTime w.store now :=
    List.forall_mem_cons.2 ⟨trivial, List.forall_mem_cons.2 ⟨⟨_, rfl⟩, List.forall_mem_nil _⟩⟩
  refine ⟨rfl, World.noon_answering _, rfl, hintime, .inl ⟨_, rfl, rfl⟩, ?_⟩
  refine evaluate_of_undefined (World.noon_answering _) rfl hintime
    ⟨_, List.mem_cons_of_mem _ List.mem_cons_self, fun hdef => ?_⟩
  have hrecent : w.store.recent "probe" "t" 30 now
      = [Float.ofBits 0x7ff0000000000000, Float.ofBits 0xfff0000000000000] := by
    unfold Store.recent
    rw [List.mergeSort_of_pairwise (by decide +kernel)]
    rfl
  exact absurd (hdef _ _ hrecent) (by decide +kernel)

end Glasshouse
