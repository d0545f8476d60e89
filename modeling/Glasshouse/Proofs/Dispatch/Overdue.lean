/-
Glasshouse.Proofs.Dispatch.Overdue — timed commands, and what is left where the job that undoes one
cannot be made. The command is carried out first, and only then the time is reckoned at
which its job is due. If that time lies in the calendar, the job is queued; if not, the
action fails, and the device stays as the command has left it. Main statement:
`whole_iff_due`.

Side conditions of the main statement. The occasion has a time in the calendar, the queue
accepts jobs, the action is not given up, and no command arrives meanwhile that was given up
before. A queue that refuses also leaves a device without its job; that is a failure which
was laid down, and no matter of times.
-/
import Glasshouse.Proofs.Dispatch.Timeline
import Glasshouse.Proofs.Condition.Verdicts

namespace Glasshouse

open Calendar Plan

/-! ## When a job is due -/

/-- The time so many minutes after the occasion, on the same clock. -/
def Occasion.later (o : Occasion) (minutes : Nat) : Moment :=
  { o.now with wall := o.now.wall + minutes * minute }

namespace Revert

variable {a : DeviceAction} {change : DeviceChange} {minutes : Nat} {o : Occasion} {r : Revert}

/-- The job that undoes a command, whether or not the calendar has the time at which it is
due. -/
def of (a : DeviceAction) (change : DeviceChange) (minutes : Nat) (o : Occasion) : Revert :=
  ⟨a.device, (undo a.command change).1, (undo a.command change).2, o.later minutes, o.ruleId⟩

/-- A job that was made is due in the calendar. -/
theorem after_eq_of (h : Revert.after a change minutes o = .ok r) :
    inCalendar (o.later minutes).wall = true ∧ r = of a change minutes o := by
  obtain ⟨span, hspan, h⟩ := bind_eq_ok.1 h
  obtain ⟨due, hdue, h⟩ := bind_eq_ok.1 h
  rw [Span.ofMinutes?_eq_ok hspan] at hdue
  obtain ⟨hcalendar, rfl⟩ := Moment.plus_eq_ok.1 hdue
  cases h
  exact ⟨hcalendar, rfl⟩

/-- A job that could not be made would have been due after the calendar: where it is due in the
calendar, so many minutes can be counted as well. -/
theorem after_eq_error (now : inCalendar o.now.wall = true) {f : Fault}
    (h : Revert.after a change minutes o = .error f) :
    inCalendar (o.later minutes).wall = false := by
  refine Bool.eq_false_iff.2 fun due => ?_
  have hcount : minutes < uncountable := by
    have hnow := ((inCalendar_iff _).1 now).1
    have hdue : o.now.wall + minutes * 60000000 < (315537897600000000 : Int) :=
      ((inCalendar_iff _).1 due).2
    unfold uncountable
    omega
  obtain ⟨span, hspan⟩ := (Span.ofMinutes?_nat minutes).2 hcount
  have hplus : o.now.plus span = .ok (o.later minutes) := by
    rw [Span.ofMinutes?_eq_ok hspan]
    exact Moment.plus_eq_ok.2 ⟨due, rfl⟩
  have hok : Revert.after a change minutes o = .ok (of a change minutes o) :=
    bind_eq_ok.2 ⟨span, hspan, bind_eq_ok.2 ⟨_, hplus, rfl⟩⟩
  cases h.symm.trans hok

end Revert

/-! ## What becomes of a timed command -/

namespace World

variable {v : World} {a : DeviceAction} {change : DeviceChange} {s : Store}

/-- The store carries out a command: what that changes, and what the store then is. -/
def Obeys (v : World) (a : DeviceAction) (change : DeviceChange) (s : Store) : Prop :=
  (v.consult .deviceCommand).1 = none ∧
    v.store.command a.device a.command.name (a.value.map Setting.stored) = .ok (change, s)

/-- A command that is carried out; the queue does not notice. -/
theorem callStore_of_obeys (h : v.Obeys a change s) : ∃ u : World,
    v.callStore .deviceCommand (·.command a.device a.command.name (a.value.map Setting.stored))
      = (.ok change, u) ∧ u.store = s ∧ (u.consult .enqueue).1 = (v.consult .enqueue).1 := by
  have hqueue := consult_fst_of_ne (c := .deviceCommand) (d := .enqueue) (by decide) v
  obtain ⟨t, ht⟩ := v.consult_failing .deviceCommand
  unfold callStore
  rcases hc : v.consult .deviceCommand with ⟨_ | f, u⟩
  · rw [hc] at ht hqueue
    obtain rfl : u = v.failing t := ht
    simp only [show (v.failing t).store = v.store from rfl, h.2]
    refine ⟨_, rfl, rfl, ?_⟩
    rw [← hqueue, consult_fst, consult_fst]
  · cases (congrArg Prod.fst hc).symm.trans h.1

/-- A command that is not carried out leaves the store as it is. -/
theorem callStore_of_not_obeys (h : ∀ change s, ¬ v.Obeys a change s) : ∃ f t,
    v.callStore .deviceCommand (·.command a.device a.command.name (a.value.map Setting.stored))
      = (.error f, v.failing t) := by
  rcases v.callStore_cases .deviceCommand
      (·.command a.device a.command.name (a.value.map Setting.stored)) with
    ⟨change, s, up, hs, -⟩ | ⟨⟨f, hf⟩, ⟨t, ht⟩, -⟩
  · exact absurd ⟨up, hs⟩ (h change s)
  · exact ⟨f, t, Prod.ext hf ht⟩

/-- The calendar has the time at which a command is to be undone, if the command is carried
out at all and changes a device. -/
def Undoable (v : World) (a : DeviceAction) (minutes : Nat) (o : Occasion) : Prop :=
  ∀ change s, v.Obeys a change s →
    s.devices = v.store.devices ∨ inCalendar (o.later minutes).wall = true

end World

namespace Outcome

/-- The action has failed, and devices and jobs are as they were. -/
structure Spared (x : Outcome) (v w : World) : Prop where
  failed : x.succeeded = false
  devices : w.store.devices = v.store.devices
  jobs : w.store.jobs = v.store.jobs

/-- The command is carried out, and one job more is queued, with a new number that the outcome
tells: the one that undoes the command, due so many minutes after the occasion. -/
def Reverted (a : DeviceAction) (minutes : Nat) (o : Occasion) (x : Outcome) (v w : World) :
    Prop :=
  ∃ change s job, v.Obeys a change s ∧ x.result = .ok (.device change (some job)) ∧
    w.store = { s with jobs := v.store.jobs ++ [⟨job, revertQueue, JobRank.high.name,
      (Revert.of a change minutes o).toDoc, "pending"⟩] } ∧
    ∀ j ∈ v.store.jobs, j.id ≠ job

/-- The action has failed after the command was carried out, so that devices have changed and
no job was queued. -/
def Stranded (a : DeviceAction) (minutes : Nat) (o : Occasion) (x : Outcome) (v w : World) :
    Prop :=
  ∃ change f, v.Obeys a change w.store ∧ w.store.devices ≠ v.store.devices ∧
    w.store.jobs = v.store.jobs ∧ Revert.after a change minutes o = .error f ∧
    x.result = .error f.record

variable {x : Outcome} {v w : World} {a : DeviceAction} {minutes : Nat} {o : Occasion}

theorem Stranded.not_spared (h : x.Stranded a minutes o v w) : ¬ x.Spared v w := by
  obtain ⟨_, _, _, hdevices, -⟩ := h
  exact fun spared => hdevices spared.devices

theorem Stranded.not_reverted (h : x.Stranded a minutes o v w) : ¬ x.Reverted a minutes o v w := by
  obtain ⟨_, f, _, _, _, _, hfailed⟩ := h
  rintro ⟨_, _, _, _, hdone, -⟩
  cases hfailed.symm.trans hdone

end Outcome

namespace Dispatch

variable {a : DeviceAction} {minutes : Nat} {o : Occasion} {v w : World} {i : Nat} {x : Outcome}

/-- What becomes of a timed command that nothing holds up: its result, and the store that it
leaves. -/
inductive Course (a : DeviceAction) (minutes : Nat) (o : Occasion) (v : World) :
    Except Fault Effect → Store → Prop where
  | refused {f : Fault} (refuses : ∀ change s, ¬ v.Obeys a change s) :
    Course a minutes o v (.error f) v.store
  | undone {change : DeviceChange} {s t : Store} {job : Int} (obeys : v.Obeys a change s)
    (due : inCalendar (o.later minutes).wall = true)
    (queued : s.enqueue revertQueue (Revert.of a change minutes o).toDoc JobRank.high.name
      = .ok (job, t)) :
    Course a minutes o v (.ok (.device change (some job))) t
  | stranded {change : DeviceChange} {s : Store} {f : Fault} (obeys : v.Obeys a change s)
    (late : inCalendar (o.later minutes).wall = false)
    (fault : Revert.after a change minutes o = .error f) :
    Course a minutes o v (.error f) s

theorem undoing_timed (timed : a.duration = some minutes) (o : Occasion) (change : DeviceChange) :
    undoing a o change = (do
      let revert ← Work.ofExcept (Revert.after a change minutes o)
      let job ← Work.store .enqueue fun s => s.enqueue revertQueue revert.toDoc JobRank.high.name
      pure (.device change (some job))) := by
  unfold undoing
  rw [timed]

/-- The job that undoes a command is queued where it can be made. The job is a variable here, so
that no arithmetic on times is unfolded. -/
theorem run_queued (accepts : (v.consult .enqueue).1 = none) {revert : Except Fault Revert}
    {change : DeviceChange} {r : Except Fault Effect} (run : (do
      let revert ← Work.ofExcept revert
      let job ← Work.store .enqueue fun s => s.enqueue revertQueue revert.toDoc JobRank.high.name
      pure (.device change (some job)) : Work Effect).run.run v = (r, w)) :
    (∃ f, revert = .error f ∧ r = .error f ∧ w.store = v.store) ∨
      ∃ q job, revert = .ok q ∧ r = .ok (.device change (some job)) ∧
        v.store.enqueue revertQueue q.toDoc JobRank.high.name = .ok (job, w.store) := by
  cases revert with
  | error f =>
    obtain ⟨rfl, rfl⟩ := Prod.mk.inj run
    exact .inl ⟨f, rfl, rfl, rfl⟩
  | ok q =>
    rw [Work.run_bind, Work.run_ofExcept] at run
    simp only [Work.run_store_pure] at run
    rcases v.callStore_cases .enqueue (·.enqueue revertQueue q.toDoc JobRank.high.name) with
      ⟨job, t, -, ht, hresult, _, hworld⟩ | ⟨-, -, refused⟩
    · rw [hresult, hworld] at run
      obtain ⟨rfl, rfl⟩ := Prod.mk.inj run
      exact .inr ⟨q, job, rfl, rfl, ht⟩
    · obtain ⟨e, he⟩ := refused accepts
      cases he

/-- Where the queue accepts jobs, a command that is carried out is undone or stranded, by the
time at which its job would be due. -/
theorem course_promptly (timed : a.duration = some minutes) (now : inCalendar o.now.wall = true)
    (accepts : (v.consult .enqueue).1 = none) {r : Except Fault Effect}
    (run : (promptly (.device a) o).run.run v = (r, w)) : Course a minutes o v r w.store := by
  unfold promptly at run
  rw [Work.run_bind, Work.run_store] at run
  by_cases hobeys : ∃ change s, v.Obeys a change s
  · obtain ⟨change, s, hobeys⟩ := hobeys
    obtain ⟨u, hcall, rfl, haccepts⟩ := World.callStore_of_obeys hobeys
    rw [hcall] at run
    simp only [undoing_timed timed] at run
    rcases run_queued (haccepts.trans accepts) run with
      ⟨f, hrevert, rfl, hstore⟩ | ⟨q, job, hrevert, rfl, hqueued⟩
    · rw [hstore]
      exact .stranded hobeys (Revert.after_eq_error now hrevert) hrevert
    · obtain ⟨hdue, rfl⟩ := Revert.after_eq_of hrevert
      exact .undone hobeys hdue hqueued
  · have hrefuses : ∀ change s, ¬ v.Obeys a change s := fun change s h => hobeys ⟨change, s, h⟩
    obtain ⟨f, t, hcall⟩ := World.callStore_of_not_obeys hrefuses
    rw [hcall] at run
    obtain ⟨rfl, rfl⟩ := Prod.mk.inj run
    exact .refused hrefuses

namespace Course

variable {r : Except Fault Effect} {t : Store}

/-- Whether the calendar has the time at which the command is to be undone tells whether the
course of a command is one of the two that leave nothing half done. -/
theorem whole_iff (course : Course a minutes o v r t) (result : x.result = r.mapError Fault.record)
    (store : w.store = t) : (x.Spared v w ∨ x.Reverted a minutes o v w ↔ v.Undoable a minutes o) ∧
      (¬ v.Undoable a minutes o → x.Stranded a minutes o v w) := by
  cases course with
  | refused refuses =>
    have hspared : x.Spared v w :=
      ⟨by rw [Outcome.succeeded, result]; rfl, by rw [store], by rw [store]⟩
    have hundoable : v.Undoable a minutes o := fun change s h => absurd h (refuses change s)
    exact ⟨iff_of_true (.inl hspared) hundoable, fun h => absurd hundoable h⟩
  | @undone change s t job obeys due queued =>
    have hjobs := Store.jobs_of_command obeys.2
    have hreverted : x.Reverted a minutes o v w := by
      refine ⟨change, s, job, obeys, result, ?_⟩
      cases queued
      exact ⟨by rw [store, hjobs], fun j hj =>
        Int.ne_of_lt (Store.lt_nextId (List.mem_map_of_mem (hjobs ▸ hj)))⟩
    have hundoable : v.Undoable a minutes o := fun _ _ _ => .inr due
    exact ⟨iff_of_true (.inr hreverted) hundoable, fun h => absurd hundoable h⟩
  | @stranded change s f obeys late fault =>
    have hjobs := Store.jobs_of_command obeys.2
    have hfailed : x.succeeded = false := by rw [Outcome.succeeded, result]; rfl
    by_cases hdevices : t.devices = v.store.devices
    · have hundoable : v.Undoable a minutes o := fun _ _ h =>
        .inl ((Prod.mk.inj (Except.ok.inj (h.2.symm.trans obeys.2))).2 ▸ hdevices)
      exact ⟨iff_of_true (.inl ⟨hfailed, by rw [store, hdevices], by rw [store, hjobs]⟩) hundoable,
        fun h => absurd hundoable h⟩
    · have hstranded : x.Stranded a minutes o v w :=
        ⟨change, f, store ▸ obeys, by rw [store]; exact hdevices, by rw [store, hjobs], fault,
          result⟩
      have hnot : ¬ v.Undoable a minutes o := fun h =>
        (h change t obeys).elim hdevices fun due => Bool.noConfusion (late.symm.trans due)
      exact ⟨iff_of_false (not_or.2 ⟨hstranded.not_spared, hstranded.not_reverted⟩) hnot,
        fun _ => hstranded⟩

end Course

end Dispatch

open Dispatch

/-- **A timed command is undone where the calendar lets it.** A command that is to be undone
after some minutes is dispatched, in time and with a queue that accepts jobs, and nothing else
arrives meanwhile. Then the action fails with devices and jobs as they were, or the command is
carried out and one job is queued that undoes it, due so many minutes after the occasion, whose
number is in the outcome; except where the command changes a device and its job would be due
after the calendar. There the device stays as the command has left it, no job is queued, and
the outcome tells what the reckoning of the time has failed with. -/
theorem whole_iff_due {i : Nat} {a : DeviceAction} {o : Occasion} {v w : World} {x : Outcome}
    {minutes : Nat} (timed : a.duration = some minutes) (now : inCalendar o.now.wall = true)
    (accepts : (v.consult .enqueue).1 = none) (run : (tryOne i (.device a) o).run v = (x, w))
    (timely : ¬ x.TimedOut) (aloft : ∀ f ∈ v.flights, w.elapsed < f.due) :
    (x.Spared v w ∨ x.Reverted a minutes o v w ↔ v.Undoable a minutes o) ∧
      (¬ v.Undoable a minutes o → x.Stranded a minutes o v w) := by
  obtain ⟨r, u, hrun, hw, hx⟩ := tryOne_prompt rfl run timely aloft
  exact (course_promptly timed now accepts hrun).whole_iff (by rw [hx]) (by rw [hw]; rfl)

/-- The first minute of the year 2026. -/
def Occasion.newYear : Occasion := .after (Calendar.daysBeforeYear 2026 * 1440)

theorem whole_iff_due_fan : ∃ x w,
    (tryOne 0 (.device .airing) .newYear).run .withFan = (x, w) ∧ x.succeeded = true ∧
    x.Reverted .airing 10 .newYear .withFan w := by
  rcases hrun : (tryOne 0 (.device .airing) .newYear).run .withFan with ⟨x, w⟩
  have hdone : ((tryOne 0 (.device .airing) .newYear).run .withFan).1.succeeded = true := by
    decide +kernel
  rw [hrun] at hdone
  have htimely : ¬ x.TimedOut := fun ⟨_, h⟩ => by
    rw [Outcome.succeeded, h] at hdone
    cases hdone
  have hundoable : World.withFan.Undoable .airing 10 .newYear := fun _ _ _ =>
    .inr (by decide +kernel)
  have hwhole := (whole_iff_due rfl (by decide +kernel) rfl hrun htimely nofun).1.2 hundoable
  exact ⟨x, w, rfl, hdone, hwhole.resolve_left fun h => by rw [h.failed] at hdone; cases hdone⟩

/-- The fan switched on for longer than the calendar goes on. -/
def DeviceAction.endlessAiring : DeviceAction :=
  { DeviceAction.airing with duration := some 10000000000 }

/-- A fan that is off is switched on for longer than the calendar goes on: the action fails, the
fan is on, and no job is queued. -/
theorem endless_airing_leaves_fan_on : ∃ x w,
    (tryOne 0 (.device .endlessAiring) .newYear).run .withFan = (x, w) ∧
    Outcome.complaint? [x] = some "#0 device_control: date value out of range" ∧
    World.withFan.status? "fan" = some "off" ∧ w.status? "fan" = some "on" ∧
    w.store.jobs.length = 0 :=
  ⟨_, _, rfl, by decide +kernel, rfl, by decide +kernel, by decide +kernel⟩

end Glasshouse
