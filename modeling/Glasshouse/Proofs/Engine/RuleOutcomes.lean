/-
Glasshouse.Proofs.Engine.RuleOutcomes — what a rule comes to whose actions are commands and jobs:
the report on it, its commands, its jobs and what is noted with it
(`World.ruleOutcome`). All of it depends on what the rule can see
(`World.SameViewFor`), and looking at rules, one after the other, gives each of them
the outcome that it has by itself. Main statement: `processAll_ruleOutcomes`.

Side conditions of the main statement. Calls fail, if they do, in the same way every
time; no action is given up and no command arrives that was given up before; and no
rule commands a device that a later one reads or commands.
-/
import Glasshouse.Proofs.Engine.Cascade
import Glasshouse.Proofs.Dispatch.CommandsAndJobs

namespace Glasshouse

open Calendar Plan World

/-! ## Without numbers -/

/-- An execution without the numbers of jobs. -/
def Execution.unnumbered (x : Execution) : Execution :=
  { x with actions := x.actions.map Doc.unnumbered }

/-- A report without the numbers of jobs. -/
def Report.unnumbered : Report → Report
  | .notMatched id e => .notMatched id e
  | .suppressed x => .suppressed x.unnumbered
  | .triggered x noted => .triggered x.unnumbered noted
  | .failed x => .failed x.unnumbered

/-- A stored execution without its number and the numbers of jobs. -/
def ExecutionRow.unnumbered (r : ExecutionRow) : ExecutionRow :=
  { r with
    id := 0
    actions := match r.actions with
      | .list ds => .list (ds.map Doc.unnumbered)
      | d => d }

theorem Outcome.complaint?_unnumbered (xs : List Outcome) :
    complaint? (xs.map unnumbered) = complaint? xs := by
  have hparts : ∀ f : Outcome → Option String, (∀ o, f o.unnumbered = f o) →
      (xs.map unnumbered).filterMap f = xs.filterMap f := by
    intro f hf
    rw [List.filterMap_map]
    exact congrArg (fun g => xs.filterMap g) (funext hf)
  unfold complaint?
  rw [hparts]
  rintro ⟨index, kind, result | effect⟩
  · rfl
  · rfl

theorem Outcome.all_succeeded_unnumbered (xs : List Outcome) :
    (xs.map unnumbered).all succeeded = xs.all succeeded := by
  rw [List.all_map]
  simp only [Function.comp_def, succeeded_unnumbered]

theorem Engine.unnumbered_tried (rule : Rule) (now : Moment) (e : Evaluation) (s : Snapshot)
    (xs : List Outcome) :
    (tried rule now e s xs).unnumbered = tried rule now e s (xs.map Outcome.unnumbered) := by
  unfold tried Execution.unnumbered
  simp only [Outcome.all_succeeded_unnumbered, Outcome.complaint?_unnumbered, List.map_map,
    Function.comp_def, Outcome.unnumbered_toDoc]

/-! ## What is written -/

/-- The row of an execution, if it can be written, without its number. -/
def Execution.row? (x : Execution) : Option ExecutionRow :=
  match x.triggeredAt.toInstant, x.wholeTime? with
  | .ok i, some time =>
    if Store.fits x.ruleId && Store.fits time then some (x.row 0 i) else none
  | _, _ => none

theorem Execution.unnumbered_row (x : Execution) (n : Int) (i : Instant) :
    (x.row n i).unnumbered = x.unnumbered.row 0 i := rfl

theorem Execution.row?_unnumbered (x : Execution) :
    x.unnumbered.row? = x.row?.map ExecutionRow.unnumbered := by
  unfold row?
  rw [show x.unnumbered.triggeredAt = x.triggeredAt from rfl,
    show x.unnumbered.wholeTime? = x.wholeTime? from rfl,
    show x.unnumbered.ruleId = x.ruleId from rfl]
  cases x.triggeredAt.toInstant with
  | error e => rfl
  | ok i =>
    cases x.wholeTime? with
    | none => rfl
    | some time =>
      simp only
      split
      · exact congrArg some (x.unnumbered_row 0 i).symm
      · rfl

namespace Store

/-- Whether an execution can be written does not depend on what is stored. -/
theorem recordExecution_cases (s : Store) (x : Execution) :
    (x.row? = none ∧ ∃ f, s.recordExecution x = .error f) ∨
      ∃ n i, x.row? = some (x.row 0 i) ∧
        s.recordExecution x = .ok (n, { s with executions := s.executions ++ [x.row n i] }) := by
  unfold recordExecution Execution.row? instantOf
  cases x.triggeredAt.toInstant with
  | error f => exact .inl ⟨rfl, f, rfl⟩
  | ok i =>
    cases htime : x.wholeTime? with
    | none => exact .inl ⟨rfl, _, rfl⟩
    | some time =>
      cases hfits : (fits x.ruleId && fits time) with
      | false =>
        refine .inl ⟨by simp [hfits], .integerTooLarge, ?_⟩
        have hrequire : requireFits [x.ruleId, time] = .error .integerTooLarge := by
          unfold requireFits
          rw [if_neg (by simp [hfits])]
        simp only [hrequire]
        rfl
      | true =>
        refine .inr ⟨nextId (s.executions.map (·.id)), i, by simp [hfits], ?_⟩
        have hrequire : requireFits [x.ruleId, time] = .ok () :=
          requireFits_eq_ok.2 (by simpa using hfits)
        simp only [hrequire, Execution.row, htime, Option.getD_some]
        rfl

/-- Whether a trigger can be noted depends on the count of its rule alone. -/
theorem noteTrigger_congr {s t : Store} {id : Int} {time : Moment} {n : Int}
    (h : (s.rule? id).map (·.triggerCount) = (t.rule? id).map (·.triggerCount)) :
    (s.noteTrigger id time n).toOption.isSome = (t.noteTrigger id time n).toOption.isSome := by
  unfold noteTrigger
  cases instantOf time with
  | error f => rfl
  | ok i =>
    cases requireFits [id] with
    | error f => rfl
    | ok _ =>
      cases hs : s.rule? id with
      | none =>
        rw [hs] at h
        cases ht : t.rule? id with
        | none => rfl
        | some r =>
          rw [ht] at h
          cases h
      | some r =>
        rw [hs] at h
        cases ht : t.rule? id with
        | none =>
          rw [ht] at h
          cases h
        | some q =>
          rw [ht] at h
          have hcount : r.triggerCount = q.triggerCount := Option.some.inj h
          simp only [hcount]
          by_cases hlt : q.triggerCount < n
          · simp only [if_pos hlt]
            cases requireFits [n] <;> rfl
          · simp only [if_neg hlt]
            rfl

end Store

/-! ## What a rule comes to -/

/-- An execution as it is written, if it is, without numbers. -/
def Execution.kept (gate : Contact → Option Fault) (x : Execution) : List ExecutionRow :=
  if (gate .recordExecution).isNone then x.row?.toList else []

/-- What is written about a rule that was looked at, without numbers. -/
def Report.kept (gate : Contact → Option Fault) (r : Report) : List ExecutionRow :=
  match r.execution? with
  | some x => x.kept gate
  | none => []

/-- What a rule comes to when it is looked at: the report on it, the actions that are tried,
the jobs that they queue, and the time and the count that are noted with it. -/
structure RuleOutcome where
  rule : Int
  report : Report
  actions : List Action
  jobs : List JobRow
  note : Option (Instant × Int)

/-- The row of a rule with a note. -/
def RuleRow.noting (id : Int) (note : Option (Instant × Int)) (row : RuleRow) : RuleRow :=
  match note with
  | some (i, n) => if row.id == id then row.noted i n else row
  | none => row

@[simp] theorem RuleRow.id_noting (id : Int) (note : Option (Instant × Int)) (row : RuleRow) :
    (row.noting id note).id = row.id := by
  unfold noting
  split
  · split
    · rfl
    · rfl
  · rfl

theorem RuleRow.noting_of_ne {id : Int} {row : RuleRow} (h : row.id ≠ id)
    (note : Option (Instant × Int)) : row.noting id note = row := by
  unfold noting
  split
  · simp [h]
  · rfl

namespace World

/-- What is noted with a rule that was triggered, if it can be. -/
def note? (w : World) (id : Int) (time : Moment) (n : Nat) : Option (Instant × Int) :=
  if (w.gate .noteTrigger).isNone && (w.store.noteTrigger id time n).toOption.isSome then
    some (time.instant, n)
  else none

/-- What can be noted with a rule depends on its count and on whether the call fails. -/
theorem note?_congr {v w : World} {id : Int} {time : Moment} {n : Nat}
    (outages : v.outages = w.outages)
    (count : (v.store.rule? id).map (·.triggerCount) = (w.store.rule? id).map (·.triggerCount)) :
    v.note? id time n = w.note? id time n := by
  unfold note? gate
  rw [outages, Store.noteTrigger_congr count]

/-- What a rule comes to whose actions are tried. -/
def trying (now : Moment) (w : World) (rule : Rule) (e : Evaluation) (s : Snapshot) : RuleOutcome :=
  let (xs, js) := Dispatch.outcomesOf w.gate ⟨rule.id, rule.name, now, some s⟩ 0 rule.actions
    w.store.device?
  if xs.all Outcome.succeeded then
    match w.memory.cooldowns.mark rule.id now with
    | .ok ((time, n), _) =>
      ⟨rule.id, .triggered (Engine.tried rule now e s xs) (w.note? rule.id time n).isSome,
        rule.actions, js, w.note? rule.id time n⟩
    | .error f =>
      ⟨rule.id, .failed (Engine.stumble rule now (some (e, s)) f), rule.actions, js, none⟩
  else ⟨rule.id, .failed (Engine.tried rule now e s xs), rule.actions, js, none⟩

/-- What a rule comes to that was judged. -/
def answer (now : Moment) (w : World) (rule : Rule) (e : Evaluation) (s : Snapshot) : RuleOutcome :=
  match w.memory.cooldowns.eligible rule.id now with
  | .error f => ⟨rule.id, .failed (Engine.stumble rule now (some (e, s)) f), [], [], none⟩
  | .ok false =>
    match w.memory.cooldowns.remaining rule.id now with
    | .error f => ⟨rule.id, .failed (Engine.stumble rule now (some (e, s)) f), [], [], none⟩
    | .ok _ =>
      ⟨rule.id, .suppressed { Engine.execution rule now e s with suppressed := true }, [], [], none⟩
  | .ok true =>
    match w.gate .dispatch with
    | some f => ⟨rule.id, .failed (Engine.stumble rule now (some (e, s)) f), [], [], none⟩
    | none => w.trying now rule e s

/-- What a rule comes to in a tick, where calls fail in the same way every time and its
actions are over in time. -/
def ruleOutcome (now : Moment) (w : World) (rule : Rule) : RuleOutcome :=
  match ((Engine.evaluate rule.conditions now).run.run w).1 with
  | .error f => ⟨rule.id, .failed (Engine.stumble rule now none f), [], [], none⟩
  | .ok (e, s) =>
    if e.result then w.answer now rule e s else ⟨rule.id, .notMatched rule.id e, [], [], none⟩

end World

/-! ## What becomes of the store -/

/-- What became of devices, jobs, rows and executions, the numbers of new ones aside. Nothing
else changed that rules can see. -/
structure World.Changed (g : DeviceRow → DeviceRow) (js : List JobRow) (h : RuleRow → RuleRow)
    (xs : List ExecutionRow) (v w : World) : Prop where
  zone : w.zone = v.zone
  readings : w.store.readings = v.store.readings
  outages : w.outages = v.outages
  flights : w.flights = v.flights
  devices : w.store.devices = v.store.devices.map g
  rules : w.store.rules = v.store.rules.map h
  jobs : ∃ ks, w.store.jobs = v.store.jobs ++ ks ∧ ks.map JobRow.unnumbered = js
  executions : ∃ ys, w.store.executions = v.store.executions ++ ys ∧
    ys.map ExecutionRow.unnumbered = xs

namespace World.Changed

variable {g g' : DeviceRow → DeviceRow} {js js' : List JobRow} {h h' : RuleRow → RuleRow}
  {xs xs' : List ExecutionRow} {u v w : World}

/-- Nothing became of anything that is stored. -/
theorem still (zone : w.zone = v.zone) (store : w.store = v.store) (outages : w.outages = v.outages)
    (flights : w.flights = v.flights) : Changed id [] id [] v w :=
  ⟨zone, by rw [store], outages, flights, by rw [store, List.map_id], by rw [store, List.map_id],
    ⟨[], by rw [store, List.append_nil], rfl⟩, ⟨[], by rw [store, List.append_nil], rfl⟩⟩

/-- What changes nothing that is stored does not count. -/
theorem after (a : Changed g js h xs u v) (zone : w.zone = v.zone) (store : w.store = v.store)
    (outages : w.outages = v.outages) (flights : w.flights = v.flights) : Changed g js h xs u w :=
  ⟨zone.trans a.zone, store ▸ a.readings, outages.trans a.outages, flights.trans a.flights,
    store ▸ a.devices, store ▸ a.rules, store ▸ a.jobs, store ▸ a.executions⟩

protected theorem trans (a : Changed g js h xs u v) (b : Changed g' js' h' xs' v w) :
    Changed (g' ∘ g) (js ++ js') (h' ∘ h) (xs ++ xs') u w := by
  obtain ⟨ks, hks, rfl⟩ := a.jobs
  obtain ⟨ks', hks', rfl⟩ := b.jobs
  obtain ⟨ys, hys, rfl⟩ := a.executions
  obtain ⟨ys', hys', rfl⟩ := b.executions
  refine ⟨b.zone.trans a.zone, b.readings.trans a.readings, b.outages.trans a.outages,
    b.flights.trans a.flights, ?_, ?_, ⟨ks ++ ks', ?_, List.map_append⟩,
    ⟨ys ++ ys', ?_, List.map_append⟩⟩
  · rw [b.devices, a.devices, List.map_map]
  · rw [b.rules, a.rules, List.map_map]
  · rw [hks', hks, List.append_assoc]
  · rw [hys', hys, List.append_assoc]

theorem uniform (a : Changed g js h xs v w) (uniform : v.Uniform) : w.Uniform :=
  fun c s hs => uniform c s (a.outages ▸ hs)

theorem gate (a : Changed g js h xs v w) : w.gate = v.gate := by
  funext c
  rw [World.gate, World.gate, a.outages]

theorem device? (a : Changed g js h xs v w) (hg : ∀ d, (g d).id = d.id) (id : String) :
    w.store.device? id = (v.store.device? id).map g := by
  rw [Store.device?, a.devices, List.find?_map]
  refine congrArg (Option.map g) (congrArg (fun p => v.store.devices.find? p) (funext fun d => ?_))
  rw [Function.comp_apply, hg]

theorem rule? (a : Changed g js h xs v w) (hh : ∀ r, (h r).id = r.id) (id : Int) :
    w.store.rule? id = (v.store.rule? id).map h := by
  rw [Store.rule?, a.rules, List.find?_map]
  refine congrArg (Option.map h) (congrArg (fun p => v.store.rules.find? p) (funext fun r => ?_))
  rw [Function.comp_apply, hh]

end World.Changed

/-- The changes to a world that the outcome of a rule stands for. -/
abbrev World.ChangedBy (d : RuleOutcome) (v w : World) : Prop :=
  Changed (Dispatch.upon v.gate d.actions) d.jobs (RuleRow.noting d.rule d.note)
    (d.report.kept v.gate) v w

namespace Engine

variable {v w : World}

/-- A record where calls fail in the same way every time. -/
theorem keep_uniform {α : Type} (uniform : v.Uniform) (c : Contact)
    (f : Store → Except Fault (α × Store)) :
    (keep (Work.store c f)).run v = match v.gate c, f v.store with
      | none, .ok (a, s) => (some a, { v with store := s })
      | _, _ => (none, v.lose) := by
  rw [run_keep, Work.run_store, uniform.callStore]
  cases v.gate c with
  | some e => rfl
  | none =>
    cases f v.store with
    | ok p => rfl
    | error e => rfl

theorem record_changed (uniform : v.Uniform) (x : Execution) :
    Changed id [] id (x.unnumbered.kept v.gate) v ((record x).run v).2 := by
  unfold record Execution.kept
  rw [keep_uniform uniform]
  cases v.gate .recordExecution with
  | some e => exact .still rfl rfl rfl rfl
  | none =>
    rw [Execution.row?_unnumbered]
    rcases v.store.recordExecution_cases x with ⟨hrow, f, hf⟩ | ⟨n, i, hrow, hok⟩
    · rw [hf, hrow]
      exact .still rfl rfl rfl rfl
    · rw [hok, hrow]
      exact ⟨rfl, rfl, rfl, rfl, (List.map_id _).symm, (List.map_id _).symm,
        ⟨[], (List.append_nil _).symm, rfl⟩, ⟨[x.row n i], rfl, rfl⟩⟩

/-- A record adds to what became of the store. -/
theorem changed_recorded {g : DeviceRow → DeviceRow} {js : List JobRow} {h : RuleRow → RuleRow}
    {xs : List ExecutionRow} (a : Changed g js h xs v w) (uniform : v.Uniform) (x : Execution) :
    Changed g js h (xs ++ x.unnumbered.kept v.gate) v ((record x).run w).2 := by
  have hboth := a.trans (record_changed (a.uniform uniform) x)
  rw [a.gate, List.append_nil] at hboth
  exact hboth

/-- A note that can be taken is, and the others are lost. -/
theorem noteTrigger_changed (uniform : v.Uniform) (k : Int) (time : Moment) (n : Nat) :
    ((noteTrigger k time n).run v).1.isSome = (v.note? k time n).isSome ∧
      Changed id [] (RuleRow.noting k (v.note? k time n)) [] v
        ((noteTrigger k time n).run v).2 := by
  unfold noteTrigger World.note?
  rw [keep_uniform uniform]
  cases v.gate .noteTrigger with
  | some e => exact ⟨rfl, .still rfl rfl rfl rfl⟩
  | none =>
    cases hnote : v.store.noteTrigger k time n with
    | error f => exact ⟨rfl, .still rfl rfl rfl rfl⟩
    | ok p =>
      obtain ⟨i, hi, hs⟩ := Store.noteTrigger_eq_ok hnote
      obtain ⟨-, rfl⟩ := Moment.toInstant_eq_ok.1 hi
      refine ⟨rfl, ?_⟩
      show Changed id [] (RuleRow.noting k (some (time.instant, (n : Int)))) [] v
        { v with store := p.2 }
      rw [hs]
      exact ⟨rfl, rfl, rfl, rfl, (List.map_id _).symm, rfl, ⟨[], (List.append_nil _).symm, rfl⟩,
        ⟨[], (List.append_nil _).symm, rfl⟩⟩

/-- The mark of a trigger changes the row of its rule alone. -/
theorem markTriggered_changed (uniform : v.Uniform) (rule : Rule) {now time : Moment} {n : Nat}
    {c : Cooldown} (mark : v.memory.cooldowns.mark rule.id now = .ok ((time, n), c)) :
    ∃ w, (markTriggered rule now).run.run v = (.ok (v.note? rule.id time n).isSome, w) ∧
      Changed id [] (RuleRow.noting rule.id (v.note? rule.id time n)) [] v w := by
  have htracked : Changed id [] id [] v (v.track c) := .still rfl rfl rfl rfl
  obtain ⟨hnoted, hchanged⟩ := noteTrigger_changed (htracked.uniform uniform) rule.id time n
  rw [show (v.track c).note? rule.id time n = v.note? rule.id time n from rfl] at hnoted hchanged
  refine ⟨((noteTrigger rule.id time n).run (v.track c)).2.countTriggered, ?_,
    (htracked.trans hchanged).after rfl rfl rfl rfl⟩
  unfold markTriggered
  simp only [Work.run_bind, Work.run_mk, run_change, mark, Work.run_lift, run_count, Work.run_pure]
  exact Prod.ext (congrArg Except.ok hnoted) rfl

/-- Time changes nothing about how calls fail. -/
theorem outages_elapse (d : Duration) (w : World) : (w.elapse d).outages = w.outages := by
  obtain ⟨a, o, ho⟩ := distant_elapse d w.outskirts
  have hw : ((), w.elapse d) = (a, ofParts w.interior (o.failing w.outages)) :=
    ho w.interior w.outages
  rw [(Prod.mk.inj hw).2]
  rfl

/-- Calls that fail in the same way every time go on doing so. -/
theorem working_steady : Working (fun _ => True)
    (fun v w => v.Uniform → w.outages = v.outages) := by
  have hstore : ∀ {α : Type} (c : Contact) (f : Store → Except Fault (α × Store)) (w : World),
      w.Uniform → (w.callStore c f).2.outages = w.outages := by
    intro α c f w uniform
    rw [uniform.callStore]
    cases w.gate c with
    | some e => rfl
    | none =>
      cases f w.store with
      | ok p => rfl
      | error e => rfl
  exact {
    refl := fun w _ => rfl
    setWire := fun l x w _ => by cases l <;> rfl
    sent := fun d w _ => rfl
    enqueue := fun queue payload rank w => hstore _ _ w
    takeOff := fun device command value w uniform => by
      unfold Dispatch.takeOff
      rw [uniform.consult]
    memory := fun m w _ => rfl
    channel := fun c w _ => rfl
    record := fun x _ w => hstore _ _ w
    note := fun id t n w => hstore _ _ w
    consult := fun c w uniform => by rw [uniform.consult] }

/-- Judging conditions changes nothing where calls fail in the same way every time. -/
theorem evaluate_uniform (uniform : v.Uniform) (c : Condition) (now : Moment) :
    (evaluate c now).run.run v = (((evaluate c now).run.run v).1, v) := by
  obtain ⟨t, ht⟩ := Work.Reads.evaluate c now v
  have hsteady := Along.run (T := fun v w : World => v.Uniform → w.outages = v.outages)
    (fun _ _ => rfl)
    (fun h k uniform => (k fun c s hs => uniform c s (h uniform ▸ hs)).trans (h uniform))
    (fun d w _ => outages_elapse d w) id (along_evaluate working_steady c now) v uniform
  rw [ht] at hsteady
  obtain rfl : t = v.outages := hsteady
  exact Prod.ext rfl ht

variable {rule : Rule} {now : Moment} {e : Evaluation} {s : Snapshot} {r : Report}

/-- Actions that are not given up come to what they come to, and touch neither the tracker nor
what can be noted. -/
theorem tries_changed (uniform : v.Uniform) (domestic : ∀ a ∈ rule.actions, a.domestic = true)
    {xs : List Outcome}
    (run : (Dispatch.tryFrom 0 ⟨rule.id, rule.name, now, some s⟩ rule.actions).run v = (xs, w))
    (timely : ∀ o ∈ xs, ¬ o.TimedOut) (aloft : ∀ f ∈ v.flights, w.elapsed < f.due) :
    ∃ js, (xs.map Outcome.unnumbered, js) = Dispatch.outcomesOf v.gate
        ⟨rule.id, rule.name, now, some s⟩ 0 rule.actions v.store.device? ∧
      Changed (Dispatch.upon v.gate rule.actions) js id [] v w ∧
      w.memory.cooldowns = v.memory.cooldowns ∧
      ∀ time n, w.note? rule.id time n = v.note? rule.id time n := by
  obtain ⟨js, houtcomes, hw⟩ := Dispatch.tryFrom_outcomesOf uniform domestic run timely aloft
  refine ⟨js.map JobRow.unnumbered, houtcomes, ?_, ?_, fun time n => note?_congr ?_ ?_⟩
  · rw [hw]
    exact ⟨rfl, rfl, rfl, rfl, rfl, (List.map_id _).symm, ⟨js, rfl, rfl⟩,
      ⟨[], (List.append_nil _).symm, rfl⟩⟩
  · rw [hw]
    rfl
  · rw [hw]
    rfl
  · rw [hw]
    rfl

/-- A rule that may fire comes to what trying its actions comes to. -/
theorem fire_changedBy (uniform : v.Uniform) (domestic : ∀ a ∈ rule.actions, a.domestic = true)
    (open' : v.gate .dispatch = none)
    (eligible : v.memory.cooldowns.eligible rule.id now = .ok true) {x : Except Fault Report}
    (run : (fire rule now e s).run.run v = (x, w)) (timely : ∀ r, x = .ok r → r.Timely)
    (aloft : ∀ f ∈ v.flights, w.elapsed < f.due) :
    ∃ r, x = .ok r ∧ r.unnumbered = (v.trying now rule e s).report ∧
      v.ChangedBy (v.trying now rule e s) w := by
  rcases fire_tries eligible run with
    ⟨f, hc, -⟩ | ⟨u, xs, u', r, y, hc, htried, rfl, hy, hactions, -, hpasses⟩
  · rw [uniform.consult, open'] at hc
    cases congrArg Prod.fst hc
  · obtain rfl : v = u := by
      rw [uniform.consult] at hc
      exact congrArg Prod.snd hc
    obtain ⟨js, houtcomes, hserved, hcooldowns, hnote⟩ := tries_changed uniform domestic htried
      (fun o ho hout => timely r rfl y hy o hout (hactions ▸ List.mem_map_of_mem ho))
      fun f hf => Nat.lt_of_le_of_lt hpasses.elapsed (aloft f hf)
    have hrun : (Dispatch.run rule.actions ⟨rule.id, rule.name, now, some s⟩).run.run v
        = (.ok xs, u') := by
      rw [dispatch_run, hc]
      simp only [htried]
    unfold World.trying
    rw [← houtcomes]
    simp only [Outcome.all_succeeded_unnumbered]
    cases hs : xs.all Outcome.succeeded with
    | true =>
      obtain ⟨time, k, c, hmark⟩ := mark_of_eligible eligible
      obtain ⟨z, hz, hmarked⟩ := markTriggered_changed (hserved.uniform uniform) rule
        (hcooldowns.symm ▸ hmark : u'.memory.cooldowns.mark rule.id now = _)
      rw [hnote] at hmarked hz
      cases run.symm.trans (fire_of_success hrun hs hz)
      have hall := changed_recorded (hserved.trans hmarked) uniform (tried rule now e s xs)
      rw [List.append_nil, unnumbered_tried] at hall
      simp only [if_true, hmark]
      exact ⟨_, rfl, congrArg (Report.triggered · _) (unnumbered_tried ..),
        hall.after rfl rfl rfl rfl⟩
    | false =>
      cases run.symm.trans (fire_of_failure hrun hs)
      have hcounted : Changed (Dispatch.upon v.gate rule.actions) js id [] v u'.countFailed :=
        hserved.after rfl rfl rfl rfl
      have hall := changed_recorded hcounted uniform (tried rule now e s xs)
      rw [unnumbered_tried] at hall
      simp only [Bool.false_eq_true, if_false]
      exact ⟨_, rfl, congrArg Report.failed (unnumbered_tried ..), hall.after rfl rfl rfl rfl⟩

/-- A fault comes to its record. -/
theorem recordFault_changedBy (uniform : v.Uniform) (rule : Rule) (now : Moment)
    (judged : Option (Evaluation × Snapshot)) (f : Fault) :
    ∃ w, (recordFault rule now judged f).run v = (.failed (stumble rule now judged f), w) ∧
      v.ChangedBy ⟨rule.id, .failed (stumble rule now judged f), [], [], none⟩ w := by
  have hcounted : Changed id [] id [] v v.countFailed := .still rfl rfl rfl rfl
  refine ⟨((record (stumble rule now judged f)).run v.countFailed).2, ?_,
    changed_recorded hcounted uniform (stumble rule now judged f)⟩
  unfold recordFault
  simp only [run_bind', run_count, run_pure]
  rfl

/-- A rule that may fire comes to what firing comes to, and one that is cooling down to a record
that says so. -/
theorem respond_changedBy (uniform : v.Uniform) (domestic : ∀ a ∈ rule.actions, a.domestic = true)
    {x : Except Fault Report} (run : (respond rule now false e s).run.run v = (x, w))
    (timely : ∀ r, x = .ok r → r.Timely) (aloft : ∀ f ∈ v.flights, w.elapsed < f.due) :
    (∃ r, x = .ok r ∧ r.unnumbered = (v.answer now rule e s).report ∧
      v.ChangedBy (v.answer now rule e s) w) ∨
    ∃ f, x = .error f ∧ Changed id [] id [] v w ∧ v.answer now rule e s
      = ⟨rule.id, .failed (stumble rule now (some (e, s)) f), [], [], none⟩ := by
  rw [respond_run] at run
  unfold World.answer
  rcases hmay : v.memory.cooldowns.eligible rule.id now with f | _ | _
  · rw [hmay] at run
    cases run
    exact .inr ⟨f, rfl, .still rfl rfl rfl rfl, rfl⟩
  · rw [hmay] at run
    simp only at run ⊢
    unfold suppress at run
    simp only [Work.run_bind, Work.run_lift, run_count, run_look, Work.run_ofExcept] at run
    cases hleft : v.memory.cooldowns.remaining rule.id now with
    | error f =>
      rw [hleft] at run
      cases run
      exact .inr ⟨f, rfl, .still rfl rfl rfl rfl, rfl⟩
    | ok left =>
      rw [hleft] at run
      cases run
      have hcounted : Changed id [] id [] v v.countSuppressed := .still rfl rfl rfl rfl
      exact .inl ⟨_, rfl, rfl, changed_recorded hcounted uniform
        { execution rule now e s with suppressed := true }⟩
  · rw [hmay] at run
    cases hopen : v.gate .dispatch with
    | none => exact .inl (fire_changedBy uniform domestic hopen hmay run timely aloft)
    | some f =>
      simp only at run ⊢
      have hd := dispatch_run rule.actions ⟨rule.id, rule.name, now, some s⟩ v
      rw [uniform.consult, hopen] at hd
      cases run.symm.trans (fire_of_fault hd)
      exact .inr ⟨f, rfl, .still rfl rfl rfl rfl, rfl⟩

/-- A rule that is looked at has the outcome that it has by itself. -/
theorem processRule_changedBy (uniform : v.Uniform)
    (domestic : ∀ a ∈ rule.actions, a.domestic = true)
    (run : (processRule rule now false false).run v = (r, w)) (timely : r.Timely)
    (aloft : ∀ f ∈ v.flights, w.elapsed < f.due) :
    r.unnumbered = (v.ruleOutcome now rule).report ∧ v.ChangedBy (v.ruleOutcome now rule) w := by
  have hlooked : Changed id [] id [] v v.looked := .still rfl rfl rfl rfl
  have hjudged := evaluate_uniform (hlooked.uniform uniform) rule.conditions now
  rw [(preserves_evaluate (answersAlike_sameView _) now v.looked v
    ⟨rfl, rfl, rfl, fun _ _ => rfl⟩).1] at hjudged
  unfold World.ruleOutcome
  generalize ((evaluate rule.conditions now).run.run v).1 = x at hjudged ⊢
  cases processRule_processed run with
  | @unjudged f _ _ _ judged record =>
    cases judged.symm.trans hjudged
    obtain ⟨z, hz, hchanged⟩ := recordFault_changedBy (hlooked.uniform uniform) rule now none f
    cases hz.symm.trans record
    exact ⟨rfl, hlooked.trans hchanged⟩
  | notMatched judged hold =>
    cases judged.symm.trans hjudged
    simp only [hold, Bool.false_eq_true, if_false]
    exact ⟨rfl, hlooked⟩
  | responded judged hold respond =>
    cases judged.symm.trans hjudged
    simp only [hold.resolve_right Bool.false_ne_true, if_true]
    rcases respond_changedBy (hlooked.uniform uniform) domestic respond
        (fun _ hr => by cases hr; exact timely) aloft with
      ⟨_, hr, hreport, hchanged⟩ | ⟨_, hf, -⟩
    · cases hr
      exact ⟨hreport, hlooked.trans hchanged⟩
    · cases hf
  | @faulted e s f _ u _ _ judged hold respond record =>
    cases judged.symm.trans hjudged
    simp only [hold.resolve_right Bool.false_ne_true, if_true]
    have hlater := (along_recordFault working_atOnce.toRecording rule trivial now
      (some (e, s)) f).elapsed_le u
    rw [record] at hlater
    rcases respond_changedBy (hlooked.uniform uniform) domestic respond (fun _ hr => nomatch hr)
        (fun f hf => Nat.lt_of_le_of_lt hlater (aloft f hf)) with
      ⟨_, hr, -⟩ | ⟨_, hf, hstill, hanswer⟩
    · cases hr
    · cases hf
      obtain ⟨z, hz, hchanged⟩ :=
        recordFault_changedBy ((hlooked.trans hstill).uniform uniform) rule now
        (some (e, s)) f
      cases hz.symm.trans record
      have hgate : u.gate = v.gate := (hlooked.trans hstill).gate
      unfold World.ChangedBy at hchanged
      rw [hgate] at hchanged
      rw [show v.answer now rule e s = v.looked.answer now rule e s from rfl, hanswer]
      exact ⟨rfl, (hlooked.trans hstill).trans hchanged⟩

end Engine

/-! ## What a rule can see -/

/-- The devices that a rule commands. -/
def Rule.commands (rule : Rule) : List String := rule.actions.filterMap Action.device?

/-- No device that one rule commands is read or commanded by another. -/
def Rule.Spares (p q : Rule) : Prop :=
  ∀ id ∈ p.commands, .device id ∉ q.conditions.queries ∧ id ∉ q.commands

instance (p q : Rule) : Decidable (p.Spares q) :=
  inferInstanceAs (Decidable (∀ id ∈ p.commands, _))

/-- Two worlds that a rule cannot tell apart. -/
structure World.SameViewFor (rule : Rule) (v w : World) : Prop where
  zone : v.zone = w.zone
  readings : v.store.readings = w.store.readings
  outages : v.outages = w.outages
  device : ∀ id, .device id ∈ rule.conditions.queries ∨ id ∈ rule.commands →
    v.store.device? id = w.store.device? id
  cooldowns : Cooldown.SameAt rule.id v.memory.cooldowns w.memory.cooldowns
  count : (v.store.rule? rule.id).map (·.triggerCount)
    = (w.store.rule? rule.id).map (·.triggerCount)

theorem Cooldown.SameAt.mark_fst {id : Int} {t u : Cooldown} (h : SameAt id t u) (now : Moment) :
    (t.mark id now).map Prod.fst = (u.mark id now).map Prod.fst := by
  unfold mark
  rw [h.last, h.triggerCount]
  cases later (u.last.get? id) now with
  | error f => rfl
  | ok l => rfl

namespace World

variable {rule : Rule} {now : Moment} {u v w : World}

protected theorem SameViewFor.trans (h : SameViewFor rule u v) (k : SameViewFor rule v w) :
    SameViewFor rule u w :=
  ⟨h.zone.trans k.zone, h.readings.trans k.readings, h.outages.trans k.outages,
    fun id hid => (h.device id hid).trans (k.device id hid), h.cooldowns.trans k.cooldowns,
    h.count.trans k.count⟩

theorem SameViewFor.gate (h : SameViewFor rule v w) : v.gate = w.gate := by
  funext c
  rw [World.gate, World.gate, h.outages]

theorem SameViewFor.uniform (h : SameViewFor rule v w) (uniform : v.Uniform) : w.Uniform :=
  fun c s hs => uniform c s (h.outages ▸ hs)

/-- Conditions cannot tell such worlds apart, as long as calls fail in the same way every time. -/
theorem answersAlike_sameViewFor (rule : Rule) :
    AnswersAlike (fun id => .device id ∈ rule.conditions.queries)
    (fun v w => v.Uniform ∧ SameViewFor rule v w) where
  zone h := h.2.zone
  readings h := h.2.readings
  device h hid := h.2.device _ (.inl hid)
  consult c _ h := by
    rw [h.1.consult, (h.2.uniform h.1).consult]
    exact ⟨congrFun h.2.gate c, h⟩

/-- What trying its actions comes to depends on what a rule can see. -/
theorem SameViewFor.trying (h : SameViewFor rule v w) (now : Moment) (e : Evaluation)
    (s : Snapshot) : v.trying now rule e s = w.trying now rule e s := by
  have houtcomes : Dispatch.outcomesOf w.gate ⟨rule.id, rule.name, now, some s⟩ 0 rule.actions
        v.store.device?
      = Dispatch.outcomesOf w.gate ⟨rule.id, rule.name, now, some s⟩ 0 rule.actions
        w.store.device? :=
    Dispatch.outcomesOf_congr fun a ha id hid =>
      h.device id (.inr (List.mem_filterMap.2 ⟨a, ha, hid⟩))
  have hmark := h.cooldowns.mark_fst now
  have hnote : ∀ time n, v.note? rule.id time n = w.note? rule.id time n :=
    fun time n => note?_congr h.outages h.count
  unfold World.trying
  rw [h.gate, houtcomes]
  cases hv : v.memory.cooldowns.mark rule.id now with
  | error f =>
    cases hw : w.memory.cooldowns.mark rule.id now with
    | error g =>
      rw [hv, hw] at hmark
      cases hmark
      rfl
    | ok _ =>
      rw [hv, hw] at hmark
      cases hmark
  | ok x =>
    cases hw : w.memory.cooldowns.mark rule.id now with
    | error g =>
      rw [hv, hw] at hmark
      cases hmark
    | ok y =>
      rw [hv, hw] at hmark
      obtain ⟨⟨time, n⟩, c⟩ := x
      obtain ⟨⟨time', n'⟩, c'⟩ := y
      cases hmark
      simp only [hnote]

/-- What a rule comes to depends on what it can see. -/
theorem SameViewFor.ruleOutcome (h : SameViewFor rule v w) (uniform : v.Uniform) (now : Moment) :
    v.ruleOutcome now rule = w.ruleOutcome now rule := by
  have hjudged := (preserves_evaluate (answersAlike_sameViewFor rule) now v w ⟨uniform, h⟩).1
  unfold World.ruleOutcome
  rw [hjudged]
  rcases ((Engine.evaluate rule.conditions now).run.run w).1 with f | ⟨e, s⟩
  · rfl
  · have hanswer : v.answer now rule e s = w.answer now rule e s := by
      unfold World.answer
      rw [h.cooldowns.eligible, h.cooldowns.remaining, h.gate, h.trying]
    simp only [hanswer]

end World

/-- An outcome bears the number of its rule, and the actions that are tried are those of the rule,
or none. -/
structure RuleOutcome.Of (d : RuleOutcome) (rule : Rule) : Prop where
  ruleId : d.rule = rule.id
  actions : d.actions = [] ∨ d.actions = rule.actions

/-- An outcome leaves devices that its rule does not command. -/
theorem RuleOutcome.Of.upon {d : RuleOutcome} {rule : Rule} (h : d.Of rule)
    {gate : Contact → Option Fault}
    {x : DeviceRow} (hx : x.id ∉ rule.commands) : Dispatch.upon gate d.actions x = x := by
  refine Dispatch.upon_of_ne fun a ha hid => hx ?_
  rcases h.actions with hnone | hall
  · rw [hnone] at ha
    cases ha
  · rw [hall] at ha
    exact List.mem_filterMap.2 ⟨a, ha, hid⟩

namespace World

variable {rule : Rule} {now : Moment} {d : RuleOutcome} {u v w : World}

theorem ruleOutcome_of (now : Moment) (w : World) (rule : Rule) :
    (w.ruleOutcome now rule).Of rule := by
  have htrying : ∀ e s, (w.trying now rule e s).Of rule := by
    intro e s
    unfold World.trying
    simp only
    split
    · split
      · exact ⟨rfl, .inr rfl⟩
      · exact ⟨rfl, .inr rfl⟩
    · exact ⟨rfl, .inr rfl⟩
  have hanswer : ∀ e s, (w.answer now rule e s).Of rule := by
    intro e s
    unfold World.answer
    split
    · exact ⟨rfl, .inl rfl⟩
    · split
      · exact ⟨rfl, .inl rfl⟩
      · exact ⟨rfl, .inl rfl⟩
    · split
      · exact ⟨rfl, .inl rfl⟩
      · exact htrying e s
  unfold World.ruleOutcome
  split
  · exact ⟨rfl, .inl rfl⟩
  · split
    · exact hanswer _ _
    · exact ⟨rfl, .inl rfl⟩

/-- What another rule comes to, a rule cannot see. -/
theorem ChangedBy.sameViewFor {q : Rule} (does : v.ChangedBy d w) (of : d.Of q)
    (spares : q.Spares rule) (other : q.id ≠ rule.id)
    (same : Cooldown.SameAt rule.id w.memory.cooldowns v.memory.cooldowns) :
    SameViewFor rule w v where
  zone := does.zone
  readings := does.readings
  outages := does.outages
  device id hid := by
    have hspared : id ∉ q.commands := fun hmem => by
      obtain ⟨hread, hcommand⟩ := spares id hmem
      exact hid.elim hread hcommand
    rw [does.device? (Dispatch.id_upon _)]
    cases hd : v.store.device? id with
    | none => rfl
    | some x =>
      have hx : x.id = id := by simpa using List.find?_some hd
      exact congrArg some (of.upon (hx ▸ hspared))
  cooldowns := same
  count := by
    rw [does.rule? (RuleRow.id_noting _ _)]
    cases hr : v.store.rule? rule.id with
    | none => rfl
    | some r =>
      have hrid : r.id = rule.id := by simpa using List.find?_some hr
      simp only [Option.map_some, RuleRow.noting_of_ne (of.ruleId ▸ hrid.trans_ne other.symm)]

/-- The outcomes that rules have in a world. -/
def ruleOutcomes (now : Moment) (w : World) (rules : List Rule) : List RuleOutcome :=
  rules.map (w.ruleOutcome now)

/-- The changes that outcomes stand for, one after the other. -/
abbrev ChangedByAll (ds : List RuleOutcome) (v w : World) : Prop :=
  Changed (fun x => ds.foldl (fun x d => Dispatch.upon v.gate d.actions x) x)
    (ds.flatMap RuleOutcome.jobs)
    (fun row => ds.foldl (fun row d => row.noting d.rule d.note) row)
    (ds.flatMap fun d => d.report.kept v.gate) v w

end World

/-! ## One rule after the other -/

namespace Engine

variable {now : Moment} {u v w : World}

/-- Rules that spare those after them have the outcomes that they have in one world. -/
theorem processAll_ruleOutcomes {rules : List Rule} {reports : List Report} (uniform : v.Uniform)
    (sameViewFor : ∀ rule ∈ rules, SameViewFor rule v u)
    (domestic : ∀ rule ∈ rules, ∀ a ∈ rule.actions, a.domestic = true)
    (spares : rules.Pairwise Rule.Spares) (distinct : (rules.map (·.id)).Nodup)
    (run : (processAll now rules).run v = (reports, w)) (timely : ∀ r ∈ reports, r.Timely)
    (aloft : ∀ f ∈ v.flights, w.elapsed < f.due) :
    reports.map Report.unnumbered = (u.ruleOutcomes now rules).map RuleOutcome.report ∧
      v.ChangedByAll (u.ruleOutcomes now rules) w := by
  induction rules generalizing v reports with
  | nil =>
    cases run
    exact ⟨rfl, .still rfl rfl rfl rfl⟩
  | cons rule rules ih =>
    obtain ⟨r, z, rs, hone, hrest, rfl⟩ := processAll_cons run
    have hcourse := processRule_course rule now false false v
    rw [hone] at hcourse
    rw [List.forall_mem_cons] at sameViewFor domestic timely
    rw [List.pairwise_cons] at spares
    rw [List.map_cons, List.nodup_cons] at distinct
    have hlater := (along_processAll working_atOnce now rules fun _ _ => trivial).elapsed_le z
    rw [hrest] at hlater
    obtain ⟨hreport, hchanged⟩ := processRule_changedBy uniform domestic.1 hone timely.1 fun f hf =>
      Nat.lt_of_le_of_lt hlater (aloft f hf)
    have hview : ∀ q ∈ rules, SameViewFor q z u := fun q hq => by
      have hne : rule.id ≠ q.id := fun h => distinct.1 (h ▸ List.mem_map_of_mem hq)
      exact (hchanged.sameViewFor (v.ruleOutcome_of now rule) (spares.1 q hq) hne
        (hcourse.sameAt_of_ne hne)).trans (sameViewFor.2 q hq)
    obtain ⟨hreports, hall⟩ := ih (hchanged.uniform uniform) hview domestic.2 spares.2 distinct.2
      hrest timely.2 fun f hf => aloft f (hchanged.flights ▸ hf)
    have houtcome : v.ruleOutcome now rule = u.ruleOutcome now rule :=
      sameViewFor.1.ruleOutcome uniform now
    rw [houtcome] at hreport hchanged
    have hgate : z.gate = v.gate := hchanged.gate
    unfold World.ChangedByAll at hall
    rw [hgate] at hall
    exact ⟨List.cons_eq_cons.2 ⟨hreport, hreports⟩, hchanged.trans hall⟩

end Engine

/-! ## In any order -/

/-- Rules of different numbers that spare each other. -/
def Rule.Independent (rules : List Rule) : Prop :=
  ∀ p ∈ rules, ∀ q ∈ rules, p.id ≠ q.id → p.Spares q

instance (rules : List Rule) : Decidable (Rule.Independent rules) :=
  inferInstanceAs (Decidable (∀ p ∈ rules, ∀ q ∈ rules, p.id ≠ q.id → p.Spares q))

namespace World

variable {now : Moment} {u v w : World} {rules : List Rule} {ds : List RuleOutcome}

/-- The outcomes of rules that spare each other may change a device in any order. -/
theorem upon_perm (gate : Contact → Option Fault) (independent : Rule.Independent rules)
    (distinct : (rules.map (·.id)).Nodup) (perm : (u.ruleOutcomes now rules).Perm ds)
    (x : DeviceRow) : (u.ruleOutcomes now rules).foldl (fun x d => Dispatch.upon gate d.actions x) x
      = ds.foldl (fun x d => Dispatch.upon gate d.actions x) x := by
  refine perm.foldl_eq' (fun c hc d hd x => ?_) x
  obtain ⟨p, hp, rfl⟩ := List.mem_map.1 hc
  obtain ⟨q, hq, rfl⟩ := List.mem_map.1 hd
  by_cases hid : p.id = q.id
  · rw [List.inj_on_of_nodup_map distinct hp hq hid]
  · by_cases hx : x.id ∈ p.commands
    · have hnot : x.id ∉ q.commands := (independent p hp q hq hid x.id hx).2
      rw [(u.ruleOutcome_of now q).upon hnot, (u.ruleOutcome_of now q).upon
        (by rwa [Dispatch.id_upon])]
    · rw [(u.ruleOutcome_of now p).upon hx, (u.ruleOutcome_of now p).upon
        (by rwa [Dispatch.id_upon])]

/-- Notes about different rules may be taken in any order. -/
theorem noting_perm (distinct : (ds.map RuleOutcome.rule).Nodup) {es : List RuleOutcome}
    (perm : ds.Perm es) (row : RuleRow) : ds.foldl (fun row d => row.noting d.rule d.note) row
      = es.foldl (fun row d => row.noting d.rule d.note) row := by
  refine perm.foldl_eq' (fun c hc d hd row => ?_) row
  by_cases hid : c.rule = d.rule
  · rw [List.inj_on_of_nodup_map distinct hc hd hid]
  · by_cases hrow : row.id = c.rule
    · have hne : row.id ≠ d.rule := hrow ▸ hid
      have hmoved : (row.noting c.rule c.note).id ≠ d.rule := by rwa [RuleRow.id_noting]
      rw [RuleRow.noting_of_ne hne, RuleRow.noting_of_ne hmoved]
    · have hmoved : (row.noting d.rule d.note).id ≠ c.rule := by rwa [RuleRow.id_noting]
      rw [RuleRow.noting_of_ne hrow, RuleRow.noting_of_ne hmoved]

end World

end Glasshouse
