/-
Glasshouse.Proofs.Engine.Cascade — what a tick does to devices. Rules have their turns by
priority, and what one commands the next can see: an earlier rule may bring the
conditions of a later one about, or take them away. The devices after a tick are
those that come of carrying out, turn by turn, the commands of the rules that hold
at their turns and are not cooling down (`World.attend`). Main statement:
`tick_cascades`.

How the proof goes. Commands do without waits what they do with them where nothing is given
up (`tryOne_obeys`). `processRule_attends` says of one look that it does to the devices what the
turn does, `processAll_attends` goes along the rules, and `round_looks` leads from a tick to
its rules.

Side conditions of the main statement. Rows have different numbers. No action of the
tick is given up, and no command arrives in it that was given up before: either would
arrive later than its turn, or in another rule's. Calls may fail as laid down, one time
and not another: a turn asks and commands in the world that the turns before it have left,
with what is laid down there.
-/
import Glasshouse.Proofs.Engine.Origin
import Glasshouse.Proofs.Dispatch.InTime
import Glasshouse.Proofs.Engine.Sorting

namespace Glasshouse

open Calendar Plan

/-! ## Turns -/

namespace World

/-- What an action does to the devices. A command that fails changes nothing. -/
def obey (w : World) : Action → World
  | .device a => (w.callStore .deviceCommand fun s =>
      s.command a.device a.command.name (a.value.map Setting.stored)).2
  | _ => w

/-- A world in which a rule has had its turn: if its conditions hold in this world and it is
not cooling down, its commands are carried out in the order of its actions. -/
def attend (now : Moment) (w : World) (rule : Rule) : World :=
  match (Engine.evaluate rule.conditions now).run.run w with
  | (.error _, v) => v
  | (.ok (e, _), v) =>
    match e.result, v.memory.cooldowns.eligible rule.id now with
    | true, .ok true =>
      match v.consult .dispatch with
      | (some _, u) => u
      | (none, u) => rule.actions.foldl obey u
    | _, _ => v

/-- A world in which rules have had their turns, one after the other. -/
def attendAll (now : Moment) (w : World) (rules : List Rule) : World := rules.foldl (attend now) w

/-- What a rule whose conditions hold does to the devices, given what the tracker says about
its cooldown. -/
def heed (may : Except Fault Bool) (w : World) (rule : Rule) : World :=
  match may with
  | .ok true => match w.consult .dispatch with
    | (some _, u) => u
    | (none, u) => rule.actions.foldl obey u
  | _ => w

end World

namespace Report

/-- No action was given up. -/
def Timely (r : Report) : Prop :=
  ∀ x, r.execution? = some x → ∀ o : Outcome, o.TimedOut → o.toDoc ∉ x.actions

/-- The data that a report says a rule was judged on, if it says so, have the statuses that
the devices have in a world. -/
def Shows (r : Report) (rule : Rule) (w : World) : Prop :=
  ∀ x doc, r.execution? = some x → x.triggerData = some doc → ∃ s : Snapshot, doc = s.toDoc ∧
    ∀ id, .device id ∈ rule.conditions.queries → s.ask (.device id) = w.status? id

end Report

/-! ## Commands -/

/-- What a command comes to depends on the devices alone. -/
theorem Store.command_of_devices {s t : Store} (h : s.devices = t.devices) (id name : String)
    (value : Option String) :
    (∃ e, s.command id name value = .error e ∧ t.command id name value = .error e) ∨
      ∃ c d, s.command id name value = .ok (c, { s with devices := d }) ∧
        t.command id name value = .ok (c, { t with devices := d }) := by
  unfold command device? applyCommand
  rw [h]
  cases t.devices.find? (·.id == id) with
  | none => exact .inl ⟨_, rfl, rfl⟩
  | some d =>
    cases Command.ofName? name with
    | none => exact .inl ⟨_, rfl, rfl⟩
    | some c => exact .inr ⟨_, _, rfl, rfl⟩

namespace World

variable {v w : World}

/-- A command does the same in worlds of one view, and leaves them so. -/
theorem SameView.obey (h : SameView v w) (a : Action) : SameView (v.obey a) (w.obey a) := by
  cases a with
  | device a =>
    obtain ⟨hfault, hnext⟩ := h.consult (c := .deviceCommand) rfl
    unfold World.obey callStore
    rcases hv : v.consult .deviceCommand with ⟨e, v'⟩
    rcases hw : w.consult .deviceCommand with ⟨e', w'⟩
    rw [hv, hw] at hfault hnext
    cases hfault
    cases e with
    | some e => exact hnext
    | none =>
      simp only
      rcases Store.command_of_devices hnext.devices a.device a.command.name
        (a.value.map Setting.stored) with ⟨e, hs, ht⟩ | ⟨c, d, hs, ht⟩
      · rw [hs, ht]
        exact hnext
      · rw [hs, ht]
        exact ⟨hnext.zone, hnext.readings, rfl, hnext.outages⟩
  | notice _ | webhook _ | job _ => exact h

theorem SameView.obeyAll (h : SameView v w) (actions : List Action) :
    SameView (actions.foldl World.obey v) (actions.foldl World.obey w) := by
  induction actions generalizing v w with
  | nil => exact h
  | cons a actions ih => exact ih (h.obey a)

end World

namespace Dispatch

open World

theorem unmoved_undoing (a : DeviceAction) (o : Occasion) (change : DeviceChange) (w : World) :
    Unmoved w ((undoing a o change).run.run w).2 := by
  unfold undoing
  cases a.duration with
  | none => exact unmoved_refl w
  | some minutes =>
    simp only
    cases Revert.after a change minutes o with
    | error e => exact unmoved_refl w
    | ok revert =>
      rw [Work.run_bind, Work.run_ofExcept]
      simp only
      rw [Work.run_store_pure]
      exact unmoved_enqueue revertQueue revert.toDoc JobRank.high.name w

/-- An action that is not given up does to the devices what it does without waits. -/
theorem tryOne_obeys {i : Nat} {a : Action} {o : Occasion} {v v' : World} {x : Outcome}
    (run : (tryOne i a o).run v = (x, v')) (timely : ¬ x.TimedOut)
    (aloft : ∀ f ∈ v.flights, v'.elapsed < f.due) :
    v'.flights = v.flights ∧ SameView v' (v.obey a) := by
  have hharmless : a.harmless = true → v'.flights = v.flights ∧ SameView v' v := fun ha => by
    have hpasses := (along_tryOne_harmless ordinary_unmoved ha i o).passes v
    rw [run] at hpasses
    exact hpasses.quiet aloft
  cases a with
  | notice a => exact hharmless rfl
  | webhook a => exact hharmless rfl
  | job a => exact hharmless rfl
  | device a =>
    obtain ⟨r, u, hprompt, hv', -⟩ := tryOne_prompt rfl run timely aloft
    have hcommand : u.flights = v.flights ∧ SameView u (v.obey (.device a)) := by
      unfold promptly at hprompt
      rw [Work.run_bind, Work.run_store] at hprompt
      have hstill := v.callStore_still .deviceCommand
        fun s => s.command a.device a.command.name (a.value.map Setting.stored)
      rw [show v.obey (.device a) = (v.callStore .deviceCommand fun s =>
        s.command a.device a.command.name (a.value.map Setting.stored)).2 from rfl]
      rcases hc : v.callStore .deviceCommand
        fun s => s.command a.device a.command.name (a.value.map Setting.stored) with ⟨_ | change, z⟩
      · rw [hc] at hprompt hstill
        cases hprompt
        exact ⟨hstill.2, .refl _⟩
      · rw [hc] at hprompt hstill
        have hundo := unmoved_undoing a o change z
        rw [show (undoing a o change).run.run z = (r, u) from hprompt] at hundo
        exact ⟨hundo.flights.trans hstill.2, hundo.sameView⟩
    rw [hv']
    exact ⟨hcommand.1, (sameView_withTraces _ u).trans hcommand.2⟩

/-- The actions of a rule do to the devices what its commands do, one after the other. -/
theorem tryFrom_obeys {i : Nat} {o : Occasion} {actions : List Action} {v v' : World}
    {xs : List Outcome} (run : (tryFrom i o actions).run v = (xs, v'))
    (timely : ∀ x ∈ xs, ¬ x.TimedOut) (aloft : ∀ f ∈ v.flights, v'.elapsed < f.due) :
    v'.flights = v.flights ∧ SameView v' (actions.foldl obey v) := by
  induction actions generalizing i v xs with
  | nil =>
    cases run
    exact ⟨rfl, .refl _⟩
  | cons a actions ih =>
    obtain ⟨x, u, ys, hone, hrest, rfl⟩ := tryFrom_cons run
    have hlater := (along_tryFrom working_atOnce.toDispatching (i + 1) o actions).elapsed_le u
    rw [hrest] at hlater
    obtain ⟨hflights, hview⟩ := tryOne_obeys hone (timely x (List.mem_cons_self ..)) fun f hf =>
      Nat.lt_of_le_of_lt hlater (aloft f hf)
    obtain ⟨hflights', hview'⟩ := ih hrest (fun y hy => timely y (List.mem_cons_of_mem _ hy))
      fun f hf => aloft f (hflights ▸ hf)
    exact ⟨hflights'.trans hflights, hview'.trans (hview.obeyAll actions)⟩

end Dispatch

/-! ## One rule -/

namespace Engine

open World

variable {rule : Rule} {now : Moment} {e : Evaluation} {s : Snapshot} {v v' w : World}
  {r : Report}

/-- A rule that may fire has its actions tried unless the dispatcher as a whole fails, and
what follows is no more than records. -/
theorem fire_tries (eligible : v.memory.cooldowns.eligible rule.id now = .ok true)
    {x : Except Fault Report} (run : (fire rule now e s).run.run v = (x, v')) :
    (∃ f, v.consult .dispatch = (some f, v') ∧ x = .error f) ∨
      ∃ u outcomes u' r y, v.consult .dispatch = (none, u) ∧
        (Dispatch.tryFrom 0 ⟨rule.id, rule.name, now, some s⟩ rule.actions).run u = (outcomes, u') ∧
        x = .ok r ∧ r.execution? = some y ∧ y.actions = outcomes.map Outcome.toDoc ∧
        y.triggerData = some s.toDoc ∧ Passes u' v' := by
  have hinterior := (apart_dispatch rule.actions ⟨rule.id, rule.name, now, some s⟩).interior_eq v
  have hd := dispatch_run rule.actions ⟨rule.id, rule.name, now, some s⟩ v
  rw [hd] at hinterior
  rcases hc : v.consult .dispatch with ⟨_ | f, u⟩
  · rw [hc] at hd hinterior
    rcases htried : (Dispatch.tryFrom 0 ⟨rule.id, rule.name, now, some s⟩ rule.actions).run u
      with ⟨outcomes, u'⟩
    simp only [htried] at hd hinterior
    refine .inr ⟨u, outcomes, u', ?_⟩
    have hclosing : ∀ z, Passes u' z → Passes u'
        (((record (tried rule now e s outcomes)).run z).2.announce
          (announcement rule now outcomes)) :=
      fun z hz => hz.trans (((along_record recording_unmoved trivial).passes z).trans
        ((along_publish recording_unmoved _ _).passes _))
    cases hs : outcomes.all Outcome.succeeded with
    | true =>
      have hcool : u'.memory.cooldowns.eligible rule.id now = .ok true := by
        rw [show u'.memory.cooldowns = v.memory.cooldowns from
          congrArg (fun i : Interior => i.memory.cooldowns) hinterior]
        exact eligible
      obtain ⟨last, n, c, hmark⟩ := mark_of_eligible hcool
      obtain ⟨noted, t, z, hrun, -⟩ := markTriggered_run rule now hmark
      have hmarked := (along_markTriggered recording_unmoved rule now).passes u'
      rw [hrun] at hmarked
      cases run.symm.trans (fire_of_success hd hs hrun)
      exact ⟨_, _, rfl, htried, rfl, rfl, rfl, rfl, hclosing z hmarked⟩
    | false =>
      cases run.symm.trans (fire_of_failure hd hs)
      have hcounted := (along_count recording_unmoved
        fun t => { t with failed := t.failed + 1 }).passes u'
      exact ⟨_, _, rfl, htried, rfl, rfl, rfl, rfl, hclosing u'.countFailed hcounted⟩
  · rw [hc] at hd
    cases run.symm.trans (fire_of_fault hd)
    exact .inl ⟨f, rfl, rfl⟩

/-- What became of judging a rule in a world decides what its turn does there. -/
theorem attend_eq {x : Except Fault (Evaluation × Snapshot)} {u : World} :
    (evaluate rule.conditions now).run.run w = (x, u) → w.attend now rule = match x with
      | .error _ => u
      | .ok (e, _) => if e.result then u.heed (w.memory.cooldowns.eligible rule.id now) rule
          else u := by
  intro judged
  obtain ⟨t, ht⟩ := Work.Reads.evaluate rule.conditions now w
  rw [judged] at ht
  obtain rfl : u = w.failing t := ht
  unfold attend
  rw [judged]
  rcases x with f | ⟨e, s⟩
  · rfl
  · cases he : e.result with
    | false => simp only [he, Bool.false_eq_true, if_false]
    | true =>
      simp only [he, if_true, heed]
      rcases h : w.memory.cooldowns.eligible rule.id now with f | _ | _ <;>
        simp only [show (w.failing t).memory.cooldowns = w.memory.cooldowns from rfl, h]

/-- The record of a fault touches no device, and shows what the rule was judged on. -/
theorem recordFault_attends {judged : Option (Evaluation × Snapshot)} {f : Fault} {u z : World}
    (run : (recordFault rule now judged f).run u = (r, v')) (sameView : SameView u z)
    (statuses : ∀ p, judged = some p → ∀ id, .device id ∈ rule.conditions.queries →
      p.2.ask (.device id) = w.status? id)
    (aloft : ∀ f ∈ u.flights, v'.elapsed < f.due) :
    v'.flights = u.flights ∧ SameView v' z ∧ r.Shows rule w := by
  have hpasses := (along_recordFault recording_unmoved rule trivial now judged f).passes u
  obtain ⟨_, _, hreport, -⟩ := recordFault_run rule now judged f u
  rw [run] at hpasses hreport
  obtain ⟨hflights, hview⟩ := hpasses.quiet aloft
  refine ⟨hflights, hview.trans sameView, fun x doc hx hdoc => ?_⟩
  cases congrArg Prod.fst hreport
  cases hx
  cases judged with
  | none => cases hdoc
  | some p =>
    cases hdoc
    exact ⟨p.2, rfl, statuses p rfl⟩

/-- A rule that is cooling down touches no device, and its record shows what it was judged
on. -/
theorem suppress_attends {x : Except Fault Report} {u z : World}
    (run : (suppress rule now e s).run.run u = (x, v')) (sameView : SameView u z)
    (statuses : ∀ id, .device id ∈ rule.conditions.queries → s.ask (.device id) = w.status? id)
    (aloft : ∀ f ∈ u.flights, v'.elapsed < f.due) :
    v'.flights = u.flights ∧ SameView v' z ∧ ∀ r, x = .ok r → r.Shows rule w := by
  have hpasses := (along_suppress recording_unmoved rule trivial now e s).passes u
  rw [run] at hpasses
  obtain ⟨hflights, hview⟩ := hpasses.quiet aloft
  refine ⟨hflights, hview.trans sameView, ?_⟩
  rintro r rfl y doc hy hdoc
  rcases suppress_run rule now e s u with ⟨f, -, hrun⟩ | ⟨_, _, _, -, hrun, -⟩
  · cases run.symm.trans hrun
  · cases run.symm.trans hrun
    cases hy
    cases hdoc
    exact ⟨s, rfl, statuses⟩

/-- A rule that may fire does to the devices what its commands do, unless the dispatcher as a
whole fails, and its record shows what it was judged on. -/
theorem fire_attends {x : Except Fault Report} {u z : World}
    (eligible : u.memory.cooldowns.eligible rule.id now = .ok true)
    (run : (fire rule now e s).run.run u = (x, v')) (sameView : SameView u z)
    (statuses : ∀ id, .device id ∈ rule.conditions.queries → s.ask (.device id) = w.status? id)
    (timely : ∀ r, x = .ok r → r.Timely) (aloft : ∀ f ∈ u.flights, v'.elapsed < f.due) :
    v'.flights = u.flights ∧ SameView v' (z.heed (.ok true) rule)
      ∧ ∀ r, x = .ok r → r.Shows rule w := by
  obtain ⟨hdispatch, hnext⟩ := sameView.consult (c := .dispatch) rfl
  obtain ⟨t, ht⟩ := u.consult_failing .dispatch
  rcases hz : z.consult .dispatch with ⟨d, z'⟩
  rw [hz] at hdispatch hnext
  simp only [heed, hz]
  rcases fire_tries eligible run with
    ⟨f, hc, rfl⟩ | ⟨u₁, outcomes, u₂, r, y, hc, htried, rfl, hy, hactions, hdata, hpasses⟩
  · rw [hc] at hdispatch hnext ht
    obtain rfl : some f = d := hdispatch
    obtain rfl : v' = u.failing t := ht
    exact ⟨rfl, hnext, fun _ hr => nomatch hr⟩
  · rw [hc] at hdispatch hnext ht
    obtain rfl : none = d := hdispatch
    obtain rfl : u₁ = u.failing t := ht
    have htimely : ∀ o ∈ outcomes, ¬ o.TimedOut := fun o ho hout =>
      timely r rfl y hy o hout (hactions ▸ List.mem_map_of_mem ho)
    obtain ⟨hflights, hview⟩ := Dispatch.tryFrom_obeys htried htimely fun f hf =>
      Nat.lt_of_le_of_lt hpasses.elapsed (aloft f hf)
    obtain ⟨hflights', hview'⟩ := hpasses.quiet fun f hf => aloft f (hflights ▸ hf)
    refine ⟨hflights'.trans hflights, hview'.trans (hview.trans (hnext.obeyAll _)), ?_⟩
    rintro _ ⟨⟩ x doc hx hdoc
    cases hy.symm.trans hx
    cases hdata.symm.trans hdoc
    exact ⟨s, rfl, statuses⟩

/-- What a rule whose conditions hold does to the devices is up to the tracker. -/
theorem respond_attends {x : Except Fault Report} {u z : World}
    (run : (respond rule now false e s).run.run u = (x, v')) (sameView : SameView u z)
    (statuses : ∀ id, .device id ∈ rule.conditions.queries → s.ask (.device id) = w.status? id)
    (timely : ∀ r, x = .ok r → r.Timely) (aloft : ∀ f ∈ u.flights, v'.elapsed < f.due) :
    v'.flights = u.flights ∧ SameView v' (z.heed (u.memory.cooldowns.eligible rule.id now) rule)
      ∧ ∀ r, x = .ok r → r.Shows rule w := by
  rw [respond_run] at run
  cases hmay : u.memory.cooldowns.eligible rule.id now with
  | error f =>
    rw [hmay] at run
    cases run
    exact ⟨rfl, sameView, fun _ hr => nomatch hr⟩
  | ok may =>
    rw [hmay] at run
    cases may with
    | false => exact suppress_attends run sameView statuses aloft
    | true => exact fire_attends hmay run sameView statuses timely aloft

/-- Looking at a rule does to the devices what its turn does, and the report on it shows the
devices as they were before. -/
theorem processRule_attends (run : (processRule rule now false false).run v = (r, v'))
    (sameView : SameView v w) (same : Cooldown.SameAt rule.id v.memory.cooldowns w.memory.cooldowns)
    (timely : r.Timely) (aloft : ∀ f ∈ v.flights, v'.elapsed < f.due) :
    v'.flights = v.flights ∧ SameView v' (w.attend now rule) ∧ r.Shows rule w := by
  have hlooked : SameView v.looked w :=
    ⟨sameView.zone, sameView.readings, sameView.devices, sameView.outages⟩
  obtain ⟨hverdict, hjudged⟩ :=
    preserves_evaluate (c := rule.conditions) (answersAlike_sameView _) now v.looked w hlooked
  obtain ⟨t, ht⟩ := Work.Reads.evaluate rule.conditions now v.looked
  rcases hw : (evaluate rule.conditions now).run.run w with ⟨x, z⟩
  rw [hw] at hverdict hjudged
  rw [attend_eq hw, ← same.eligible now]
  cases processRule_processed run with
  | unjudged judged record =>
    rw [judged] at hverdict hjudged ht
    cases hverdict
    cases ht
    exact recordFault_attends (u := v.looked.failing t) record hjudged
      (fun _ hp => nomatch hp) aloft
  | notMatched judged hold =>
    rw [judged] at hverdict hjudged ht
    cases hverdict
    cases ht
    refine ⟨rfl, ?_, fun x doc hx => nomatch hx⟩
    simpa only [hold, Bool.false_eq_true, if_false] using hjudged
  | responded judged hold respond =>
    rw [judged] at hverdict hjudged ht
    cases hverdict
    cases ht
    simp only [hold.resolve_right Bool.false_ne_true, if_true]
    obtain ⟨hflights, hview, hshows⟩ := respond_attends respond hjudged
      (fun _ hid => evaluate_statuses hw hid) (fun _ hr => by cases hr; exact timely) aloft
    exact ⟨hflights, hview, hshows _ rfl⟩
  | @faulted e s f _ u _ _ judged hold respond record =>
    rw [judged] at hverdict hjudged ht
    cases hverdict
    cases ht
    simp only [hold.resolve_right Bool.false_ne_true, if_true]
    have hlater := ((along_recordFault recording_unmoved rule trivial now (some (e, s)) f).passes
      u).elapsed
    rw [record] at hlater
    have hstatuses : ∀ id, .device id ∈ rule.conditions.queries →
        s.ask (.device id) = w.status? id := fun id hid => evaluate_statuses hw hid
    obtain ⟨hflights, hview, -⟩ := respond_attends respond hjudged hstatuses
      (fun _ hr => nomatch hr) fun f hf => Nat.lt_of_le_of_lt hlater (aloft f hf)
    obtain ⟨hflights', hview', hshows⟩ := recordFault_attends record hview
      (fun p hp => by cases hp; exact hstatuses) fun f hf => aloft f (hflights ▸ hf)
    exact ⟨hflights'.trans hflights, hview', hshows⟩

/-! ## One rule after the other -/

/-- Looking at a rule leaves what the tracker holds about others. -/
theorem Course.sameAt_of_ne {bypass force : Bool} {b b' : Books} {id : Int}
    (h : Course rule now bypass force b r b') (hid : rule.id ≠ id) :
    Cooldown.SameAt id b'.cooldowns b.cooldowns := by
  cases h with
  | notMatched => exact .refl id _
  | suppressed _ _ _ record => rw [record.same.2.1]; exact .refl id _
  | failed _ _ _ record => rw [record.same.2.1]; exact .refl id _
  | faulted _ _ _ record => rw [record.same.2.1]; exact .refl id _
  | triggered _ _ _ mark note record =>
    rw [record.same.2.1, note.same.1]
    unfold Cooldown.mark at mark
    obtain ⟨l, -, hmark⟩ := bind_eq_ok.1 mark
    cases hmark
    refine ⟨?_, ?_, rfl⟩
    · exact (Table.get?_put ..).trans (if_neg hid)
    · exact (Table.get?_put ..).trans (if_neg hid)

theorem cooldowns_consult (c : Contact) (w : World) :
    (w.consult c).2.memory.cooldowns = w.memory.cooldowns := by
  obtain ⟨t, ht⟩ := w.consult_failing c
  rw [ht]
  rfl

theorem cooldowns_obeyAll (actions : List Action) (w : World) :
    (actions.foldl obey w).memory.cooldowns = w.memory.cooldowns := by
  induction actions generalizing w with
  | nil => rfl
  | cons a actions ih =>
    refine (ih _).trans ?_
    cases a with
    | device a =>
      rcases World.books_callStore .deviceCommand
        (fun s => s.command a.device a.command.name (a.value.map Setting.stored)) w with
        ⟨-, h⟩ | ⟨_, _, _, -, -, -, -, h⟩
      · exact congrArg Books.cooldowns h
      · exact congrArg Books.cooldowns h
    | notice _ | webhook _ | job _ => rfl

theorem cooldowns_heed (may : Except Fault Bool) (w : World) (rule : Rule) :
    (w.heed may rule).memory.cooldowns = w.memory.cooldowns := by
  unfold heed
  rcases may with f | _ | _
  · rfl
  · rfl
  · have hnext := cooldowns_consult .dispatch w
    rcases hc : w.consult .dispatch with ⟨_ | f, u⟩
    · rw [hc] at hnext
      exact (cooldowns_obeyAll rule.actions u).trans hnext
    · rw [hc] at hnext
      exact hnext

/-- The turn of a rule notes nothing in the tracker. -/
theorem cooldowns_attend (now : Moment) (w : World) (rule : Rule) :
    (w.attend now rule).memory.cooldowns = w.memory.cooldowns := by
  obtain ⟨t, ht⟩ := Work.Reads.evaluate rule.conditions now w
  rcases hx : (evaluate rule.conditions now).run.run w with ⟨x, u⟩
  rw [hx] at ht
  obtain rfl : u = w.failing t := ht
  rw [attend_eq hx]
  rcases x with f | ⟨e, s⟩
  · rfl
  · simp only
    split
    · exact cooldowns_heed ..
    · rfl

/-- Looking at rules does to the devices what their turns do, and the report on each shows
the devices as they were after the turns before it. -/
theorem processAll_attends {rules : List Rule} {reports : List Report}
    (run : (processAll now rules).run v = (reports, v')) (sameView : SameView v w)
    (same : ∀ rule ∈ rules, Cooldown.SameAt rule.id v.memory.cooldowns w.memory.cooldowns)
    (distinct : (rules.map (·.id)).Nodup) (timely : ∀ r ∈ reports, r.Timely)
    (aloft : ∀ f ∈ v.flights, v'.elapsed < f.due) :
    SameView v' (w.attendAll now rules) ∧ ∀ (i : Nat) (rule : Rule) (r : Report),
      rules[i]? = some rule → reports[i]? = some r →
        r.Shows rule (w.attendAll now (rules.take i)) := by
  induction rules generalizing v w reports with
  | nil =>
    cases run
    exact ⟨sameView, fun i rule r hrule => by cases hrule⟩
  | cons rule rules ih =>
    obtain ⟨r, u, rs, hone, hrest, rfl⟩ := processAll_cons run
    have hcourse := processRule_course rule now false false v
    rw [hone] at hcourse
    rw [List.map_cons, List.nodup_cons] at distinct
    have hlater := (along_processAll working_atOnce now rules fun _ _ => trivial).elapsed_le u
    rw [hrest] at hlater
    obtain ⟨hflights, hview, hshows⟩ := processRule_attends hone sameView
      (same rule (List.mem_cons_self ..)) (timely r (List.mem_cons_self ..)) fun f hf =>
        Nat.lt_of_le_of_lt hlater (aloft f hf)
    have hsame : ∀ q ∈ rules,
        Cooldown.SameAt q.id u.memory.cooldowns (w.attend now rule).memory.cooldowns := by
      intro q hq
      rw [cooldowns_attend]
      have hne : rule.id ≠ q.id := fun h => distinct.1 (h ▸ List.mem_map_of_mem hq)
      exact (hcourse.sameAt_of_ne hne).trans (same q (List.mem_cons_of_mem _ hq))
    obtain ⟨hall, hlist⟩ := ih hrest hview hsame distinct.2
      (fun r hr => timely r (List.mem_cons_of_mem _ hr)) fun f hf => aloft f (hflights ▸ hf)
    refine ⟨hall, fun i => ?_⟩
    cases i with
    | zero =>
      intro q r' hq hr'
      cases hq
      cases hr'
      exact hshows
    | succ i => exact fun q r' hq hr' => hlist i q r' hq hr'

/-! ## Ticks -/

/-- What a tick comes to: nothing that devices could tell, or rules looked at with a tracker. -/
inductive Looks (now : Moment) (rules : List Rule) (c : Cooldown) (w : World) :
    Except Fault (Option Round) → World → Prop
  | idle {r : Except Fault (Option Round)} {w' : World}
      (idle : ∀ now rules reports, r ≠ .ok (some (.done now rules reports)))
      (still : Idle w w') : Looks now rules c w r w'
  | looks {u v w' : World} {reports : List Report} (before : Idle w u)
      (cooldowns : u.memory.cooldowns = c) (run : (processAll now rules).run u = (reports, v))
      (after : Idle v w') : Looks now rules c w (.ok (some (.done now rules reports))) w'

namespace Looks

variable {rules : List Rule} {c : Cooldown} {u : World} {x : Except Fault (Option Round)}

theorem before (h : Looks now rules c u x v) (still : Idle w u) : Looks now rules c w x v := by
  cases h with
  | idle hidle hstill => exact .idle hidle (still.trans hstill)
  | looks hbefore cooldowns run after => exact .looks (still.trans hbefore) cooldowns run after

theorem after (h : Looks now rules c w x v) (still : Idle v v') : Looks now rules c w x v' := by
  cases h with
  | idle hidle hstill => exact .idle hidle (hstill.trans still)
  | looks hbefore cooldowns run after => exact .looks hbefore cooldowns run (after.trans still)

theorem faulted {f : Fault} (still : Idle w v) : Looks now rules c w (.error f) v :=
  .idle (fun _ _ _ h => by cases h) still

theorem skipped (still : Idle w v) : Looks now rules c w (.ok none) v :=
  .idle (fun _ _ _ h => by cases h) still

theorem unloaded {at' : Moment} {text : String} (still : Idle w v) :
    Looks now rules c w (.ok (some (.unloaded at' text))) v :=
  .idle (fun _ _ _ h => by cases h) still

end Looks

theorem tickWith_looks (now : Moment) (w : World) :
    Looks now w.lined (w.memory.cooldowns.refresh w.books.built).2 w
      (((tickWith now w.books.enabledRows).run.run w).1.map some)
      ((tickWith now w.books.enabledRows).run.run w).2 := by
  rw [tickWith_eq]
  rcases hs : sift w.books.enabledRows with ⟨f | rules, n⟩
  · exact .faulted (idle_memory _ _)
  · obtain ⟨rfl, -⟩ := sift_built hs
    dsimp only
    rcases hc : w.memory.cooldowns.refresh w.books.built with ⟨f | _, c⟩
    · exact .faulted (idle_memory _ _)
    · exact .looks (u := (w.refuse n).ordering w.books.built c) (idle_memory _ _) rfl rfl
        (idle_memory _ _)

theorem tickLocked_looks (w : World) :
    Looks w.clock w.lined (w.memory.cooldowns.refresh w.books.built).2 w
      ((tickLocked.run.run w).1.map some) (tickLocked.run.run w).2 := by
  have hticked : Idle w w.ticked := idle_memory _ _
  have hload := idle_consult (c := .enabledRules) rfl w.ticked
  obtain ⟨t, ht⟩ := w.ticked.consult_failing .enabledRules
  rw [tickLocked_eq]
  rcases hc : w.ticked.consult .enabledRules with ⟨_ | f, v⟩
  · rw [hc] at hload ht
    obtain rfl : v = w.ticked.failing t := ht
    exact (tickWith_looks w.clock (w.ticked.failing t)).before (hticked.trans hload)
  · rw [hc] at hload
    exact .unloaded ((hticked.trans hload).trans (idle_memory _ _))

/-- A tick looks at the rules in their order, or does nothing that devices could tell. -/
theorem round_looks (w : World) :
    Looks w.clock w.lined (w.memory.cooldowns.refresh w.books.built).2 w (round.run.run w).1
      (round.run.run w).2 := by
  have hbegin := idle_consult (c := .tick) rfl w
  obtain ⟨t, ht⟩ := w.consult_failing .tick
  rw [round_eq]
  rcases hc : w.consult .tick with ⟨_ | f, v⟩
  · rw [hc] at hbegin ht
    obtain rfl : v = w.failing t := ht
    dsimp only
    cases (w.failing t).memory.locked with
    | true => exact .skipped (hbegin.trans (idle_memory _ _))
    | false =>
      have hlooks : Looks w.clock w.lined (w.memory.cooldowns.refresh w.books.built).2 _ _ _ :=
        tickLocked_looks (w.failing t).locking
      exact (hlooks.before (hbegin.trans (idle_memory _ _))).after (idle_memory _ _)
  · rw [hc] at hbegin
    exact .faulted hbegin

end Engine

/-- A world in which a tick has taken over the records of the rules. -/
def World.begun (w : World) : World :=
  w.track (w.memory.cooldowns.refresh w.books.built).2

/-- **What a tick does to devices.** In a tick in which no action is given up, and in which
no command arrives that was given up before, the rules that the enabled rows hold have
their turns by priority, and among equal priorities as they had them the last time. The
devices come out as the turns make them: each rule whose conditions hold at its turn and that
is not cooling down commands in the order of its actions, and no other command has an effect.
The report on a rule shows the devices as they were after the turns before its own. A tick
that looks at no rules leaves the devices as they were. -/
theorem tick_cascades {w w' : World} {r : Except Fault (Option Round)}
    (run : Engine.round.run.run w = (r, w')) (distinct : w.books.ids.Nodup)
    (timely : ∀ now rules reports, r = .ok (some (.done now rules reports)) →
      ∀ x ∈ reports, x.Timely)
    (aloft : ∀ f ∈ w.flights, w'.elapsed < f.due) :
    (∀ now rules reports, r = .ok (some (.done now rules reports)) →
      now = w.clock ∧ rules.Perm w.books.built ∧
      (rules.Pairwise fun p q => p.priority < q.priority ∨ p.priority = q.priority ∧
        w.memory.order.place rules.length p.id ≤ w.memory.order.place rules.length q.id) ∧
      w'.store.devices = (w.begun.attendAll now rules).store.devices ∧
      ∀ (i : Nat) (rule : Rule) (x : Report), rules[i]? = some rule → reports[i]? = some x →
        x.Shows rule (w.begun.attendAll now (rules.take i))) ∧
    ((∀ now rules reports, r ≠ .ok (some (.done now rules reports))) →
      w'.store.devices = w.store.devices) := by
  have hlooks := Engine.round_looks w
  rw [run] at hlooks
  cases hlooks with
  | idle hidle hstill =>
    exact ⟨fun now rules reports h => absurd h (hidle now rules reports),
      fun _ => hstill.sameView.devices⟩
  | @looks u v _ reports before cooldowns looks after =>
    refine ⟨fun now rules reports' h => ?_, fun h => absurd rfl (h _ _ _)⟩
    cases h
    have hperm : w.lined.Perm w.books.built :=
      w.memory.order.sortBy_perm (fun r : Rule => r.id) (fun r => r.priority) w.books.built
    have hdistinct : (w.lined.map (·.id)).Nodup :=
      (hperm.map _).nodup_iff.2 (w.books.built_ids distinct)
    have hview : World.SameView u w.begun :=
      ⟨before.sameView.zone, before.sameView.readings, before.sameView.devices,
        before.sameView.outages⟩
    obtain ⟨hdevices, hshows⟩ := Engine.processAll_attends looks hview
      (fun rule _ => cooldowns ▸ .refl rule.id _) hdistinct (timely _ _ _ rfl)
      fun f hf => after.elapsed ▸ aloft f (before.flights ▸ hf)
    refine ⟨rfl, hperm, ?_, after.sameView.devices.trans hdevices.devices, hshows⟩
    have hsorted := List.pairwise_mergeSort (w.memory.order.before_trans w.books.built.length)
      (w.memory.order.before_total w.books.built.length) w.books.built
    refine List.Pairwise.imp (fun {p q} h => ?_) hsorted
    rw [hperm.length_eq]
    simpa only [RuleOrder.before, Bool.or_eq_true, decide_eq_true_eq, Bool.and_eq_true,
      beq_iff_eq] using h

/-! ## Ticks without failures -/

/-- Whether a report tells of a failure. -/
def Report.failure : Report → Bool
  | .failed _ => true
  | _ => false

/-- Whether no rule of a tick failed. -/
def Round.smooth : Except Fault (Option Round) → Bool
  | .ok (some (.done _ _ reports)) => reports.all fun r => !r.failure
  | _ => true

theorem Outcome.succeeded_of_toDoc {o p : Outcome} (h : o.toDoc = p.toDoc) :
    o.succeeded = p.succeeded := by
  simp only [toDoc, Doc.record, List.map_append, List.map_cons, List.cons_append] at h
  injection h with h
  injection h with _ h
  injection h with _ h
  injection h with h _
  simpa using h

namespace Engine

variable {rule : Rule} {now : Moment} {b b' : Books}

/-- A rule that did not fail had no action that was given up. -/
theorem Course.timely {bypass force : Bool} {r : Report}
    (h : Course rule now bypass force b r b') (smooth : r.failure = false) : r.Timely := by
  cases h with
  | notMatched => exact fun x hx => by cases hx
  | suppressed =>
    intro x hx o _ ho
    cases hx
    cases ho
  | triggered _ _ success =>
    intro x hx o hout ho
    cases hx
    obtain ⟨p, hp, hdoc⟩ := List.mem_map.1 ho
    have hsucceeded := Outcome.succeeded_of_toDoc hdoc
    obtain ⟨seconds, hresult⟩ := hout
    rw [List.all_eq_true.1 success p hp, Outcome.succeeded, hresult] at hsucceeded
    cases hsucceeded
  | failed => cases smooth
  | faulted => cases smooth

theorem Courses.timely {rules : List Rule} {rs : List Report} (h : Courses now rules b rs b')
    (smooth : ∀ r ∈ rs, r.failure = false) : ∀ r ∈ rs, r.Timely := by
  induction h with
  | nil => exact fun r hr => by cases hr
  | cons first _ ih =>
    rw [List.forall_mem_cons] at smooth ⊢
    exact ⟨first.timely smooth.1, ih smooth.2⟩

/-- In a tick in which no rule fails no action is given up. -/
theorem round_timely {w w' : World} {r : Except Fault (Option Round)}
    (run : round.run.run w = (r, w')) (smooth : Round.smooth r = true) (now : Moment)
    (rules : List Rule) (reports : List Report) (done : r = .ok (some (.done now rules reports))) :
    ∀ x ∈ reports, x.Timely := by
  have hlooks := round_looks w
  rw [run] at hlooks
  cases hlooks with
  | idle idle => exact absurd done (idle now rules reports)
  | @looks u v _ reports' _ _ looks =>
    cases done
    have hcourses := processAll_courses w.clock w.lined u
    rw [looks] at hcourses
    refine hcourses.timely fun r hr => ?_
    simpa using List.all_eq_true.1 smooth r hr

end Engine

/-- A rule that switches the fan on. -/
def Definition.airing : Definition :=
  { Definition.vent with priority := 1, actions := [.device ⟨"fan", .turnOn, none, none⟩] }

/-- A rule that switches the pump on where the fan is on. -/
def Definition.misting : Definition :=
  { Definition.vent with
    priority := 2
    conditions := .all [.leaf (.device ⟨"fan", "on"⟩)]
    actions := [.device ⟨"pump", .turnOn, none, none⟩] }

/-- A world with both rules, in which fan and pump are off. -/
def World.cascading : World :=
  { World.holding [.ofDefinition 1 .misting, .ofDefinition 2 .airing] with
    store := {
      rules := [.ofDefinition 1 .misting, .ofDefinition 2 .airing]
      devices := [{ id := "fan", name := "Fan" }, { id := "pump", name := "Pump" }] } }

/-- A tick switches the fan on and, because it is on then, the pump as well. -/
theorem tick_cascades_fan_pump :
    ∃ rules reports v, Engine.round.run.run .cascading
        = (.ok (some (.done World.cascading.clock rules reports)), v) ∧
      v.store.devices
        = (World.cascading.begun.attendAll World.cascading.clock rules).store.devices ∧
      rules.map (·.id) = [2, 1] ∧ v.store.devices.map (·.status) = ["on", "on"] := by
  have hsmooth : Round.smooth (Engine.round.run.run .cascading).1 = true := by
    simp only [World.cascading, Engine.round, Engine.tickLocked, Store.enabledRules_eq,
      Engine.tickWith, Engine.arrange, RuleOrder.sort_eq]
    decide +kernel
  have hrun : (match (Engine.round.run.run .cascading).1 with
      | .ok (some (.done _ rules _)) => rules.map (·.id)
      | _ => []) = [2, 1] ∧
      (Engine.round.run.run .cascading).2.store.devices.map (·.status) = ["on", "on"] := by
    simp only [World.cascading, Engine.round, Engine.tickLocked, Store.enabledRules_eq,
      Engine.tickWith, Engine.arrange, RuleOrder.sort_eq]
    decide +kernel
  rcases hr : Engine.round.run.run .cascading with ⟨r, v⟩
  rw [hr] at hsmooth hrun
  obtain ⟨hdone, -⟩ := tick_cascades hr (by decide) (Engine.round_timely hr hsmooth)
    fun _ hf => absurd hf List.not_mem_nil
  simp only at hrun
  split at hrun
  · obtain ⟨rfl, -, -, hdevices, -⟩ := hdone _ _ _ rfl
    exact ⟨_, _, _, rfl, hdevices, hrun⟩
  · cases hrun.1

/-- A rule that turns the fan over. -/
def Definition.turning : Definition :=
  { Definition.vent with actions := [.device ⟨"fan", .toggle, none, none⟩] }

/-- A world in which switching on takes longer than an action may take, and a rule has done
so: the command is still on its way to the fan, and another rule has come up since. -/
def World.belated : World :=
  (live [.create .airing, .tick, .switch 1 false, .create .turning] ⟨{ World.quiet 0 with
    settings := { (World.quiet 0).settings with actionTimeout := 0.15 }
    store := { devices := [{ id := "fan", name := "Fan" }] }
    delays := [("TURN_ON", 400000)] }, []⟩).2.world

/-- The command that was given up arrives before the other rule turns the fan over, which
is off then and not on, though in this tick no action was given up. -/
theorem belated_command_arrives :
    ∃ rules reports v, Engine.round.run.run .belated
        = (.ok (some (.done World.belated.clock rules reports)), v) ∧
      (∀ x ∈ reports, x.Timely) ∧ v.store.devices.map (·.status) = ["off"] ∧
      (World.belated.begun.attendAll World.belated.clock rules).store.devices.map (·.status)
        = ["on"] := by
  have hsmooth : Round.smooth (Engine.round.run.run .belated).1 = true := by
    simp only [World.belated, live, Happening.step, Engine.round, Engine.tickLocked,
      Store.enabledRules_eq, Engine.tickWith, Engine.arrange, RuleOrder.sort_eq]
    decide +kernel
  have hrun : (match (Engine.round.run.run .belated).1 with
      | .ok (some (.done _ rules _)) =>
        (World.belated.begun.attendAll World.belated.clock rules).store.devices.map (·.status)
      | _ => []) = ["on"] ∧
      (Engine.round.run.run .belated).2.store.devices.map (·.status) = ["off"] := by
    simp only [World.belated, live, Happening.step, Engine.round, Engine.tickLocked,
      Store.enabledRules_eq, Engine.tickWith, Engine.arrange, RuleOrder.sort_eq, World.begun,
      Books.built, Books.enabledRows,
      Sorting.mergeSort_eq_insertionSort RuleRow.before_trans RuleRow.before_total]
    decide +kernel
  have hlooks := Engine.round_looks .belated
  rcases hr : Engine.round.run.run .belated with ⟨r, v⟩
  rw [hr] at hsmooth hrun hlooks
  have htimely := Engine.round_timely hr hsmooth
  simp only at hrun hlooks
  cases hlooks with
  | idle idle =>
    split at hrun
    · exact absurd rfl (idle _ _ _)
    · cases hrun.1
  | looks => exact ⟨_, _, _, rfl, htimely _ _ _ rfl, hrun.2, hrun.1⟩

end Glasshouse
