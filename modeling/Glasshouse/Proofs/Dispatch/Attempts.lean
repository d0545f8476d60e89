/-
Glasshouse.Proofs.Dispatch.Attempts — every action of a list is attempted, once and in order,
whatever carries the actions out. A handler may return, fail or take too long, and may have
changed anything but the settings when it does: the next action begins in the world that it
leaves, and the report of each attempt is a success with what its handler gave, exactly if
that came in time, or a failure with an error. Main statement: `run_attempts`.

Side conditions of the main statement. The time limit is positive, and the call that begins
a dispatch is not laid down to fail. Handlers leave the settings alone and wait for time
only (`Handler.Settled`); those of the dispatcher do (`settled_perform`). Where the limit is not
positive no action is begun at all.
-/
import Glasshouse.Proofs.Dispatch.Timeline

namespace Glasshouse

open Calendar

/-! ## How long a plan takes -/

namespace Plan

variable {σ α : Type} [Timed σ]

/-- The time that a plan takes when it is performed alone. -/
def takes : Plan σ α → σ → Duration
  | done _, _ => 0
  | act f next, s => (next s).takes (f s)
  | wait d next, s => d + next.takes (Timed.elapse d s)
  | whenFree d next, s =>
    if Timed.locked s then d + (next false).takes (Timed.elapse d s) else (next true).takes s

/-- A plan under a time limit comes to its end if it takes less time, and then does what it does
without the limit; otherwise it is given up. -/
theorem Along.run_within {S : σ → σ → Prop} {p : Plan σ α} (hp : Along S p) {limit : Duration}
    (positive : 0 < limit) (s : σ) :
    (p.takes s < limit → (p.within limit).run s = (some (p.run s).1, (p.run s).2)) ∧
      (limit ≤ p.takes s → ((p.within limit).run s).1 = none) := by
  induction hp generalizing limit s with
  | done a => exact ⟨fun _ => rfl, fun h => absurd positive (Nat.not_lt.2 h)⟩
  | act _ _ ih => exact ih s positive _
  | @wait d next _ ih =>
    by_cases hd : d < limit
    · obtain ⟨hin, hout⟩ := ih (Nat.sub_pos_of_lt hd) (Timed.elapse d s)
      rw [within, if_pos hd]
      refine ⟨fun h => hin ?_, fun h => hout ?_⟩
      · exact Nat.lt_sub_of_add_lt (Nat.add_comm d _ ▸ h)
      · exact Nat.sub_le_iff_le_add'.2 h
    · rw [within, if_neg hd]
      exact ⟨fun h => absurd (Nat.lt_of_le_of_lt (Nat.le_add_right d _) h) hd, fun _ => rfl⟩

end Plan

open Plan World

/-! ## Handlers -/

namespace Dispatch

/-- What carries actions out. -/
abbrev Handler := Action → Occasion → Work Effect

variable (handle : Handler)

/-- One action tried, carried out by a handler. -/
def tryWith (i : Nat) (a : Action) (o : Occasion) : Activity Outcome := do
  match a with
  | .device d => awaitDevice d.device
  | _ => pure ()
  let seconds ← Plan.look fun w => w.settings.actionTimeout
  let result ← limited seconds (handle a o).run
  pure ⟨i, a.kind, settle a.kind seconds result⟩

/-- The actions from a number on tried in order. -/
def tryFromWith (i : Nat) (o : Occasion) : List Action → Activity (List Outcome)
  | [] => pure []
  | a :: r => do
    let x ← tryWith handle i a o
    let xs ← tryFromWith (i + 1) o r
    pure (x :: xs)

/-- The actions of a rule carried out by a handler. -/
def runWith (actions : List Action) (o : Occasion) : Work (List Outcome) := do
  Work.consult .dispatch
  ExceptT.lift (tryFromWith handle 0 o actions)

theorem tryFromWith_perform (i : Nat) (o : Occasion) (actions : List Action) :
    tryFromWith perform i o actions = tryFrom i o actions := by
  induction actions generalizing i with
  | nil => rfl
  | cons a actions ih =>
    unfold tryFromWith tryFrom
    rw [ih]
    rfl

/-- Actions are carried out by `perform`. -/
theorem runWith_perform : runWith perform = run := by
  funext actions o
  unfold runWith run
  rw [tryFromWith_perform]

end Dispatch

/-! ## Settings -/

namespace World

/-- A change that leaves the settings alone. -/
def Settled (v w : World) : Prop := w.settings = v.settings

theorem settled_refl (w : World) : Settled w w := rfl

protected theorem Settled.trans {u v w : World} (h : Settled u v) (k : Settled v w) :
    Settled u w :=
  Eq.trans k h

theorem settled_elapse (d : Duration) (w : World) : Settled w (w.elapse d) := by
  obtain ⟨_, _, _, _, h⟩ := elapse_shape d w
  rw [h]
  rfl

theorem settled_consult (c : Contact) (w : World) : Settled w (w.consult c).2 := by
  obtain ⟨t, ht⟩ := w.consult_failing c
  rw [ht]
  rfl

theorem dispatching_settled : Dispatching Settled where
  refl := settled_refl
  setWire l _ _ := by cases l <;> rfl
  sent _ _ := rfl
  enqueue queue payload rank w := by
    rcases w.callStore_cases .enqueue (·.enqueue queue payload rank) with
      ⟨_, s, -, -, -, t, h⟩ | ⟨-, ⟨t, h⟩, -⟩
    · rw [h]
      rfl
    · rw [h]
      rfl
  takeOff device command value w := by
    obtain ⟨t, delay, fault, h⟩ := Dispatch.takeOff_eq device command value w
    rw [h]
    rfl

end World

theorem Plan.Along.settled {α : Type} {p : Activity α} (hp : Along Settled p) (w : World) :
    Settled w (p.run w).2 :=
  hp.run settled_refl Settled.trans settled_elapse id w

/-- Handlers that wait for nothing but time and leave the settings alone. Whatever else they
change, give or fail with is up to them. -/
def Dispatch.Handler.Settled (handle : Handler) : Prop :=
  ∀ a o, Work.Along World.Settled (handle a o)

theorem Dispatch.settled_perform : Handler.Settled perform := along_perform dispatching_settled

namespace World

/-- The world when the device of an action has been waited for: commands on their way to it have
arrived. -/
def awaited (a : Action) (w : World) : World :=
  match a with
  | .device d => ((Dispatch.awaitDevice d.device).run w).2
  | _ => w

/-- The world in which the handler of an action begins. -/
def ready (a : Action) (w : World) : World := (w.awaited a).elapse 0

theorem settled_awaited (a : Action) (w : World) : Settled w (w.awaited a) := by
  cases a with
  | device d => exact (along_awaitDevice settled_refl d.device).settled w
  | notice _ | webhook _ | job _ => exact settled_refl w

end World

/-! ## Reports -/

theorem Fault.record_ne (f : Fault) : f.record ≠ "" := by
  unfold record
  by_cases h : f.text.isEmpty = true
  · simp only [h, if_true]
    split
    · rename_i kind _
      cases kind <;> decide
    · decide
  · simp only [h]
    intro hempty
    rw [if_neg (by simp)] at hempty
    rw [hempty] at h
    exact h rfl

/-- A success has a result and no error, a failure has an error and no result. -/
theorem Outcome.report (x : Outcome) :
    (∀ e, x.result = .ok e → x.toDoc.field? "success" = some (.bool true) ∧
      x.toDoc.field? "result" = some e.toDoc ∧ x.toDoc.field? "error" = none) ∧
    (∀ text, x.result = .error text → x.toDoc.field? "success" = some (.bool false) ∧
      x.toDoc.field? "result" = none ∧ x.toDoc.field? "error" = some (.str text)) := by
  obtain ⟨index, kind, result⟩ := x
  constructor
  · rintro e ⟨⟩
    exact ⟨rfl, rfl, rfl⟩
  · rintro text ⟨⟩
    exact ⟨rfl, rfl, rfl⟩

/-! ## Attempts -/

/-- One action attempted: the world in which its handler begins, the world in which its outcome
is fixed, and the outcome. -/
structure Attempt where
  action : Action
  began : World
  ended : World
  outcome : Outcome

namespace Attempt

open Dispatch

variable (handle : Handler) (o : Occasion) (limit : Duration)

/-- The handler comes to its end in time, and gives an effect. -/
def Returns (t : Attempt) (e : Effect) : Prop :=
  (handle t.action o).run.takes t.began < limit ∧
    ((handle t.action o).run.run t.began).1 = .ok e

/-- An attempt has the number and the kind of its action. The handler has been called once, and
stopped when its time was over; if it came to its end before, all of it has been done. The
outcome is a success with what the handler gave, if that came in time, or a failure with an
error. -/
structure Fair (i : Nat) (t : Attempt) : Prop where
  index : t.outcome.index = i
  kind : t.outcome.kind = t.action.kind
  ended : t.ended = (((handle t.action o).run.within limit).run t.began).2
  whole : (handle t.action o).run.takes t.began < limit →
    t.ended = ((handle t.action o).run.run t.began).2
  success : ∀ e, t.outcome.result = .ok e ↔ t.Returns handle o limit e
  failure : ∀ text, t.outcome.result = .error text → text ≠ ""

/-- Attempts one after the other: each handler begins in the world in which the outcome before
was fixed, but for commands that its device had to be waited for. -/
inductive InTurn : Nat → World → List Attempt → World → Prop
  | nil (i : Nat) (w : World) : InTurn i w [] w
  | cons {i : Nat} {t : Attempt} {ts : List Attempt} {v w : World} (fair : t.Fair handle o limit i)
      (began : t.began = v.ready t.action) (rest : InTurn (i + 1) t.ended ts w) :
      InTurn i v (t :: ts) w

/-- What the report of an attempt says. -/
def Reported (t : Attempt) : Prop :=
  (∃ e, t.Returns handle o limit e ∧ t.outcome.toDoc.field? "success" = some (.bool true) ∧
    t.outcome.toDoc.field? "result" = some e.toDoc ∧ t.outcome.toDoc.field? "error" = none) ∨
  ((∀ e, ¬ t.Returns handle o limit e) ∧
    t.outcome.toDoc.field? "success" = some (.bool false) ∧
    t.outcome.toDoc.field? "result" = none ∧
    ∃ text, text ≠ "" ∧ t.outcome.toDoc.field? "error" = some (.str text))

variable {handle o limit} {i : Nat} {t : Attempt} {ts : List Attempt} {v w : World}

theorem Fair.reported (h : t.Fair handle o limit i) : t.Reported handle o limit := by
  obtain ⟨hok, herror⟩ := t.outcome.report
  cases hresult : t.outcome.result with
  | ok e => exact .inl ⟨e, (h.success e).1 hresult, hok e hresult⟩
  | error text =>
    obtain ⟨hfailed, hnone, htext⟩ := herror text hresult
    refine .inr ⟨fun e he => ?_, hfailed, hnone, text, h.failure text hresult, htext⟩
    cases hresult.symm.trans ((h.success e).2 he)

theorem Fair.succeeded_iff (h : t.Fair handle o limit i) :
    t.outcome.succeeded = true ↔ ∃ e, t.Returns handle o limit e := by
  simp only [← h.success]
  unfold Outcome.succeeded
  cases t.outcome.result with
  | ok e => simp
  | error text => simp

theorem InTurn.fair (h : InTurn handle o limit i v ts w) (ht : t ∈ ts) :
    ∃ j, t.Fair handle o limit j := by
  induction h with
  | nil => cases ht
  | cons fair _ _ ih =>
    rcases List.mem_cons.1 ht with rfl | ht
    · exact ⟨_, fair⟩
    · exact ih ht

theorem InTurn.numbered (h : InTurn handle o limit i v ts w) :
    ts.map (fun t => (t.outcome.index, t.outcome.kind))
      = ((ts.map Attempt.action).zipIdx i).map fun p => (p.2, p.1.kind) := by
  induction h with
  | nil => rfl
  | cons fair _ _ ih =>
    simp only [List.map_cons, List.zipIdx_cons, ih, fair.index, fair.kind]

end Attempt

namespace Dispatch

variable {handle : Handler} {o : Occasion} {limit : Duration} {w : World}

/-- Of what is settled after some time, a success is what was given in that time. -/
theorem settle_eq_ok {kind : String} {seconds : Float} {x : Option (Except Fault Effect)}
    {e : Effect} : settle kind seconds x = .ok e ↔ x = some (.ok e) := by
  constructor
  · intro h
    unfold settle at h
    split at h
    · cases h
      rfl
    · cases h
    · cases h
    · cases h
  · rintro rfl
    rfl

theorem settle_error_ne {kind : String} {seconds : Float} {x : Option (Except Fault Effect)}
    {text : String} (h : settle kind seconds x = .error text) : text ≠ "" := by
  unfold settle at h
  split at h
  · cases h
  · cases h
    exact Fault.record_ne _
  · cases h
    exact Fault.record_ne _
  · cases h
    exact Fault.record_ne _

/-- A positive time limit leaves some time. -/
theorem limit?_positive {seconds : Float} (positive : ¬ seconds ≤ 0.0) :
    ∃ d, limit? seconds = some d ∧ 0 < d := by
  unfold limit?
  rw [if_neg positive]
  refine ⟨_, rfl, ?_⟩
  split
  · exact Nat.lt_of_lt_of_le Nat.zero_lt_one (Nat.le_max_right ..)
  · decide

/-- An action that has its turn is carried out within the time limit. -/
theorem tried_run (handle : Handler) (limited : limit? w.settings.actionTimeout = some limit)
    (i : Nat) (a : Action) : (do
      let seconds ← Plan.look fun w : World => w.settings.actionTimeout
      let result ← Dispatch.limited seconds (handle a o).run
      pure (⟨i, a.kind, settle a.kind seconds result⟩ : Outcome) : Activity Outcome).run w =
      (⟨i, a.kind, settle a.kind w.settings.actionTimeout
        (((handle a o).run.within limit).run (w.elapse 0)).1⟩,
        (((handle a o).run.within limit).run (w.elapse 0)).2) := by
  simp only [run_bind', run_look, run_pure, Dispatch.limited, limited]
  rfl

theorem tryWith_run (handle : Handler) (limited : limit? w.settings.actionTimeout = some limit)
    (i : Nat) (a : Action) : (tryWith handle i a o).run w =
      (⟨i, a.kind, settle a.kind w.settings.actionTimeout
        (((handle a o).run.within limit).run (w.ready a)).1⟩,
        (((handle a o).run.within limit).run (w.ready a)).2) := by
  have hsettings : (w.awaited a).settings = w.settings := settled_awaited a w
  have htried := tried_run (o := o) handle (hsettings ▸ limited) i a
  rw [hsettings] at htried
  cases a with
  | device d =>
    unfold tryWith
    rw [run_bind']
    exact htried
  | notice _ | webhook _ | job _ => exact htried

/-- One action is attempted fairly, whatever its handler does. -/
theorem tryWith_fair (settled : handle.Settled) (positive : 0 < limit)
    (limited : limit? w.settings.actionTimeout = some limit) (i : Nat) (a : Action) :
    ∃ t : Attempt, (tryWith handle i a o).run w = (t.outcome, t.ended) ∧ t.action = a ∧
      t.began = w.ready a ∧ t.Fair handle o limit i ∧ Settled w t.ended := by
  have hrun := tryWith_run (o := o) handle limited i a
  obtain ⟨hin, hout⟩ := (settled a o).run_within positive (w.ready a)
  have hended : Settled w (((handle a o).run.within limit).run (w.ready a)).2 :=
    ((settled_awaited a w).trans (settled_elapse 0 _)).trans
      (((settled a o).within limit).settled (w.ready a))
  refine ⟨⟨a, w.ready a, (((handle a o).run.within limit).run (w.ready a)).2, _⟩, hrun, rfl, rfl,
    ⟨rfl, rfl, rfl, fun h => congrArg Prod.snd (hin h), fun e => ?_, fun text h =>
      settle_error_ne h⟩, hended⟩
  rw [settle_eq_ok]
  by_cases htime : (handle a o).run.takes (w.ready a) < limit
  · rw [hin htime, Option.some.injEq]
    exact ⟨fun h => ⟨htime, h⟩, fun h => h.2⟩
  · rw [hout (Nat.not_lt.1 htime)]
    exact ⟨nofun, fun h => absurd h.1 htime⟩

/-- The actions of a list are attempted one after the other. -/
theorem tryFromWith_inTurn (settled : handle.Settled) (positive : 0 < limit)
    (limited : limit? w.settings.actionTimeout = some limit) (i : Nat) (actions : List Action) :
    ∃ ts v, (tryFromWith handle i o actions).run w = (ts.map Attempt.outcome, v) ∧
      ts.map Attempt.action = actions ∧ Attempt.InTurn handle o limit i w ts v := by
  induction actions generalizing i w with
  | nil => exact ⟨[], w, rfl, rfl, .nil i w⟩
  | cons a actions ih =>
    obtain ⟨t, hone, haction, hbegan, hfair, hsettled⟩ := tryWith_fair settled positive limited i a
    obtain ⟨ts, v, hrest, hactions, hinTurn⟩ := ih (w := t.ended) (hsettled ▸ limited) (i + 1)
    refine ⟨t :: ts, v, ?_, ?_, .cons hfair (haction ▸ hbegan) hinTurn⟩
    · unfold tryFromWith
      simp only [run_bind', hone, hrest, run_pure, List.map_cons]
    · rw [List.map_cons, haction, hactions]

/-- **Every action is attempted, once and in order.** Whatever handlers do that leave the settings
alone and wait for nothing but time, no fault of theirs ends a dispatch that has begun with time
for its actions. There is one attempt for each action, in the order of the actions: its handler
is called once, begins in the world in which the outcome before was fixed, as soon as its device
is free, and is stopped when its time is over; the world at the end is what those calls have
made of the first one. Outcomes have the numbers and the kinds of the actions. Each is reported
as a success with what its handler gave, if that came in time, and as a failure with an error
otherwise; and all together are a success exactly if every handler gave something in time.
Actions are carried out by `perform`, which is such a handler (`settled_perform`). -/
theorem run_attempts {handle : Handler} (settled : handle.Settled) (actions : List Action)
    (o : Occasion) {w : World} (positive : ¬ w.settings.actionTimeout ≤ 0.0)
    (begins : (w.consult .dispatch).1 = none) :
    runWith perform = run ∧ ∃ limit ts v, limit? w.settings.actionTimeout = some limit ∧
      (runWith handle actions o).run.run w = (.ok (ts.map Attempt.outcome), v) ∧
      ts.map Attempt.action = actions ∧
      Attempt.InTurn handle o limit 0 (w.consult .dispatch).2 ts v ∧
      ts.map (fun t => (t.outcome.index, t.outcome.kind))
        = actions.zipIdx.map (fun p => (p.2, p.1.kind)) ∧
      (∀ t ∈ ts, t.Reported handle o limit) ∧
      ((ts.map Attempt.outcome).all Outcome.succeeded = true ↔
        ∀ t ∈ ts, ∃ e, t.Returns handle o limit e) := by
  obtain ⟨limit, hlimit, hpositive⟩ := limit?_positive positive
  have hsettings : (w.consult .dispatch).2.settings = w.settings := settled_consult .dispatch w
  obtain ⟨ts, v, hrun, hactions, hinTurn⟩ := tryFromWith_inTurn (o := o) settled hpositive
    (hsettings ▸ hlimit) 0 actions
  refine ⟨runWith_perform, limit, ts, v, hlimit, ?_, hactions, hinTurn, ?_, fun t ht => ?_, ?_⟩
  · unfold runWith
    rw [Work.run_bind, Work.run_consult, begins]
    show (ExceptT.lift (tryFromWith handle 0 o actions)).run.run (w.consult .dispatch).2 = _
    rw [Work.run_lift, hrun]
  · rw [hinTurn.numbered, hactions]
  · obtain ⟨i, hfair⟩ := hinTurn.fair ht
    exact hfair.reported
  · rw [List.all_eq_true, List.forall_mem_map]
    refine forall₂_congr fun t ht => ?_
    obtain ⟨i, hfair⟩ := hinTurn.fair ht
    exact hfair.succeeded_iff

/-- A command, one to a device that there is not, one that takes longer than it may, and a job. -/
def trials : List Action := [
  .device ⟨"fan", .turnOn, none, none⟩, .device ⟨"pump", .turnOn, none, none⟩,
  .device ⟨"fan", .turnOff, none, none⟩, .job { queue := "water" }]

/-- A world with a fan that takes its time to stop. -/
def slowFan : World := { World.withFan with delays := [("TURN_OFF", 20000000)] }

theorem run_attempts_trials : ∃ limit ts v,
    (run trials .first).run.run slowFan = (.ok (ts.map Attempt.outcome), v) ∧
    Attempt.InTurn perform .first limit 0 (slowFan.consult .dispatch).2 ts v ∧
    ts.map (·.outcome.succeeded) = [true, false, false, true] := by
  obtain ⟨hrun, limit, ts, v, -, hts, -, hinTurn, -⟩ :=
    run_attempts settled_perform trials .first (w := slowFan) (by decide +kernel) rfl
  rw [hrun] at hts
  have hsucceeded : (match ((run trials .first).run.run slowFan).1 with
      | .ok xs => xs.map Outcome.succeeded
      | .error _ => []) = [true, false, false, true] := by decide +kernel
  rw [hts] at hsucceeded
  exact ⟨limit, ts, v, hts, hinTurn, (List.map_map (l := ts)).symm.trans hsucceeded⟩

end Dispatch

end Glasshouse
