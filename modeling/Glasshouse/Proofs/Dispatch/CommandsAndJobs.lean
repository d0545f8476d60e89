/-
Glasshouse.Proofs.Dispatch.CommandsAndJobs — what commands and jobs come to where calls fail, if
they do, in the same way every time: their outcomes and their jobs depend on the devices
that they command and on nothing else, up to the numbers of the jobs, and each device is
changed on its own. Main statement: `tryFrom_outcomesOf`.
-/
import Glasshouse.Proofs.Dispatch.InTime

namespace Glasshouse

open Calendar Plan World

/-! ## Without numbers -/

/-- An effect without the numbers of jobs. -/
def Effect.unnumbered : Effect → Effect
  | .device change revert => .device change (revert.map fun _ => 0)
  | .queued queue _ => .queued queue 0
  | .notice message delivered => .notice message delivered
  | .response status body => .response status body

/-- An outcome without the numbers of jobs. -/
def Outcome.unnumbered (o : Outcome) : Outcome := { o with result := o.result.map Effect.unnumbered }

/-- A job without its number. -/
def JobRow.unnumbered (j : JobRow) : JobRow := { j with id := 0 }

/-- The document of an effect without the numbers of jobs. -/
def Doc.blank : Doc → Doc
  | .obj fields => .obj (fields.map fun f => match f.1 with
    | .str "job_id" | .str "revert_job_id" => (f.1, .int 0)
    | _ => f)
  | d => d

/-- The document of an outcome without the numbers of jobs. -/
def Doc.unnumbered : Doc → Doc
  | .obj fields => .obj (fields.map fun f => match f.1 with
    | .str "result" => (f.1, f.2.blank)
    | _ => f)
  | d => d

theorem Effect.blank_toDoc (e : Effect) : e.toDoc.blank = e.unnumbered.toDoc := by
  cases e with
  | notice message delivered => rfl
  | device change revert => cases revert <;> rfl
  | response status body => rfl
  | queued queue job => rfl

theorem Outcome.unnumbered_toDoc (o : Outcome) : o.toDoc.unnumbered = o.unnumbered.toDoc := by
  obtain ⟨index, kind, result | effect⟩ := o
  · rfl
  · have h := effect.blank_toDoc
    show Doc.obj _ = Doc.obj _
    simp only [unnumbered, Except.map, ← h]
    rfl

theorem Outcome.succeeded_unnumbered (o : Outcome) : o.unnumbered.succeeded = o.succeeded := by
  obtain ⟨index, kind, result | effect⟩ := o
  · rfl
  · rfl

/-! ## What actions come to -/

namespace Action

variable (gate : Contact → Option Fault)

/-- What an action does to a device. -/
def on (a : Action) (d : DeviceRow) : DeviceRow :=
  match a with
  | .device a =>
    if (gate .deviceCommand).isNone && d.id == a.device then
      d.apply a.command (a.value.map Setting.stored)
    else d
  | _ => d

/-- A job put into its queue, with what comes of it then. -/
def queues (queue : String) (payload : Doc) (rank : JobRank) (e : Effect) :
    Except Fault Effect × List JobRow :=
  match gate .enqueue with
  | some f => (.error f, [])
  | none => (.ok e, [⟨0, queue, rank.name, payload, "pending"⟩])

/-- What comes of a command that is to be undone. -/
def reverts (change : DeviceChange) : Except Fault Revert → Except Fault Effect × List JobRow
  | .error f => (.error f, [])
  | .ok revert => queues gate revertQueue revert.toDoc .high (.device change (some 0))

/-- What comes of a command that was carried out. -/
def undoes (a : DeviceAction) (o : Occasion) (change : DeviceChange) :
    Except Fault Effect × List JobRow :=
  match a.duration with
  | none => (.ok (.device change none), [])
  | some minutes => reverts gate change (Revert.after a change minutes o)

/-- What comes of a command or a job where the devices are as given: its effect and the jobs
that it queues, without their numbers. Other actions are not looked at. -/
def comesTo (o : Occasion) (device? : String → Option DeviceRow) :
    Action → Except Fault Effect × List JobRow
  | .device a =>
    match gate .deviceCommand, device? a.device with
    | some f, _ => (.error f, [])
    | none, none => (.error (.deviceMissing a.device), [])
    | none, some d =>
      let e := d.apply a.command (a.value.map Setting.stored)
      undoes gate a o ⟨a.device, e.status, e.value, d.status, d.value⟩
  | .job a =>
    queues gate a.queue (.obj (Fields.set "rule_id" (.int o.ruleId) a.payload)) a.rank
      (.queued a.queue 0)
  | .notice _ | .webhook _ => (.error (.foreign .runtime ""), [])

variable {gate}

@[simp] theorem id_apply (d : DeviceRow) (c : Command) (value : Option String) :
    (d.apply c value).id = d.id := by
  cases c <;> rfl

@[simp] theorem id_on (a : Action) (d : DeviceRow) : (a.on gate d).id = d.id := by
  cases a with
  | device a =>
    simp only [on]
    split
    · exact id_apply d _ _
    · rfl
  | notice _ | webhook _ | job _ => rfl

/-- The device that an action commands. -/
def device? : Action → Option String
  | .device a => some a.device
  | _ => none

theorem on_of_ne {a : Action} {d : DeviceRow} (h : a.device? ≠ some d.id) : a.on gate d = d := by
  cases a with
  | device a =>
    simp only [on]
    rw [if_neg]
    intro hid
    rw [Bool.and_eq_true, beq_iff_eq] at hid
    exact h (congrArg some hid.2.symm)
  | notice _ | webhook _ | job _ => rfl

end Action

namespace Dispatch

variable (gate : Contact → Option Fault) (o : Occasion)

/-- What a list of actions does to a device. -/
def upon (actions : List Action) (d : DeviceRow) : DeviceRow :=
  actions.foldl (fun d a => a.on gate d) d

/-- What comes of commands and jobs, one after the other: their outcomes and the jobs that they
queue, without numbers. -/
def outcomesOf (i : Nat) (actions : List Action) (device? : String → Option DeviceRow) :
    List Outcome × List JobRow :=
  match actions with
  | [] => ([], [])
  | a :: actions =>
    let (r, js) := a.comesTo gate o device?
    let (xs, ks) := outcomesOf (i + 1) actions fun id => (device? id).map (a.on gate)
    (⟨i, a.kind, r.mapError Fault.record⟩ :: xs, js ++ ks)

variable {gate o}

@[simp] theorem id_upon (actions : List Action) (d : DeviceRow) : (upon gate actions d).id = d.id := by
  unfold upon
  induction actions generalizing d with
  | nil => rfl
  | cons a actions ih => exact (ih _).trans (a.id_on d)

theorem upon_of_ne {actions : List Action} {d : DeviceRow}
    (h : ∀ a ∈ actions, a.device? ≠ some d.id) : upon gate actions d = d := by
  unfold upon
  induction actions with
  | nil => rfl
  | cons a actions ih =>
    rw [List.forall_mem_cons] at h
    rw [List.foldl_cons, Action.on_of_ne h.1]
    exact ih h.2

/-- Actions come to the same where the devices that they command are the same. -/
theorem outcomesOf_congr {i : Nat} {actions : List Action} {p q : String → Option DeviceRow}
    (h : ∀ a ∈ actions, ∀ id, a.device? = some id → p id = q id) :
    outcomesOf gate o i actions p = outcomesOf gate o i actions q := by
  induction actions generalizing i p q with
  | nil => rfl
  | cons a actions ih =>
    rw [List.forall_mem_cons] at h
    have hone : a.comesTo gate o p = a.comesTo gate o q := by
      cases a with
      | device a => simp only [Action.comesTo, h.1 a.device rfl]
      | notice _ | webhook _ | job _ => rfl
    unfold outcomesOf
    rw [hone, ih fun b hb id hid => congrArg (Option.map _) (h.2 b hb id hid)]

end Dispatch

/-! ## Commands and jobs carried out -/

/-- A world in which devices were changed and jobs were queued. -/
def World.served (g : DeviceRow → DeviceRow) (js : List JobRow) (w : World) : World :=
  { w with store := { w.store with devices := w.store.devices.map g, jobs := w.store.jobs ++ js } }

namespace World

variable {g h : DeviceRow → DeviceRow} {js ks : List JobRow} {v w : World}

theorem served_served : (w.served g js).served h ks = w.served (h ∘ g) (js ++ ks) := by
  simp only [served, List.map_map, List.append_assoc]

theorem served_none (hg : ∀ d ∈ w.store.devices, g d = d) : w.served g [] = w := by
  have hmap : w.store.devices.map g = w.store.devices :=
    (List.map_congr_left hg).trans (List.map_id' _)
  simp only [served, hmap, List.append_nil]

theorem device?_served (hg : ∀ d, (g d).id = d.id) (id : String) :
    (w.served g js).store.device? id = (w.store.device? id).map g := by
  simp only [served, Store.device?, List.find?_map]
  refine congrArg (Option.map g) (congrArg (fun p => w.store.devices.find? p) (funext fun d => ?_))
  simp only [Function.comp_apply, hg]

end World

namespace Dispatch

variable {o : Occasion} {v u v' : World}

/-- What a job comes to when it is queued. -/
theorem queues_run (uniform : v.Uniform) (queue : String) (payload : Doc) (rank : JobRank)
    {e : Int → Effect} {e' : Effect} (he : ∀ n, (e n).unnumbered = e') :
    let run := (do
      let job ← Work.store .enqueue fun s => s.enqueue queue payload rank.name
      pure (e job) : Work Effect).run.run v
    ∃ js, (run.1.map Effect.unnumbered, js.map JobRow.unnumbered)
        = Action.queues v.gate queue payload rank e' ∧ run.2 = v.served id js := by
  simp only
  rw [Work.run_bind, Work.run_store, uniform.callStore]
  unfold Action.queues
  cases v.gate .enqueue with
  | some f => exact ⟨[], rfl, (served_none fun _ _ => rfl).symm⟩
  | none =>
    refine ⟨[⟨Store.nextId (v.store.jobs.map (·.id)), queue, rank.name, payload, "pending"⟩], ?_, ?_⟩
    · simp only [Store.enqueue, Work.run_pure, Except.map, he]
      rfl
    · simp only [served, List.map_id]
      rfl

theorem undoing_run (uniform : v.Uniform) (a : DeviceAction) (change : DeviceChange) :
    ∃ js, (((undoing a o change).run.run v).1.map Effect.unnumbered, js.map JobRow.unnumbered)
        = Action.undoes v.gate a o change ∧
      ((undoing a o change).run.run v).2 = v.served id js := by
  unfold undoing Action.undoes
  cases a.duration with
  | none => exact ⟨[], rfl, (served_none fun _ _ => rfl).symm⟩
  | some minutes =>
    simp only
    -- the outcome is made a variable first, so that no arithmetic on times is unfolded
    cases Revert.after a change minutes o with
    | error f => exact ⟨[], rfl, (served_none fun _ _ => rfl).symm⟩
    | ok revert =>
      rw [Work.run_bind, Work.run_ofExcept]
      exact queues_run uniform revertQueue revert.toDoc .high
        (e := fun job => .device change (some job)) fun _ => rfl

/-- A command or a job comes to what it comes to, and changes devices and jobs alone. -/
theorem promptly_run (uniform : v.Uniform) {a : Action} (domestic : a.domestic = true) :
    ∃ js, (((promptly a o).run.run v).1.map Effect.unnumbered, js.map JobRow.unnumbered)
        = a.comesTo v.gate o v.store.device? ∧
      ((promptly a o).run.run v).2 = v.served (a.on v.gate) js := by
  cases a with
  | notice a => cases domestic
  | webhook a => cases domestic
  | job a =>
    exact queues_run uniform a.queue (.obj (Fields.set "rule_id" (.int o.ruleId) a.payload)) a.rank
      (e := fun job => .queued a.queue job) fun _ => rfl
  | device a =>
    unfold promptly
    rw [Work.run_bind, Work.run_store, uniform.callStore]
    simp only [Action.comesTo]
    cases hgate : v.gate .deviceCommand with
    | some f =>
      refine ⟨[], rfl, (served_none fun d _ => ?_).symm⟩
      simp [Action.on, hgate]
    | none =>
      have hname : Command.ofName? a.command.name = some a.command := by
        cases a.command <;> rfl
      simp only [Store.command, hname]
      cases hd : v.store.device? a.device with
      | none =>
        refine ⟨[], rfl, (served_none fun d hmem => Action.on_of_ne fun hid => ?_).symm⟩
        have hne := List.find?_eq_none.1 hd d hmem
        exact hne (beq_iff_eq.2 (Option.some.inj hid).symm)
      | some d =>
        have hon : v.served ((Action.device a).on v.gate) [] = { v with
            store := v.store.applyCommand a.device a.command (a.value.map Setting.stored) } := by
          have hrow : (Action.device a).on v.gate = fun d => if d.id == a.device then
              d.apply a.command (a.value.map Setting.stored) else d := by
            funext d
            simp only [Action.on, hgate, Option.isNone_none, Bool.true_and]
          simp only [served, Store.applyCommand, List.append_nil, hrow]
        simp only [← hon]
        obtain ⟨js, hjs, hworld⟩ := undoing_run (o := o)
          (v := v.served ((Action.device a).on v.gate) []) uniform a
          ⟨a.device, (d.apply a.command (a.value.map Setting.stored)).status,
            (d.apply a.command (a.value.map Setting.stored)).value, d.status, d.value⟩
        exact ⟨js, hjs, hworld.trans served_served⟩

/-- Commands and jobs that are not given up come to what they come to, one after the other, and
change devices and jobs alone, apart from the traces of waits. -/
theorem tryFrom_outcomesOf {i : Nat} {actions : List Action} (uniform : v.Uniform)
    (domestic : ∀ a ∈ actions, a.domestic = true) {xs : List Outcome}
    (run : (tryFrom i o actions).run v = (xs, v')) (timely : ∀ x ∈ xs, ¬ x.TimedOut)
    (aloft : ∀ f ∈ v.flights, v'.elapsed < f.due) :
    ∃ js, (xs.map Outcome.unnumbered, js.map JobRow.unnumbered)
        = outcomesOf v.gate o i actions v.store.device? ∧
      v' = (v.served (upon v.gate actions) js).withTraces v'.traces := by
  induction actions generalizing i v xs with
  | nil =>
    cases run
    refine ⟨[], rfl, ?_⟩
    rw [served_none (g := upon v'.gate []) fun _ _ => rfl]
    exact (withTraces_traces v').symm
  | cons a actions ih =>
    rw [List.forall_mem_cons] at domestic
    obtain ⟨x, u, ys, hone, hrest, rfl⟩ := tryFrom_cons run
    rw [List.forall_mem_cons] at timely
    have hlater := (along_tryFrom working_atOnce.toDispatching (i + 1) o actions).elapsed_le u
    rw [hrest] at hlater
    obtain ⟨r, w, hprompt, hu, rfl⟩ := tryOne_prompt domestic.1 hone timely.1 fun f hf =>
      Nat.lt_of_le_of_lt hlater (aloft f hf)
    obtain ⟨js, hjs, hw⟩ := promptly_run (o := o) uniform domestic.1
    rw [hprompt] at hjs hw
    obtain rfl : w = v.served (a.on v.gate) js := hw
    have hgate : u.gate = v.gate := by
      rw [hu]
      rfl
    have huniform : u.Uniform := by
      rw [hu]
      exact uniform
    have hflights : u.flights = v.flights := by
      rw [hu]
      rfl
    have hdevice : u.store.device? = fun id => (v.store.device? id).map (a.on v.gate) := by
      rw [hu]
      exact funext fun id => device?_served a.id_on id
    obtain ⟨ks, hks, hz⟩ := ih huniform domestic.2 hrest timely.2 fun f hf =>
      aloft f (hflights ▸ hf)
    refine ⟨js ++ ks, ?_, ?_⟩
    · unfold outcomesOf
      rw [← hjs, ← hdevice, ← hgate, ← hks]
      simp only [List.map_cons, List.map_append, Outcome.unnumbered]
      cases r with
      | ok e => rfl
      | error f => rfl
    · rw [hgate] at hz
      generalize v'.traces = t at hz ⊢
      rw [hz, hu]
      show (((v.served (a.on v.gate) js).served (upon v.gate actions) ks).withTraces t) = _
      rw [served_served]
      rfl

end Dispatch

end Glasshouse
