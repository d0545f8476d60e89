/-
Glasshouse.Proofs.Dispatch.InTime — actions that are over in time. A command that nothing holds up
does to the store what it would do without any delay, and so does a job
(`tryOne_prompt`): what the waits leave behind are the time, the number of the next
command, the list of those that have arrived and the table of the last ones
(`World.Traces`).
-/
import Glasshouse.Proofs.World.Passing

namespace Glasshouse

open Calendar Plan World

/-! ## Traces of waits -/

/-- What waits leave behind in a world. -/
structure World.Traces where
  elapsed : Duration
  tickets : Nat
  landed : Table Nat (Except Fault DeviceChange)
  writes : Table String Nat

/-- What waits have left behind in a world. -/
def World.traces (w : World) : World.Traces := ⟨w.elapsed, w.tickets, w.landed, w.writes⟩

/-- A world in which time has gone on and commands have arrived. -/
def World.withTraces (t : World.Traces) (w : World) : World :=
  { w with elapsed := t.elapsed, tickets := t.tickets, landed := t.landed, writes := t.writes }

/-- A world in which one more command is on its way. -/
def World.launch (f : Flight) (w : World) : World :=
  { w with
    tickets := w.tickets + 1
    flights := w.flights ++ [f]
    writes := w.writes.put f.device f.ticket }

namespace World

variable {v w : World} {t : Traces}

@[simp] theorem withTraces_traces (w : World) : w.withTraces w.traces = w := rfl

theorem sameView_withTraces (t : Traces) (w : World) : SameView (w.withTraces t) w :=
  ⟨rfl, rfl, rfl, fun _ _ => rfl⟩

theorem consult_withTraces (c : Contact) (w : World) :
    (w.withTraces t).consult c = ((w.consult c).1, (w.consult c).2.withTraces t) := by
  unfold consult
  rw [show (w.withTraces t).outages = w.outages from rfl]
  cases w.outages.get? c with
  | none => rfl
  | some s => rfl

/-- A call to the store does not see the traces of waits. -/
theorem callStore_withTraces {α : Type} (c : Contact) (f : Store → Except Fault (α × Store))
    (w : World) :
    (w.withTraces t).callStore c f = ((w.callStore c f).1, (w.callStore c f).2.withTraces t) := by
  unfold callStore
  rw [consult_withTraces]
  rcases w.consult c with ⟨_ | fault, v⟩
  · simp only
    rw [show (v.withTraces t).store = v.store from rfl]
    cases f v.store with
    | ok p => rfl
    | error fault => rfl
  · rfl

theorem callStore_still {α : Type} (c : Contact) (f : Store → Except Fault (α × Store))
    (w : World) :
    (w.callStore c f).2.elapsed = w.elapsed ∧ (w.callStore c f).2.flights = w.flights := by
  obtain ⟨t, ht⟩ := w.consult_failing c
  unfold callStore
  rcases hc : w.consult c with ⟨_ | fault, v⟩
  · obtain rfl : v = w.failing t := by rw [hc] at ht; exact ht
    simp only
    cases f (w.failing t).store with
    | ok p => exact ⟨rfl, rfl⟩
    | error fault => exact ⟨rfl, rfl⟩
  · obtain rfl : v = w.failing t := by rw [hc] at ht; exact ht
    exact ⟨rfl, rfl⟩

/-- A wait of no length in which no command arrives. -/
theorem elapse_zero (aloft : ∀ f ∈ w.flights, w.elapsed < f.due) : w.elapse 0 = w :=
  elapse_of_aloft aloft

/-- A command that is the only one to arrive. -/
theorem elapse_own {own : Flight} {d : Duration} (due : own.due = w.elapsed + d)
    (aloft : ∀ f ∈ w.flights, w.elapsed + d < f.due) :
    (w.launch own).elapse d = (w.withTraces ⟨w.elapsed + d, w.tickets + 1, w.landed,
      w.writes.put own.device own.ticket⟩).land own := by
  obtain ⟨hnone, hall⟩ := flights_of_aloft aloft
  have harriving : (w.flights ++ [own]).filter (fun f => decide (f.due ≤ w.elapsed + d))
      = [own] := by
    rw [List.filter_append, hnone, List.nil_append, List.filter_singleton, due]
    simp
  have hstaying : (w.flights ++ [own]).filter (fun f => !decide (f.due ≤ w.elapsed + d))
      = w.flights := by
    rw [List.filter_append, hall, List.filter_singleton, due]
    simp
  unfold elapse launch
  simp only [harriving, hstaying, List.mergeSort_singleton, List.foldl_cons, List.foldl_nil]
  rfl

end World

namespace Dispatch

/-! ## Commands in time -/

/-- What a command finds when it arrives, and what it leaves behind. -/
theorem land_result (f : Flight) (w : World) (t : Table Contact (Script (Option Fault))) :
    (w.failing t).land f = (match f.fault with
        | some _ => w.failing t
        | none => match w.store.command f.device f.command f.value with
          | .ok (_, s) => ({ w with store := s } : World).failing t
          | .error _ => w.failing t).withTraces ((w.failing t).land f).traces
      ∧ ((w.failing t).land f).landed.get? f.ticket = some (match f.fault with
        | some e => .error e
        | none => (w.store.command f.device f.command f.value).map (·.1)) := by
  rw [land_eq, Table.get?_put, if_pos rfl]
  unfold resultOf
  rw [show (w.failing t).store = w.store from rfl]
  cases f.fault with
  | some e => exact ⟨rfl, rfl⟩
  | none => cases w.store.command f.device f.command f.value <;> exact ⟨rfl, rfl⟩

/-- Where no other command arrives, a command does to the store what it does without a
delay. -/
theorem commandDevice_run {device name : String} {value : Option String} {v v' : World}
    {r : Except Fault DeviceChange} (run : (commandDevice device name value).run.run v = (r, v'))
    (aloft : ∀ f ∈ v.flights, v'.elapsed < f.due) :
    r = (v.callStore .deviceCommand (·.command device name value)).1 ∧
      v' = (v.callStore .deviceCommand (·.command device name value)).2.withTraces v'.traces := by
  obtain ⟨t, ht⟩ := v.consult_failing .deviceCommand
  unfold callStore
  rcases hc : v.consult .deviceCommand with ⟨fault, u⟩
  obtain rfl : u = v.failing t := by rw [hc] at ht; exact ht
  -- the command takes off, and it is the only one that arrives while it is waited for
  obtain ⟨delay, htake⟩ : ∃ delay, takeOff device name value v = ((v.tickets, delay),
      (v.failing t).launch ⟨v.tickets, device, name, value, v.elapsed + delay, fault⟩) := by
    unfold takeOff
    rw [hc]
    exact ⟨_, rfl⟩
  unfold commandDevice at run
  simp only [Work.run_bind, Work.run_lift, run_change, htake, run_look, Work.run_ofExcept] at run
  have hv' : ((v.failing t).launch
      ⟨v.tickets, device, name, value, v.elapsed + delay, fault⟩).elapse delay = v' :=
    congrArg Prod.snd run
  have hr : (v'.landed.get? v.tickets).getD (.error (.deviceMissing device)) = r :=
    hv' ▸ congrArg Prod.fst run
  have helapsed : v'.elapsed = v.elapsed + delay := by
    rw [← hv']
    exact elapsed_elapse _ _
  rw [helapsed] at aloft
  have hlanded : v' = ((v.withTraces ⟨v.elapsed + delay, v.tickets + 1, v.landed,
      v.writes.put device v.tickets⟩).failing t).land
        ⟨v.tickets, device, name, value, v.elapsed + delay, fault⟩ :=
    hv'.symm.trans (elapse_own (w := v.failing t) rfl aloft)
  obtain ⟨hworld, hresult⟩ := land_result
    ⟨v.tickets, device, name, value, v.elapsed + delay, fault⟩
    (v.withTraces ⟨v.elapsed + delay, v.tickets + 1, v.landed, v.writes.put device v.tickets⟩) t
  rw [← hlanded] at hworld hresult
  rw [hresult] at hr
  rw [← hr]
  cases fault with
  | some e => exact ⟨rfl, hworld⟩
  | none =>
    simp only at hworld ⊢
    rw [show (v.failing t).store = v.store from rfl]
    rw [show (v.withTraces ⟨v.elapsed + delay, v.tickets + 1, v.landed,
      v.writes.put device v.tickets⟩).store = v.store from rfl] at hworld ⊢
    revert hworld
    cases v.store.command device name value with
    | ok p => exact fun hworld => ⟨rfl, hworld⟩
    | error e => exact fun hworld => ⟨rfl, hworld⟩

/-! ## Actions without their waits -/

/-- The job that undoes a command, without the wait before it is queued. -/
def undoing (a : DeviceAction) (o : Occasion) (change : DeviceChange) : Work Effect :=
  match a.duration with
  | none => pure (.device change none)
  | some minutes => do
    let revert ← Work.ofExcept (Revert.after a change minutes o)
    let job ← Work.store .enqueue fun s => s.enqueue revertQueue revert.toDoc JobRank.high.name
    pure (.device change (some job))

/-- A command or a job without the waits that it takes. -/
def promptly (a : Action) (o : Occasion) : Work Effect :=
  match a with
  | .device a => do
    let change ← Work.store .deviceCommand fun s =>
      s.command a.device a.command.name (a.value.map Setting.stored)
    undoing a o change
  | .job a => do
    let payload := Doc.obj (Fields.set "rule_id" (.int o.ruleId) a.payload)
    let job ← Work.store .enqueue fun s => s.enqueue a.queue payload a.rank.name
    pure (.queued a.queue job)
  | .notice a => notify a o
  | .webhook a => callWebhook a.url.text a.method.name a.headers (a.payload.map Doc.obj)

/-- Where no command arrives, a moment's wait changes nothing. -/
theorem yield_run {α : Type} {x : Work α} {v : World}
    (aloft : ∀ f ∈ v.flights, v.elapsed < f.due) :
    (do ExceptT.lift Plan.yield; x : Work α).run.run v = x.run.run v := by
  rw [Work.run_bind, Work.run_lift]
  show x.run.run (v.elapse 0) = _
  rw [elapse_zero aloft]

theorem undo_run {a : DeviceAction} {o : Occasion} {change : DeviceChange} {v : World}
    (aloft : ∀ f ∈ v.flights, v.elapsed < f.due) :
    (match a.duration with
      | none => pure (.device change none)
      | some minutes => do
        let revert ← Work.ofExcept (Revert.after a change minutes o)
        ExceptT.lift Plan.yield
        let job ← Work.store .enqueue fun s =>
          s.enqueue revertQueue revert.toDoc JobRank.high.name
        pure (.device change (some job)) : Work Effect).run.run v
      = (undoing a o change).run.run v := by
  unfold undoing
  cases a.duration with
  | none => rfl
  | some minutes =>
    simp only
    -- the outcome is made a variable first, so that no arithmetic on times is unfolded
    cases Revert.after a change minutes o with
    | error e => rfl
    | ok revert => exact yield_run aloft

end Dispatch

/-- Work that does not see the traces of waits. -/
def Work.IgnoresTraces {α : Type} (x : Work α) : Prop := ∀ w t,
  x.run.run (World.withTraces t w) = ((x.run.run w).1, World.withTraces t (x.run.run w).2)

namespace Work.IgnoresTraces

variable {α β : Type}

protected theorem pure (a : α) : Work.IgnoresTraces (pure a) := fun _ _ => rfl

protected theorem ofExcept (x : Except Fault α) : Work.IgnoresTraces (Work.ofExcept x) :=
  fun _ _ => rfl

protected theorem store (c : Contact) (f : Store → Except Fault (α × Store)) :
    Work.IgnoresTraces (Work.store c f) := fun w _ => callStore_withTraces c f w

protected theorem bind {x : Work α} {f : α → Work β} (hx : Work.IgnoresTraces x)
    (hf : ∀ a, Work.IgnoresTraces (f a)) : Work.IgnoresTraces (x >>= f) := by
  intro w t
  rw [Work.run_bind, Work.run_bind, hx w t]
  rcases x.run.run w with ⟨_ | a, v⟩
  · rfl
  · exact hf a v t

theorem undoing (a : DeviceAction) (o : Occasion) (change : DeviceChange) :
    Work.IgnoresTraces (Dispatch.undoing a o change) := by
  unfold Dispatch.undoing
  cases a.duration with
  | none => exact .pure _
  | some minutes =>
    exact .bind (.ofExcept _) fun revert => .bind (.store _ _) fun job => .pure _

end Work.IgnoresTraces

namespace Dispatch

theorem control_run {a : DeviceAction} {o : Occasion} {v v' : World} {r : Except Fault Effect}
    (run : (control a o).run.run v = (r, v')) (aloft : ∀ f ∈ v.flights, v'.elapsed < f.due) :
    r = ((promptly (.device a) o).run.run v).1 ∧
      v' = ((promptly (.device a) o).run.run v).2.withTraces v'.traces := by
  unfold control at run
  rw [Work.run_bind] at run
  unfold promptly
  rw [Work.run_bind, Work.run_store]
  rcases hcommand : (commandDevice a.device a.command.name (a.value.map Setting.stored)).run.run v
    with ⟨x, u⟩
  rw [hcommand] at run
  have hlater : u.elapsed ≤ v'.elapsed := by
    cases x with
    | error e => exact Nat.le_of_eq (congrArg (·.2.elapsed) run)
    | ok change =>
      exact Nat.le_trans ((along_undo working_atOnce.toOrdinary a o change).elapsed_le u)
        (Nat.le_of_eq (congrArg (·.2.elapsed) run))
  obtain ⟨hx, hu⟩ := commandDevice_run hcommand fun f hf =>
    Nat.lt_of_le_of_lt hlater (aloft f hf)
  have hstill := v.callStore_still .deviceCommand
    fun s => s.command a.device a.command.name (a.value.map Setting.stored)
  rcases hc : v.callStore .deviceCommand
    fun s => s.command a.device a.command.name (a.value.map Setting.stored) with ⟨y, z⟩
  rw [hc] at hx hu hstill
  simp only at hx hu hstill
  subst hx
  cases x with
  | error e =>
    cases run
    exact ⟨rfl, hu⟩
  | ok change =>
    have haloft : ∀ f ∈ u.flights, u.elapsed < f.due := fun f hf =>
      Nat.lt_of_le_of_lt hlater (aloft f (by rw [hu] at hf; exact hstill.2 ▸ hf))
    have hrun := (undo_run haloft).symm.trans run
    rw [hu, Work.IgnoresTraces.undoing a o change] at hrun
    obtain ⟨rfl, rfl⟩ := Prod.mk.inj hrun
    exact ⟨rfl, rfl⟩

/-- A job that nothing holds up is queued as it is without the wait before it. -/
theorem enqueue_run {a : JobAction} {o : Occasion} {v v' : World} {r : Except Fault Effect}
    (run : (enqueue a o).run.run v = (r, v')) (aloft : ∀ f ∈ v.flights, v'.elapsed < f.due) :
    r = ((promptly (.job a) o).run.run v).1 ∧
      v' = ((promptly (.job a) o).run.run v).2.withTraces v'.traces := by
  have hlater : v.elapsed ≤ v'.elapsed := by
    have h := Plan.Along.elapsed_le (along_perform working_atOnce.toDispatching (.job a) o) v
    exact Nat.le_trans h (Nat.le_of_eq (congrArg (·.2.elapsed) run))
  have hrun := (yield_run fun f hf => Nat.lt_of_le_of_lt hlater (aloft f hf)).symm.trans run
  obtain ⟨rfl, rfl⟩ := Prod.mk.inj hrun
  exact ⟨rfl, rfl⟩

end Dispatch

/-! ## Actions that are not given up -/

/-- An action that was given up when its time was over, or that gave up itself. -/
def Outcome.TimedOut (o : Outcome) : Prop :=
  ∃ seconds, o.result = .error (Fault.actionTimedOut o.kind seconds).record

/-- A command or a job: an action that stays in the house. -/
def Action.domestic : Action → Bool
  | .device _ | .job _ => true
  | _ => false

namespace Dispatch

theorem settle_timely {kind : String} {seconds : Float} {x : Option (Except Fault Effect)}
    {r : Except String Effect} (settled : settle kind seconds x = r)
    (timely : r ≠ .error (Fault.actionTimedOut kind seconds).record) :
    ∃ y, x = some y ∧ r = y.mapError Fault.record := by
  subst settled
  rcases x with _ | (f | e)
  · exact absurd rfl timely
  · refine ⟨_, rfl, ?_⟩
    unfold settle at timely ⊢
    split at timely
    · rename_i h
      cases h
    · rename_i h
      cases h
    · exact absurd rfl timely
    · rename_i h
      cases h
      rfl
  · exact ⟨_, rfl, rfl⟩

/-- What ends within its time limit does what it does a moment later without one. -/
theorem limited_elapsed {α : Type} {S : World → World → Prop} {seconds : Float} {p : Activity α}
    (hp : Plan.Along S p) {v v' : World} {a : α}
    (run : (limited seconds p).run v = (some a, v')) : p.run (v.elapse 0) = (a, v') := by
  unfold limited at run
  rw [run_bind', show Plan.yield.run v = ((), v.elapse 0) from rfl] at run
  cases hlimit : limit? seconds with
  | none =>
    rw [hlimit] at run
    cases congrArg Prod.fst run
  | some d =>
    rw [hlimit] at run
    exact hp.run_of_within run

theorem limited_run {α : Type} {S : World → World → Prop} {seconds : Float} {p : Activity α}
    (hp : Plan.Along S p) {v v' : World} {a : α}
    (run : (limited seconds p).run v = (some a, v')) (aloft : ∀ f ∈ v.flights, v.elapsed < f.due) :
    p.run v = (a, v') := by
  have h := limited_elapsed hp run
  rwa [elapse_zero aloft] at h

/-- The last command to a device is one of those on their way, if it is not over. -/
theorem mem_of_pending {device : String} {v : World} {f : Flight}
    (h : v.pending? device = some f) : f ∈ v.flights ∧ f.device = device := by
  obtain ⟨n, -, hfind⟩ := Option.bind_eq_some_iff.1 h
  have hf := List.find?_some hfind
  rw [Bool.and_eq_true, beq_iff_eq, beq_iff_eq] at hf
  exact ⟨List.mem_of_find?_eq_some hfind, hf.2⟩

/-- Where the last command to a device is over, nobody waits for it. -/
theorem awaitLast_of_none {device : String} {v : World} (h : v.pending? device = none) (n : Nat) :
    (awaitLast device n).run v = ((), v) := by
  cases n with
  | zero => rfl
  | succ n =>
    unfold awaitLast
    rw [run_bind', run_look, h]
    rfl

/-- A device whose last command is over is not waited for; to wait for one, a command has to
arrive. -/
theorem awaitDevice_run {device : String} {v : World}
    (aloft : ∀ f ∈ v.flights, ((awaitDevice device).run v).2.elapsed < f.due) :
    (awaitDevice device).run v = ((), v) := by
  have hrun : (awaitDevice device).run v = (awaitLast device v.flights.length).run v := by
    unfold awaitDevice
    rw [run_bind', run_look]
  rw [hrun] at aloft ⊢
  cases hpending : v.pending? device with
  | none => exact awaitLast_of_none hpending _
  | some f =>
    have hmem := (mem_of_pending hpending).1
    obtain ⟨n, hn⟩ : ∃ n, v.flights.length = n + 1 :=
      Nat.exists_eq_add_one.2 (List.length_pos_of_mem hmem)
    have hstep : (awaitLast device (n + 1)).run v
        = (awaitLast device n).run (v.elapse (f.due - v.elapsed)) := by
      conv_lhs => unfold awaitLast
      rw [run_bind', run_look, hpending]
      exact run_bind' (Plan.sleep _) _ _
    have hlater := (along_awaitLast atOnce_refl device n).elapsed_le
      (v.elapse (f.due - v.elapsed))
    rw [elapsed_elapse] at hlater
    have hlate := aloft f hmem
    rw [hn, hstep] at hlate
    have hdue : f.due ≤ v.elapsed + (f.due - v.elapsed) :=
      Nat.sub_le_iff_le_add'.1 (Nat.le_refl _)
    exact absurd hlate (Nat.not_lt.2 (Nat.le_trans hdue hlater))

/-- A command or a job that is not given up has the outcome that it has without waits, and
leaves the store as it does then. -/
theorem tryOne_prompt {a : Action} (domestic : a.domestic = true) {i : Nat} {o : Occasion}
    {v v' : World} {x : Outcome} (run : (tryOne i a o).run v = (x, v')) (timely : ¬ x.TimedOut)
    (aloft : ∀ f ∈ v.flights, v'.elapsed < f.due) :
    ∃ r u, (promptly a o).run.run v = (r, u) ∧ v' = u.withTraces v'.traces ∧
      x = ⟨i, a.kind, r.mapError Fault.record⟩ := by
  have hlater : v.elapsed ≤ v'.elapsed :=
    Nat.le_trans ((along_tryOne working_atOnce.toDispatching i a o).elapsed_le v)
      (Nat.le_of_eq (congrArg (·.2.elapsed) run))
  have haloft : ∀ f ∈ v.flights, v.elapsed < f.due := fun f hf =>
    Nat.lt_of_le_of_lt hlater (aloft f hf)
  -- no command to the device is on its way, so it is not waited for
  have hrun : (do
      let seconds ← Plan.look fun w : World => w.settings.actionTimeout
      let result ← limited seconds (perform a o).run
      pure (⟨i, a.kind, settle a.kind seconds result⟩ : Outcome) : Activity Outcome).run v
        = (x, v') := by
    cases a with
    | notice a => cases domestic
    | webhook a => cases domestic
    | job j => exact run
    | device d =>
      unfold tryOne at run
      rw [run_bind'] at run
      have hwaited := (along_tried atOnce_refl i (along_perform working_atOnce.toDispatching
        (.device d) o)).elapsed_le ((awaitDevice d.device).run v).2
      rw [run] at hwaited
      rwa [awaitDevice_run fun f hf => Nat.lt_of_le_of_lt hwaited (aloft f hf)] at run
  simp only [run_bind', run_look, run_pure] at hrun
  rcases hlimited : (limited v.settings.actionTimeout (perform a o).run).run v with ⟨y, u⟩
  rw [hlimited] at hrun
  obtain ⟨rfl, rfl⟩ := Prod.mk.inj hrun
  obtain ⟨z, rfl, hz⟩ := settle_timely rfl fun h => timely ⟨_, h⟩
  have hperform := limited_run (along_perform working_atOnce.toDispatching a o) hlimited haloft
  cases a with
  | notice a => cases domestic
  | webhook a => cases domestic
  | device d =>
    obtain ⟨hr, hu⟩ := control_run hperform aloft
    exact ⟨z, _, Prod.ext hr.symm rfl, hu, by rw [hz]⟩
  | job j =>
    obtain ⟨hr, hu⟩ := enqueue_run hperform aloft
    exact ⟨z, _, Prod.ext hr.symm rfl, hu, by rw [hz]⟩

/-- The first action is tried, and then the others. -/
theorem tryFrom_cons {i : Nat} {o : Occasion} {a : Action} {actions : List Action} {v v' : World}
    {xs : List Outcome} (run : (tryFrom i o (a :: actions)).run v = (xs, v')) :
    ∃ x u ys, (tryOne i a o).run v = (x, u) ∧ (tryFrom (i + 1) o actions).run u = (ys, v')
      ∧ xs = x :: ys := by
  unfold tryFrom at run
  simp only [run_bind', run_pure] at run
  cases run
  exact ⟨_, _, _, rfl, rfl, rfl⟩

end Dispatch

end Glasshouse
