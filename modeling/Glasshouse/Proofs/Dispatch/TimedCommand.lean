/-
Glasshouse.Proofs.Dispatch.TimedCommand — a timed command to one device, while others may be on
their way to other devices. What arrives elsewhere touches neither the device nor the jobs
nor the answer to the command (`NoFlightTo.elapse`). So a command that succeeds has found
the device as it was when it was tried, leaves it as it makes it, and has queued the job
that undoes it. Main statement: `Dispatch.tryOne_timed`.
-/
import Glasshouse.Proofs.Service.Handling
import Glasshouse.Proofs.Dispatch.Revert

namespace Glasshouse

open Calendar Plan World

/-! ## Calls to the store -/

namespace Store

variable {s t : Store}

theorem jobs_of_command {id name : String} {value : Option String} {change : DeviceChange}
    (h : s.command id name value = .ok (change, t)) : t.jobs = s.jobs := by
  unfold command at h
  split at h
  · cases h
  · cases h
  · cases h
    rfl

/-- The payload of a job is found under the number of the job. -/
theorem payload_of_enqueue {queue rank : String} {payload : Doc} {job : Int}
    (h : s.enqueue queue payload rank = .ok (job, t)) {j : JobRow} (hj : j ∈ t.jobs)
    (hid : j.id = job) : j.payload = payload := by
  cases h
  rcases List.mem_append.1 hj with hold | hnew
  · have hlt : j.id < _ := lt_nextId (List.mem_map_of_mem hold)
    rw [hid] at hlt
    exact absurd hlt (Int.lt_irrefl _)
  · rw [List.mem_singleton.1 hnew]

theorem device?_of_enqueue {queue rank : String} {payload : Doc} {job : Int}
    (h : s.enqueue queue payload rank = .ok (job, t)) (id : String) :
    t.device? id = s.device? id := by
  cases h
  rfl

end Store

theorem Work.store_of_run {α : Type} {c : Contact} {f : Store → Except Fault (α × Store)} {a : α}
    {v w : World} (h : (Work.store c f).run.run v = (.ok a, w)) :
    f v.store = .ok (a, w.store) := by
  rw [Work.run_store] at h
  rcases v.callStore_cases c f with ⟨b, s, -, hf, hb, t, hw⟩ | ⟨⟨e, he⟩, -⟩
  · rw [h] at hb hw
    cases hb
    rw [hf, show w = _ from hw]
    rfl
  · rw [h] at he
    cases he

/-! ## Commands that arrive elsewhere -/

namespace World

variable {device : String} {n : Nat} {u v w : World}

/-- What has arrived between two worlds went past a device, and had other numbers than `n`. -/
structure ArrivedElsewhere (device : String) (n : Nat) (v w : World) : Prop where
  device : w.store.device? device = v.store.device? device
  jobs : w.store.jobs = v.store.jobs
  landed : w.landed.get? n = v.landed.get? n

theorem ArrivedElsewhere.trans (h : ArrivedElsewhere device n u v)
    (h' : ArrivedElsewhere device n v w) : ArrivedElsewhere device n u w :=
  ⟨h'.device.trans h.device, h'.jobs.trans h.jobs, h'.landed.trans h.landed⟩

theorem jobs_land (f : Flight) (w : World) : (w.land f).store.jobs = w.store.jobs := by
  rw [land_eq]
  unfold resultOf
  cases f.fault with
  | some e => rfl
  | none =>
    cases hcommand : w.store.command f.device f.command f.value with
    | error e => rfl
    | ok p => exact Store.jobs_of_command hcommand

/-- A command that is carried out leaves the store that the device leaves. -/
theorem command_of_resultOf {f : Flight} {w : World} {p : DeviceChange × Store}
    (h : w.resultOf f = .ok p) :
    w.store.command f.device f.command f.value = .ok (p.1, (w.land f).store) := by
  rw [land_eq, h]
  unfold resultOf at h
  cases hfault : f.fault with
  | some e => simp [hfault] at h
  | none =>
    rw [hfault] at h
    exact h

theorem arrivedElsewhere_land {f : Flight} (hdevice : f.device ≠ device) (hticket : f.ticket ≠ n)
    (w : World) : ArrivedElsewhere device n w (w.land f) := by
  refine ⟨?_, jobs_land f w, by rw [land_eq, Table.get?_put, if_neg hticket]⟩
  simp [device?_land, hdevice]

theorem arrivedElsewhere_landAll {fs : List Flight} (h : ∀ f ∈ fs, f.device ≠ device ∧ f.ticket ≠ n)
    (w : World) : ArrivedElsewhere device n w (fs.foldl land w) := by
  induction fs generalizing w with
  | nil => exact ⟨rfl, rfl, rfl⟩
  | cons f fs ih =>
    obtain ⟨⟨hdevice, hticket⟩, hfs⟩ := List.forall_mem_cons.1 h
    exact (arrivedElsewhere_land hdevice hticket w).trans (ih hfs _)

/-- No command is on its way to a device, and numbers are still to be given in order. -/
structure NoFlightTo (device : String) (w : World) : Prop where
  away : ∀ f ∈ w.flights, f.device ≠ device
  numbered : ∀ f ∈ w.flights, f.ticket < w.tickets

theorem NoFlightTo.others (h : w.NoFlightTo device) {f : Flight} (hf : f ∈ w.flights) :
    f.device ≠ device ∧ f.ticket ≠ w.tickets :=
  ⟨h.away f hf, Nat.ne_of_lt (h.numbered f hf)⟩

/-- What is still on its way was so before. -/
theorem NoFlightTo.of_fewer (h : v.NoFlightTo device) (fewer : ∀ f ∈ w.flights, f ∈ v.flights)
    (later : v.tickets ≤ w.tickets) : w.NoFlightTo device :=
  ⟨fun f hf => h.away f (fewer f hf),
    fun f hf => Nat.lt_of_lt_of_le (h.numbered f (fewer f hf)) later⟩

/-- While time passes, commands arrive at other devices. -/
theorem NoFlightTo.elapse (h : w.NoFlightTo device) (d : Duration) :
    (w.elapse d).NoFlightTo device ∧ ArrivedElsewhere device w.tickets w (w.elapse d) := by
  obtain ⟨fs, hperm, helapse⟩ := elapse_eq d w
  have hothers : ∀ f ∈ fs, f.device ≠ device ∧ f.ticket ≠ w.tickets := fun f hf =>
    h.others (List.mem_filter.1 (hperm.mem_iff.1 hf)).1
  obtain ⟨s, l, t, hshape⟩ := landAll_shape fs (w.advanced d)
  obtain ⟨hdevice, hjobs, hlanded⟩ := arrivedElsewhere_landAll hothers (w.advanced d)
  rw [helapse]
  refine ⟨h.of_fewer (fun f hf => ?_) (Nat.le_of_eq (by rw [hshape]; rfl)),
    hdevice, hjobs, hlanded⟩
  rw [hshape] at hf
  exact (List.mem_filter.1 hf).1

/-- A command that is due after a length of time is among those that arrive in it. -/
theorem arrivals_launch {own : Flight} {d : Duration} (hdue : own.due = w.elapsed + d) :
    ((w.launch own).flights.filter fun f => decide (f.due ≤ (w.launch own).elapsed + d)).Perm
      (own :: w.flights.filter fun f => decide (f.due ≤ w.elapsed + d)) := by
  have hown : [own].filter (fun f => decide (f.due ≤ w.elapsed + d)) = [own] := by simp [hdue]
  show ((w.flights ++ [own]).filter fun f => decide (f.due ≤ w.elapsed + d)).Perm _
  rw [List.filter_append, hown]
  exact List.perm_append_singleton _ _

/-- One more command arrives in its time, between those that are on their way to others. -/
theorem NoFlightTo.elapse_own (h : w.NoFlightTo device) {own : Flight} {d : Duration}
    (hdue : own.due = w.elapsed + d) : ∃ u, ArrivedElsewhere device w.tickets w u ∧
      ArrivedElsewhere device w.tickets (u.land own) ((w.launch own).elapse d) ∧
      ((w.launch own).elapse d).NoFlightTo device := by
  obtain ⟨fs, hperm, helapse⟩ := elapse_eq d (w.launch own)
  have hall := hperm.trans (arrivals_launch hdue)
  -- the command itself stands somewhere among those that arrive
  obtain ⟨before, after, rfl⟩ := List.mem_iff_append.1 (hall.mem_iff.2 List.mem_cons_self)
  have hrest := (List.perm_middle.symm.trans hall).cons_inv
  have hothers : ∀ f ∈ before ++ after, f.device ≠ device ∧ f.ticket ≠ w.tickets := fun f hf =>
    h.others (List.mem_filter.1 (hrest.mem_iff.1 hf)).1
  obtain ⟨s, l, t, hshape⟩ :=
    landAll_shape (before ++ own :: after) ((w.launch own).advanced d)
  rw [helapse]
  rw [List.foldl_append, List.foldl_cons] at hshape ⊢
  obtain ⟨hdevice, hjobs, hlanded⟩ := arrivedElsewhere_landAll
    (fun f hf => hothers f (List.mem_append_left _ hf)) ((w.launch own).advanced d)
  have hlater := arrivedElsewhere_landAll (fun f hf => hothers f (List.mem_append_right _ hf))
    ((before.foldl land ((w.launch own).advanced d)).land own)
  refine ⟨before.foldl land ((w.launch own).advanced d), ⟨hdevice, hjobs, hlanded⟩, hlater,
    h.of_fewer (fun f hf => ?_) ?_⟩
  · rw [hshape] at hf
    obtain ⟨hf, hlate⟩ := List.mem_filter.1 hf
    rcases List.mem_append.1 hf with hf | hf
    · exact hf
    · rw [List.mem_singleton.1 hf] at hlate
      simp [World.launch, hdue] at hlate
  · rw [hshape]
    exact Nat.le_succ _

end World

/-! ## A timed command -/

namespace Dispatch

variable {v w : World}

/-- A command that is sent is on its way for some time, whatever becomes of it. -/
theorem takeOff_eq (device command : String) (value : Option String) (v : World) :
    ∃ t delay fault, takeOff device command value v = ((v.tickets, delay), (v.failing t).launch
      ⟨v.tickets, device, command, value, v.elapsed + delay, fault⟩) := by
  obtain ⟨t, ht⟩ := v.consult_failing .deviceCommand
  unfold takeOff
  rcases hc : v.consult .deviceCommand with ⟨fault, u⟩
  obtain rfl : u = v.failing t := by rw [hc] at ht; exact ht
  exact ⟨t, _, fault, rfl⟩

/-- A command that succeeds has changed the device as it was before. -/
theorem commandDevice_noFlightTo {device : String} {c : Command} {value : Option String}
    {change : DeviceChange} (h : v.NoFlightTo device)
    (run : (commandDevice device c.name value).run.run v = (.ok change, w)) :
    ∃ d, v.store.device? device = some d ∧
      change = ⟨device, (d.apply c value).status, (d.apply c value).value, d.status, d.value⟩ ∧
      w.store.device? device = some (d.apply c value) ∧ w.NoFlightTo device := by
  obtain ⟨t, delay, fault, htake⟩ := takeOff_eq device c.name value v
  generalize hown : (⟨v.tickets, device, c.name, value, v.elapsed + delay, fault⟩ : Flight) = own
    at htake
  have hclear : (v.failing t).NoFlightTo device := ⟨h.away, h.numbered⟩
  have hdue : own.due = (v.failing t).elapsed + delay := by rw [← hown]; rfl
  obtain ⟨u, hearlier, hlater, hleft⟩ := hclear.elapse_own hdue
  unfold commandDevice at run
  simp only [Work.run_bind, Work.run_lift, run_change, htake, run_look, Work.run_ofExcept] at run
  have hw : ((v.failing t).launch own).elapse delay = w := congrArg Prod.snd run
  have hresult : (w.landed.get? v.tickets).getD (.error (.deviceMissing device)) = .ok change :=
    hw ▸ congrArg Prod.fst run
  rw [hw] at hlater hleft
  -- nothing that arrived besides has this number or goes to this device
  have hget := hlater.landed
  rw [land_eq, Table.get?_put, if_pos (by rw [← hown]; rfl)] at hget
  rw [show w.landed.get? v.tickets = _ from hget] at hresult
  obtain ⟨p, hp, rfl⟩ := map_eq_ok.1 hresult
  have hdone := command_of_resultOf hp
  rw [← hown] at hdone
  obtain ⟨d, hd, hstore, hchange⟩ := Store.command_eq_ok.1 hdone
  refine ⟨d, hearlier.device ▸ hd, hchange, ?_, hleft⟩
  rw [hlater.device, ← hown, hstore]
  exact Store.device?_applyCommand_self hd

/-- A command does not wait for a device that none is on its way to. -/
theorem awaitDevice_noFlightTo {device : String} (h : v.NoFlightTo device) :
    (awaitDevice device).run v = ((), v) := by
  have hnone : v.pending? device = none := by
    cases hpending : v.pending? device with
    | none => rfl
    | some f =>
      obtain ⟨hmem, hdevice⟩ := mem_of_pending hpending
      exact absurd hdevice (h.away f hmem)
  unfold awaitDevice
  rw [run_bind', run_look, awaitLast_of_none hnone]

/-- **A timed command, and the job that undoes it.** Where no other command is on its way to the
device, a timed command that succeeds has found the device as it was before, leaves it as it
makes it, and has queued the job that undoes it, made from what it found. -/
theorem tryOne_timed {i : Nat} {a : DeviceAction} {o : Occasion} {x : Outcome} {minutes : Nat}
    {change : DeviceChange} {job : Int} (h : v.NoFlightTo a.device)
    (run : (tryOne i (.device a) o).run v = (x, w)) (timed : a.duration = some minutes)
    (done : x.result = .ok (.device change (some job))) :
    ∃ d r, v.store.device? a.device = some d ∧ change.previousStatus = d.status ∧
      Revert.after a change minutes o = .ok r ∧
      w.store.device? a.device = some (d.apply a.command (a.value.map Setting.stored)) ∧
      ∀ j ∈ w.store.jobs, j.id = job → j.payload = r.toDoc := by
  unfold tryOne at run
  simp only [run_bind', awaitDevice_noFlightTo h, run_look, run_pure] at run
  rcases hlimited : (limited v.settings.actionTimeout (perform (.device a) o).run).run v with ⟨y, u⟩
  rw [hlimited] at run
  obtain ⟨rfl, rfl⟩ := Prod.mk.inj run
  obtain ⟨y, rfl, hy⟩ := settle_timely done (by simp)
  obtain rfl : y = .ok (.device change (some job)) := by
    cases y with
    | error e => cases hy
    | ok e => exact congrArg Except.ok (Except.ok.inj hy).symm
  obtain ⟨hclear, hpast⟩ := h.elapse 0
  have hrun := limited_elapsed (along_perform working_atOnce.toDispatching (.device a) o) hlimited
  obtain ⟨change', v₁, hcommand, hrun⟩ := Work.bind_run_ok hrun
  obtain ⟨d, hd, hchange, hleft, hclear'⟩ := commandDevice_noFlightTo hclear hcommand
  rw [timed] at hrun
  obtain ⟨r, v₂, hrevert, hrun⟩ := Work.bind_run_ok hrun
  obtain ⟨hr, rfl⟩ := Prod.mk.inj hrevert
  obtain ⟨_, v₃, hyield, hrun⟩ := Work.bind_run_ok hrun
  obtain ⟨job', v₄, hqueue, hrun⟩ := Work.bind_run_ok hrun
  cases hrun
  rw [Work.run_lift] at hyield
  obtain ⟨-, rfl⟩ := Prod.mk.inj hyield
  have hqueue := Work.store_of_run hqueue
  refine ⟨d, r, hpast.device ▸ hd, by rw [hchange], hr, ?_, fun j hj => ?_⟩
  · rw [Store.device?_of_enqueue hqueue]
    exact (hclear'.elapse 0).2.device.trans hleft
  · exact Store.payload_of_enqueue hqueue hj

end Dispatch

end Glasshouse
