/-
Glasshouse.Proofs.Condition.Dependence — what judging a tree of conditions depends on: the zone, the
readings, the devices that the tree asks for, and which calls fail. Worlds that agree
on these give the tree the same verdict (`preserves_evaluate`), and what a verdict was made
on has the statuses of the devices as they are in the store (`evaluate_statuses`).
-/
import Glasshouse.Proofs.Engine.Audit
import Glasshouse.Proofs.Condition.Semantics

namespace Glasshouse

open Calendar Plan

/-- The calls by which conditions ask. -/
def Contact.reads : Contact → Bool
  | .latest | .aggregate | .history | .lastSeen | .device | .deviceStatus => true
  | _ => false

/-- A relation between worlds that answer conditions alike, as far as these ask for some
devices only. -/
structure World.AnswersAlike (asked : String → Prop) (R : World → World → Prop) : Prop where
  zone : ∀ {v w}, R v w → v.zone = w.zone
  readings : ∀ {v w}, R v w → v.store.readings = w.store.readings
  device : ∀ {v w id}, R v w → asked id → v.store.device? id = w.store.device? id
  consult : ∀ {v w} (c : Contact), c.reads = true → R v w →
    (v.consult c).1 = (w.consult c).1 ∧ R (v.consult c).2 (w.consult c).2

/-- Work that does the same in related worlds and keeps them related. -/
def Work.Preserves {α : Type} (R : World → World → Prop) (x : Work α) : Prop :=
  ∀ v w, R v w → (x.run.run v).1 = (x.run.run w).1 ∧ R (x.run.run v).2 (x.run.run w).2

namespace Work.Preserves

variable {α β : Type} {R : World → World → Prop} {asked : String → Prop}

protected theorem ofExcept (x : Except Fault α) : Work.Preserves R (Work.ofExcept x) :=
  fun _ _ h => ⟨rfl, h⟩

protected theorem pure (a : α) : Work.Preserves R (pure a) := fun _ _ h => ⟨rfl, h⟩

protected theorem bind {x : Work α} {f : α → Work β} (hx : Work.Preserves R x)
    (hf : ∀ a, Work.Preserves R (f a)) : Work.Preserves R (x >>= f) := by
  intro v w h
  obtain ⟨hresult, hworlds⟩ := hx v w h
  rw [Work.run_bind, Work.run_bind]
  rcases hv : x.run.run v with ⟨r, v'⟩
  rcases hw : x.run.run w with ⟨r', w'⟩
  rw [hv, hw] at hresult hworlds
  cases hresult
  cases r with
  | error e => exact ⟨rfl, hworlds⟩
  | ok a => exact hf a v' w' hworlds

protected theorem consult (hR : World.AnswersAlike asked R) {c : Contact} (hc : c.reads = true) :
    Work.Preserves R (Work.consult c) := by
  intro v w h
  obtain ⟨hfault, hworlds⟩ := hR.consult c hc h
  rw [Work.run_consult, Work.run_consult, hfault]
  exact ⟨rfl, hworlds⟩

protected theorem fetch (hR : World.AnswersAlike asked R) {c : Contact} (hc : c.reads = true)
    {f : Store → Except Fault α} (hf : ∀ v w, R v w → f v.store = f w.store) :
    Work.Preserves R (Work.fetch c f) := by
  intro v w h
  obtain ⟨hfault, hworlds⟩ := hR.consult c hc h
  rw [Work.run_fetch, Work.run_fetch]
  rcases hv : v.consult c with ⟨e, v'⟩
  rcases hw : w.consult c with ⟨e', w'⟩
  rw [hv, hw] at hfault hworlds
  cases hfault
  cases e with
  | some e => exact ⟨rfl, hworlds⟩
  | none => exact ⟨hf v' w' hworlds, hworlds⟩

theorem ask (hR : World.AnswersAlike asked R) (now : Moment) {q : Query}
    (hq : ∀ id, q = .device id → asked id) : Work.Preserves R (Work.ask now q) := by
  cases q with
  | latest s f =>
    refine .fetch hR rfl fun v w h => ?_
    simp only [Store.latest, Store.readingsOf, hR.readings h]
  | device id =>
    refine .bind (.consult hR rfl) fun _ => .fetch hR rfl fun v w h => ?_
    rw [hR.device h (hq id rfl)]
  | aggregate s f fn n =>
    refine .fetch hR rfl fun v w h => ?_
    simp only [Store.aggregate, Store.readingsOf, hR.readings h]
  | history s f n =>
    refine .fetch hR rfl fun v w h => ?_
    simp only [Store.history, Store.readingsOf, hR.readings h]
  | lastSeen s =>
    refine .fetch hR rfl fun v w h => ?_
    simp only [Store.lastSeen, hR.readings h]

theorem gather (hR : World.AnswersAlike asked R) (now : Moment) {qs : List Query}
    (hqs : ∀ id, .device id ∈ qs → asked id) :
    Work.Preserves R (Snapshot.gather (Work.ask now) qs) := by
  induction qs with
  | nil => exact .pure _
  | cons q qs ih =>
    have hq : ∀ id, q = .device id → asked id := fun id h => hqs id (h ▸ List.mem_cons_self ..)
    exact .bind (ask hR now hq) fun a =>
      .bind (ih fun id h => hqs id (List.mem_cons_of_mem _ h)) fun rest => .pure _

end Work.Preserves

/-- Worlds that answer a tree of conditions alike give it the same verdict. -/
theorem preserves_evaluate {R : World → World → Prop} {c : Condition}
    (hR : World.AnswersAlike (fun id => .device id ∈ c.queries) R) (now : Moment) :
    Work.Preserves R (Engine.evaluate c now) := by
  have hzone : Work.Preserves R (ExceptT.lift (Plan.look World.zone)) := by
    intro v w h
    rw [Work.run_lift, Work.run_lift, run_look, run_look, hR.zone h]
    exact ⟨rfl, h⟩
  refine .bind hzone fun zone => .bind ?_ fun s => .bind (.ofExcept _) fun e => .pure _
  unfold Condition.capture
  cases zone.local? now with
  | error e => exact .ofExcept (.error e)
  | ok clock => exact .bind (.gather hR now fun _ h => h) fun answers => .pure _

/-! ## Statuses that were seen -/

/-- The status of a device, if there is such a device. -/
def World.status? (w : World) (id : String) : Option String := (w.store.device? id).map (·.status)

@[simp] theorem World.status?_failing (w : World) (t : Table Contact (Script (Option Fault)))
    (id : String) : (w.failing t).status? id = w.status? id := rfl

theorem Work.ask_device {now : Moment} {id : String} {a : Option String} {w v : World}
    (run : (Work.ask now (.device id)).run.run w = (.ok a, v)) : a = w.status? id := by
  obtain ⟨_, u, hconsult, hfetch⟩ := Work.bind_run_ok run
  obtain ⟨t, ht⟩ := Work.Reads.consult .deviceStatus w
  rw [hconsult] at ht
  obtain rfl : u = w.failing t := ht
  obtain ⟨t', ht'⟩ := (w.failing t).consult_failing .device
  rw [Work.run_fetch] at hfetch
  rcases hc : (w.failing t).consult .device with ⟨_ | f, x⟩
  · obtain rfl : x = (w.failing t).failing t' := by rw [hc] at ht'; exact ht'
    rw [hc] at hfetch
    exact (Except.ok.inj (congrArg Prod.fst hfetch)).symm
  · rw [hc] at hfetch
    cases congrArg Prod.fst hfetch

theorem Snapshot.gather_statuses {now : Moment} {qs : List Query} {answers : List Answered}
    {w v : World} (run : (Snapshot.gather (Work.ask now) qs).run.run w = (.ok answers, v))
    {id : String} (hid : .device id ∈ qs) : find? (.device id) answers = some (w.status? id) := by
  induction qs generalizing answers w v with
  | nil => cases hid
  | cons q qs ih =>
    obtain ⟨a, u, hask, hrun⟩ := Work.bind_run_ok run
    obtain ⟨rest, x, hrest, hpure⟩ := Work.bind_run_ok hrun
    cases Except.ok.inj (congrArg Prod.fst hpure)
    obtain ⟨t, ht⟩ := Work.Reads.ask now q w
    rw [hask] at ht
    obtain rfl : u = w.failing t := ht
    by_cases hq : q = .device id
    · subst hq
      simp only [find?, dif_pos]
      rw [Work.ask_device hask]
    · have hmem : .device id ∈ qs := (List.mem_cons.1 hid).resolve_left fun h => hq h.symm
      simp only [find?, dif_neg hq, ih hrest hmem, World.status?_failing]

/-- A snapshot has the statuses of the devices that a tree asks for. -/
theorem Engine.evaluate_statuses {c : Condition} {now : Moment} {e : Evaluation} {s : Snapshot}
    {w v : World} (run : (Engine.evaluate c now).run.run w = (.ok (e, s), v)) {id : String}
    (hid : .device id ∈ c.queries) : s.ask (.device id) = w.status? id := by
  obtain ⟨zone, u, hzone, hrun⟩ := Work.bind_run_ok run
  rw [Work.run_lift, run_look] at hzone
  cases hzone
  obtain ⟨s', x, hcapture, hrun⟩ := Work.bind_run_ok hrun
  obtain ⟨e', y, -, hpure⟩ := Work.bind_run_ok hrun
  cases Except.ok.inj (congrArg Prod.fst hpure)
  unfold Condition.capture at hcapture
  split at hcapture
  · cases congrArg Prod.fst hcapture
  · obtain ⟨answers, z, hgather, hpure⟩ := Work.bind_run_ok hcapture
    cases Except.ok.inj (congrArg Prod.fst hpure)
    rw [Snapshot.ask, Snapshot.gather_statuses hgather hid]
    rfl

end Glasshouse
