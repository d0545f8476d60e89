/-
Glasshouse.Proofs.World.Parts — a world in two parts. Its interior holds the rules,
their history, the readings and what the engine remembers; its outskirts hold
devices, jobs, lines to other machines and everything that time moves. What
happens in the outskirts alone does not look at the interior and leaves it as it
is (`Outward`); what does not ask whether a call fails either is `Distant`, and
in particular time passes so (`distant_elapse`). An activity is `Apart` if it
cannot tell worlds from each other that are `Indistinguishable`.
-/
import Glasshouse.Proofs.World.Work

namespace Glasshouse

open Calendar Plan

/-- The part of a world that no action touches. -/
structure Interior where
  zone : Zone
  clock : Moment
  wall : Moment
  rules : List RuleRow
  executions : List ExecutionRow
  readings : List ReadingRow
  channel : Channel
  memory : Memory
  schedule : Schedule

/-- The part of a world that actions read and change. -/
structure Outskirts where
  settings : Settings
  devices : List DeviceRow
  jobs : List JobRow
  webhooks : Wire
  notices : Wire
  sent : List Doc
  outages : Table Contact (Script (Option Fault))
  delays : Table String Duration
  elapsed : Duration
  flights : List Flight
  landed : Table Nat (Except Fault DeviceChange)
  tickets : Nat
  writes : Table String Nat

/-- The calls that keep the books: what is lost if one fails, no condition and no
action can see. -/
def Contact.keepsBooks : Contact → Bool
  | .recordExecution | .noteTrigger => true
  | _ => false

/-- Outskirts with other outages. -/
def Outskirts.failing (o : Outskirts) (t : Table Contact (Script (Option Fault))) : Outskirts :=
  { o with outages := t }

namespace World

/-- The interior of a world. -/
def interior (w : World) : Interior :=
  ⟨w.zone, w.clock, w.wall, w.store.rules, w.store.executions, w.store.readings, w.channel,
    w.memory, w.schedule⟩

/-- The outskirts of a world. -/
def outskirts (w : World) : Outskirts :=
  ⟨w.settings, w.store.devices, w.store.jobs, w.webhooks, w.notices, w.sent, w.outages, w.delays,
    w.elapsed, w.flights, w.landed, w.tickets, w.writes⟩

/-- The outskirts without the scripts of outages. -/
def still (w : World) : Outskirts := w.outskirts.failing []

/-- A world made of its two parts. -/
def ofParts (i : Interior) (o : Outskirts) : World where
  settings := o.settings
  zone := i.zone
  clock := i.clock
  wall := i.wall
  store := ⟨i.rules, i.executions, i.readings, o.devices, o.jobs⟩
  channel := i.channel
  memory := i.memory
  schedule := i.schedule
  webhooks := o.webhooks
  notices := o.notices
  sent := o.sent
  outages := o.outages
  delays := o.delays
  elapsed := o.elapsed
  flights := o.flights
  landed := o.landed
  tickets := o.tickets
  writes := o.writes

theorem ofParts_eq (w : World) : ofParts w.interior w.outskirts = w := rfl

@[simp] theorem interior_ofParts (i : Interior) (o : Outskirts) : (ofParts i o).interior = i := rfl

/-! ## What stays in the outskirts -/

variable {α : Type}

/-- A change that takes place in the outskirts: neither its result nor what it
leaves there depends on the interior, which stays as it is. -/
def Outward (f : World → α × World) : Prop :=
  ∀ o, ∃ a o', ∀ i, f (ofParts i o) = (a, ofParts i o')

/-- Worlds with the same outskirts, whose interiors are related. -/
def Beside (I : Interior → Interior → Prop) (v w : World) : Prop :=
  v.outskirts = w.outskirts ∧ I v.interior w.interior

theorem Outward.interior_eq {f : World → α × World} (h : Outward f) (w : World) :
    (f w).2.interior = w.interior := by
  obtain ⟨a, o, ho⟩ := h w.outskirts
  have hw := ho w.interior
  rw [ofParts_eq] at hw
  rw [hw, interior_ofParts]

theorem Outward.beside {I : Interior → Interior → Prop} {f : World → α × World} (h : Outward f)
    {v w : World} (hvw : Beside I v w) : (f v).1 = (f w).1 ∧ Beside I (f v).2 (f w).2 := by
  obtain ⟨a, o, ho⟩ := h w.outskirts
  have hv := ho v.interior
  have hw := ho w.interior
  rw [← hvw.1, ofParts_eq] at hv
  rw [ofParts_eq] at hw
  rw [hv, hw]
  exact ⟨rfl, rfl, hvw.2⟩

/-- A change that takes place in the outskirts and has nothing to do with calls that
fail: neither its result nor what it leaves there depends on the outages either. -/
def Distant (f : World → α × World) : Prop :=
  ∀ o : Outskirts, ∃ (a : α) (o' : Outskirts), ∀ i t,
    f (ofParts i (o.failing t)) = (a, ofParts i (o'.failing t))

theorem Distant.outward {f : World → α × World} (h : Distant f) : Outward f := by
  intro o
  obtain ⟨a, o', ho⟩ := h o
  exact ⟨a, o'.failing o.outages, fun i => ho i o.outages⟩

/-- The result of a distant change depends on the outskirts without outages alone. -/
theorem Distant.fst_eq {f : World → α × World} (h : Distant f) {v w : World}
    (hvw : v.still = w.still) : (f v).1 = (f w).1 := by
  obtain ⟨a, o, ho⟩ := h w.still
  have hv : f v = (a, ofParts v.interior (o.failing v.outages)) := by
    rw [← ho, ← hvw]
    rfl
  have hw : f w = (a, ofParts w.interior (o.failing w.outages)) := ho w.interior w.outages
  rw [hv, hw]

theorem outward_consult (c : Contact) : Outward (consult c) := by
  intro o
  cases h : o.outages.get? c with
  | none => exact ⟨none, o, fun i => by simp only [consult, ofParts, h]⟩
  | some s =>
    exact ⟨s.head, { o with outages := o.outages.put c s.next },
      fun i => by simp only [consult, ofParts, h]⟩

/-! ## Time -/

theorem command_devices (device name : String) (value : Option String) (d : List DeviceRow)
    (j : List JobRow) :
    (∃ e, ∀ r x g, Store.command ⟨r, x, g, d, j⟩ device name value = .error e) ∨
      ∃ c d', ∀ r x g,
        Store.command ⟨r, x, g, d, j⟩ device name value = .ok (c, ⟨r, x, g, d', j⟩) := by
  cases hd : d.find? (·.id == device) with
  | none => exact .inl ⟨_, fun r x g => by simp only [Store.command, Store.device?, hd]; rfl⟩
  | some row =>
    cases hn : Command.ofName? name with
    | none => exact .inl ⟨_, fun r x g => by simp only [Store.command, Store.device?, hd, hn]; rfl⟩
    | some c =>
      exact .inr ⟨_, d.map fun e => if e.id == device then e.apply c value else e,
        fun r x g => by
          simp only [Store.command, Store.device?, Store.applyCommand, hd, hn]; rfl⟩

/-- What a command that arrives comes to. -/
def resultOf (w : World) (f : Flight) : Except Fault (DeviceChange × Store) :=
  match f.fault with
  | some e => .error e
  | none => w.store.command f.device f.command f.value

/-- A command that arrives leaves what it comes to, strikes itself out of the table of last
commands and changes the store if it is carried out. -/
theorem land_eq (w : World) (f : Flight) : w.land f =
    { w with
      store := ((w.resultOf f).map (·.2)).toOption.getD w.store
      landed := w.landed.put f.ticket ((w.resultOf f).map (·.1))
      writes := f.strike w.writes } := by
  unfold land resultOf
  cases f.fault with
  | some e => rfl
  | none =>
    dsimp only
    cases w.store.command f.device f.command f.value <;> rfl

/-- A command comes to the same whatever the books are. -/
theorem resultOf_ofParts (f : Flight) (o : Outskirts) :
    (∃ e, ∀ i t, (ofParts i (o.failing t)).resultOf f = .error e) ∨
      ∃ c d, ∀ i t, (ofParts i (o.failing t)).resultOf f
        = .ok (c, ⟨i.rules, i.executions, i.readings, d, o.jobs⟩) := by
  unfold resultOf
  cases f.fault with
  | some e => exact .inl ⟨e, fun _ _ => rfl⟩
  | none =>
    rcases command_devices f.device f.command f.value o.devices o.jobs with ⟨e, he⟩ | ⟨c, d, hc⟩
    · exact .inl ⟨e, fun i _ => he i.rules i.executions i.readings⟩
    · exact .inr ⟨c, d, fun i _ => hc i.rules i.executions i.readings⟩

/-- A command arrives far from the books. -/
theorem land_ofParts (f : Flight) (o : Outskirts) :
    ∃ o' : Outskirts, ∀ i t, (ofParts i (o.failing t)).land f = ofParts i (o'.failing t) := by
  rcases resultOf_ofParts f o with ⟨e, he⟩ | ⟨c, d, hc⟩
  · exact ⟨{ o with landed := o.landed.put f.ticket (.error e), writes := f.strike o.writes },
      fun i t => by rw [land_eq, he]; rfl⟩
  · exact ⟨{ o with
      devices := d
      landed := o.landed.put f.ticket (.ok c)
      writes := f.strike o.writes }, fun i t => by rw [land_eq, hc]; rfl⟩

theorem landAll_ofParts (fs : List Flight) (o : Outskirts) :
    ∃ o' : Outskirts, ∀ i t,
      fs.foldl land (ofParts i (o.failing t)) = ofParts i (o'.failing t) := by
  induction fs generalizing o with
  | nil => exact ⟨o, fun _ _ => rfl⟩
  | cons f fs ih =>
    obtain ⟨o₁, h₁⟩ := land_ofParts f o
    obtain ⟨o₂, h₂⟩ := ih o₁
    exact ⟨o₂, fun i t => by rw [List.foldl_cons, h₁, h₂]⟩

/-- Time passes far from the books. -/
theorem distant_elapse (d : Duration) : Distant fun w => ((), w.elapse d) := by
  intro o
  obtain ⟨o', h⟩ := landAll_ofParts
    ((o.flights.filter fun f => decide (f.due ≤ o.elapsed + d)).mergeSort
      fun f g => decide (f.due ≤ g.due))
    { o with
      elapsed := o.elapsed + d
      flights := o.flights.filter fun f => !decide (f.due ≤ o.elapsed + d) }
  exact ⟨(), o', fun i t => congrArg (Prod.mk ()) (h i t)⟩

@[simp] theorem interior_elapse (d : Duration) (w : World) :
    (w.elapse d).interior = w.interior :=
  (distant_elapse d).outward.interior_eq w

/-! ## Activities apart from the interior -/

/-- A relation between worlds that conditions and actions cannot tell apart: the worlds
look the same to them, all calls but those that keep the books fail alike, and what
happens far from the books keeps the relation. -/
structure Indistinguishable (R : World → World → Prop) : Prop where
  zone : ∀ {v w}, R v w → v.zone = w.zone
  readings : ∀ {v w}, R v w → v.store.readings = w.store.readings
  locked : ∀ {v w}, R v w → v.memory.locked = w.memory.locked
  still : ∀ {v w}, R v w → v.still = w.still
  consult : ∀ {v w} (c : Contact), c.keepsBooks = false → R v w →
    ∃ e v' w', v.consult c = (e, v') ∧ w.consult c = (e, w') ∧ R v' w'
  distant : ∀ {v w} {α : Type} {f : World → α × World}, Distant f → R v w → R (f v).2 (f w).2

/-- Time keeps a relation between worlds that cannot be told apart. -/
theorem Indistinguishable.steady {R : World → World → Prop} (hR : Indistinguishable R) :
    Steady R where
  elapse d hvw := hR.distant (distant_elapse d) hvw
  locked hvw := hR.locked hvw

theorem Distant.respects {R : World → World → Prop} {f : World → α × World} (h : Distant f)
    (hR : Indistinguishable R) : Respects R (Plan.change f) :=
  Alike.change fun _ _ hvw => ⟨h.fst_eq (hR.still hvw), hR.distant h hvw⟩

/-- A relation between interiors that conditions and actions cannot tell apart. -/
structure IndistinctInteriors (I : Interior → Interior → Prop) : Prop where
  zone : ∀ {i j}, I i j → i.zone = j.zone
  readings : ∀ {i j}, I i j → i.readings = j.readings
  locked : ∀ {i j}, I i j → i.memory.locked = j.memory.locked

/-- Conditions and actions cannot tell apart worlds whose interiors they cannot tell apart. -/
theorem indistinguishable_beside {I : Interior → Interior → Prop} (hI : IndistinctInteriors I) :
    Indistinguishable (Beside I) where
  zone hvw := hI.zone hvw.2
  readings hvw := hI.readings hvw.2
  locked hvw := hI.locked hvw.2
  still hvw := congrArg (Outskirts.failing · []) hvw.1
  consult {v w} c _ hvw := by
    obtain ⟨hfault, hnext⟩ := (outward_consult c).beside hvw
    exact ⟨(v.consult c).1, (v.consult c).2, (w.consult c).2, rfl, Prod.ext hfault.symm rfl, hnext⟩
  distant h hvw := (h.outward.beside hvw).2

/-- An activity that reads no more than conditions and actions do, and leaves the
interior as it is. -/
def Apart (p : Activity α) : Prop := ∀ R, Indistinguishable R → Respects R p

theorem Apart.interior_eq {p : Activity α} (h : Apart p) (w : World) :
    (p.run w).2.interior = w.interior := by
  have hI : IndistinctInteriors fun i j => i = w.interior ∧ j = w.interior :=
    { zone := fun hij => by rw [hij.1, hij.2]
      readings := fun hij => by rw [hij.1, hij.2]
      locked := fun hij => by rw [hij.1, hij.2] }
  have hR := indistinguishable_beside hI
  exact (Alike.run hR.steady (h _ hR) ⟨rfl, rfl, rfl⟩).2.2.1

theorem Distant.apart {f : World → α × World} (h : Distant f) : Apart (Plan.change f) :=
  fun _ hR => h.respects hR

end World

end Glasshouse
