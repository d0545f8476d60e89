/-
Glasshouse.Proofs.World.Passing — what may happen to devices while time passes. A plan goes
along a relation if each of its changes does and it never waits for the lock
(`Plan.Along`). Notices, requests, jobs and the engine's records leave worlds `SameView`:
conditions and commands cannot tell them apart, unless a command arrives that was on its
way (`World.Passes`). Actions and records go along every relation that their single
changes go along (`along_tryFrom`, `along_processRule`).
-/
import Glasshouse.Proofs.Condition.Dependence

namespace Glasshouse

open Calendar

namespace Plan

variable {σ α β : Type}

/-- A plan that waits for time alone, and whose changes all go along a relation. -/
inductive Along (S : σ → σ → Prop) : Plan σ α → Prop
  | done (a : α) : Along S (.done a)
  | act {f : σ → σ} {next : σ → Plan σ α} (step : ∀ s, S s (f s)) (rest : ∀ s, Along S (next s)) :
      Along S (.act f next)
  | wait {d : Duration} {next : Plan σ α} (rest : Along S next) : Along S (.wait d next)

namespace Along

variable {S T : σ → σ → Prop} {p : Plan σ α}

protected theorem pure (a : α) : Along S (pure a : Plan σ α) := .done a

protected theorem bind {k : α → Plan σ β} (hp : Along S p) (hk : ∀ a, Along S (k a)) :
    Along S (p >>= k) := by
  induction hp with
  | done a => exact hk a
  | act step _ ih => exact .act step ih
  | wait _ ih => exact .wait ih

protected theorem mono (h : ∀ {s t}, S s t → T s t) (hp : Along S p) : Along T p := by
  induction hp with
  | done a => exact .done a
  | act step _ ih => exact .act (fun s => h (step s)) ih
  | wait _ ih => exact .wait ih

protected theorem within (hp : Along S p) (limit : Duration) : Along S (p.within limit) := by
  induction hp generalizing limit with
  | done a => exact .done _
  | act step _ ih => exact .act step fun s => ih s limit
  | wait _ ih =>
    simp only [Plan.within]
    split
    · exact .wait (ih _)
    · exact .wait (.done _)

/-- A plan that comes to its end within its limit does what it does without one. -/
theorem run_of_within [Timed σ] (hp : Along S p) {limit : Duration} {s t : σ} {a : α}
    (run : (p.within limit).run s = (some a, t)) : p.run s = (a, t) := by
  induction hp generalizing limit s with
  | done b =>
    cases run
    rfl
  | act _ _ ih => exact ih s run
  | @wait d next _ ih =>
    by_cases hd : d < limit
    · rw [Plan.within, if_pos hd] at run
      exact ih run
    · rw [Plan.within, if_neg hd] at run
      cases congrArg Prod.fst run

/-- A plan takes a state along a relation that its changes and the time go along. -/
theorem run [Timed σ] (refl : ∀ s, T s s) (trans : ∀ {r s t}, T r s → T s t → T r t)
    (elapse : ∀ d s, T s (Timed.elapse d s)) (step : ∀ {s t}, S s t → T s t) (hp : Along S p)
    (s : σ) : T s (p.run s).2 := by
  induction hp generalizing s with
  | done a => exact refl s
  | act along _ ih => exact trans (step (along s)) (ih s _)
  | wait _ ih => exact trans (elapse _ s) (ih _)

theorem look (refl : ∀ s, S s s) (f : σ → α) : Along S (Plan.look f) := .act refl fun _ => .done _

theorem change {f : σ → α × σ} (h : ∀ s, S s (f s).2) : Along S (Plan.change f) :=
  .act h fun _ => .done _

theorem modify {f : σ → σ} (h : ∀ s, S s (f s)) : Along S (Plan.modify f) :=
  .act h fun _ => .done _

theorem sleep (d : Duration) : Along S (Plan.sleep d : Plan σ Unit) := .wait (.done _)

end Along

end Plan

/-- Work whose changes all go along a relation. -/
def Work.Along {α : Type} (S : World → World → Prop) (x : Work α) : Prop := Plan.Along S x.run

namespace Work.Along

variable {α β : Type} {S : World → World → Prop}

protected theorem pure (a : α) : Work.Along S (pure a) := Plan.Along.pure _

protected theorem throw (e : Fault) : Work.Along S (throw e : Work α) := Plan.Along.pure _

protected theorem ofExcept (x : Except Fault α) : Work.Along S (Work.ofExcept x) :=
  Plan.Along.pure x

protected theorem bind {x : Work α} {f : α → Work β} (hx : Work.Along S x)
    (hf : ∀ a, Work.Along S (f a)) : Work.Along S (x >>= f) := by
  unfold Work.Along
  rw [ExceptT.run_bind]
  refine Plan.Along.bind hx fun r => ?_
  cases r with
  | ok a => exact hf a
  | error e => exact .pure _

protected theorem lift {p : Activity α} (h : Plan.Along S p) :
    Work.Along S (ExceptT.lift p : Work α) := by
  unfold Work.Along
  rw [ExceptT.run_lift, map_eq_pure_bind]
  exact h.bind fun a => .pure _

protected theorem tryCatch {x : Work α} {f : Fault → Work α} (hx : Work.Along S x)
    (hf : ∀ e, Work.Along S (f e)) : Work.Along S (tryCatch x f) := by
  refine Plan.Along.bind hx fun r => ?_
  cases r with
  | ok a => exact .pure _
  | error e => exact hf e

protected theorem consult {c : Contact} (h : ∀ w : World, S w (w.consult c).2) :
    Work.Along S (Work.consult c) := by
  refine Plan.Along.change fun w => ?_
  have hw := h w
  rcases hc : w.consult c with ⟨_ | e, v⟩
  · rw [hc] at hw
    exact hw
  · rw [hc] at hw
    exact hw

protected theorem store {c : Contact} {f : Store → Except Fault (α × Store)}
    (h : ∀ w : World, S w (w.callStore c f).2) : Work.Along S (Work.store c f) :=
  Plan.Along.change h

end Work.Along

open Plan World

/-! ## What conditions and commands see -/

/-- The calls that decide what a rule does to devices: those by which its conditions ask,
and those by which it commands. -/
def Contact.decides (c : Contact) : Bool := c.reads || c == .dispatch || c == .deviceCommand

/-- Worlds that conditions and commands cannot tell apart. -/
structure World.SameView (v w : World) : Prop where
  zone : v.zone = w.zone
  readings : v.store.readings = w.store.readings
  devices : v.store.devices = w.store.devices
  outages : ∀ c, c.decides = true → v.outages.get? c = w.outages.get? c

namespace World.SameView

variable {u v w : World}

protected theorem refl (w : World) : SameView w w := ⟨rfl, rfl, rfl, fun _ _ => rfl⟩

protected theorem trans (h : SameView u v) (k : SameView v w) : SameView u w :=
  ⟨h.zone.trans k.zone, h.readings.trans k.readings, h.devices.trans k.devices,
    fun c hc => (h.outages c hc).trans (k.outages c hc)⟩

theorem device (h : SameView v w) (id : String) : v.store.device? id = w.store.device? id := by
  rw [Store.device?, Store.device?, h.devices]

end World.SameView

theorem World.outages_consult (c k : Contact) (w : World) :
    (w.consult c).2.outages.get? k
      = if c = k then (w.outages.get? c).map Script.next else w.outages.get? k := by
  unfold consult
  cases h : w.outages.get? c with
  | none =>
    by_cases hk : c = k
    · subst hk
      simp [h]
    · simp [hk]
  | some s => exact Table.get?_put w.outages c k s.next

/-- A call is laid down alike in worlds of one view, and leaves them so. -/
theorem World.SameView.consult {v w : World} (h : SameView v w) {c : Contact}
    (hc : c.decides = true) :
    (v.consult c).1 = (w.consult c).1 ∧ SameView (v.consult c).2 (w.consult c).2 := by
  obtain ⟨t, ht⟩ := v.consult_failing c
  obtain ⟨t', ht'⟩ := w.consult_failing c
  refine ⟨by rw [consult_fst, consult_fst, h.outages c hc], ?_, ?_, ?_, fun k hk => ?_⟩
  · rw [ht, ht']
    exact h.zone
  · rw [ht, ht']
    exact h.readings
  · rw [ht, ht']
    exact h.devices
  · rw [outages_consult, outages_consult, h.outages c hc, h.outages k hk]

theorem World.answersAlike_sameView (asked : String → Prop) : AnswersAlike asked SameView where
  zone h := h.zone
  readings h := h.readings
  device h _ := h.device _
  consult c hc h := h.consult (by simp [Contact.decides, hc])

/-! ## Calls that go on as they are -/

namespace World

/-- What a call fails with, if with anything. -/
def gate (w : World) (c : Contact) : Option Fault := (w.outages.get? c).bind Script.head

/-- Calls that fail, if they do, in the same way every time. -/
def Uniform (w : World) : Prop := ∀ c s, w.outages.get? c = some s → s.rest = []

theorem Uniform.consult {w : World} (h : w.Uniform) (c : Contact) :
    w.consult c = (w.gate c, w) := by
  have hput : ∀ (t : Table Contact (Script (Option Fault))) (s : Script (Option Fault)),
      t.get? c = some s → t.put c s = t := by
    intro t s hs
    induction t with
    | nil => cases hs
    | cons p t ih =>
      obtain ⟨k, x⟩ := p
      by_cases hk : k = c
      · rw [Table.get?, if_pos hk] at hs
        cases hs
        rw [Table.put, if_pos hk]
      · rw [Table.get?, if_neg hk] at hs
        rw [Table.put, if_neg hk, ih hs]
  unfold World.consult gate
  cases hs : w.outages.get? c with
  | none => rfl
  | some s =>
    have hnext : s.next = s := by rw [Script.next, h c s hs]
    simp only [hnext, hput w.outages s hs]
    rfl

/-- A call to the store where calls fail in the same way every time. -/
theorem Uniform.callStore {α : Type} {w : World} (h : w.Uniform) (c : Contact)
    (f : Store → Except Fault (α × Store)) : w.callStore c f = match w.gate c with
      | some e => (.error e, w)
      | none => match f w.store with
        | .ok (a, s) => (.ok a, { w with store := s })
        | .error e => (.error e, w) := by
  unfold World.callStore
  rw [h.consult]
  cases w.gate c with
  | some e => rfl
  | none => rfl

end World

/-! ## What happens at once -/

/-- Nothing happened that conditions and commands could tell, to the time or to commands on
their way. -/
structure World.Unmoved (v w : World) : Prop where
  elapsed : w.elapsed = v.elapsed
  flights : w.flights = v.flights
  landed : w.landed = v.landed
  tickets : w.tickets = v.tickets
  writes : w.writes = v.writes
  sameView : SameView w v

/-- Nothing happened to the store, nor anything that conditions and commands could tell. -/
structure World.Idle (v w : World) : Prop extends World.Unmoved v w where
  store : w.store = v.store
  outages : v.Uniform → w.outages = v.outages

/-- Time went on, if it did, and unless a command arrived that was on its way nothing
happened that conditions and commands could tell. -/
structure World.Passes (v w : World) : Prop where
  elapsed : v.elapsed ≤ w.elapsed
  quiet : (∀ f ∈ v.flights, w.elapsed < f.due) → w.flights = v.flights ∧ SameView w v

/-- No time went on. -/
def World.AtOnce (v w : World) : Prop := w.elapsed = v.elapsed

namespace World

variable {u v w : World}

theorem Unmoved.passes (h : Unmoved v w) : Passes v w :=
  ⟨Nat.le_of_eq h.elapsed.symm, fun _ => ⟨h.flights, h.sameView⟩⟩

theorem atOnce_refl (w : World) : AtOnce w w := rfl

protected theorem Unmoved.trans (h : Unmoved u v) (k : Unmoved v w) : Unmoved u w :=
  ⟨k.elapsed.trans h.elapsed, k.flights.trans h.flights, k.landed.trans h.landed,
    k.tickets.trans h.tickets, k.writes.trans h.writes, k.sameView.trans h.sameView⟩

protected theorem Idle.trans (h : Idle u v) (k : Idle v w) : Idle u w where
  toUnmoved := h.toUnmoved.trans k.toUnmoved
  store := k.store.trans h.store
  outages hu := by
    have hv := h.outages hu
    exact (k.outages fun c s => hv ▸ hu c s).trans hv

theorem Unmoved.atOnce (h : Unmoved v w) : AtOnce v w := h.elapsed

protected theorem Passes.refl (w : World) : Passes w w :=
  ⟨Nat.le_refl _, fun _ => ⟨rfl, .refl w⟩⟩

protected theorem Passes.trans (h : Passes u v) (k : Passes v w) : Passes u w := by
  refine ⟨Nat.le_trans h.elapsed k.elapsed, fun aloft => ?_⟩
  obtain ⟨hflights, hview⟩ := h.quiet fun f hf => Nat.lt_of_le_of_lt k.elapsed (aloft f hf)
  obtain ⟨kflights, kview⟩ := k.quiet fun f hf => aloft f (hflights ▸ hf)
  exact ⟨kflights.trans hflights, kview.trans hview⟩

/-- The world after a length of time, before what is due by then has arrived. -/
def advanced (w : World) (d : Duration) : World :=
  { w with
    elapsed := w.elapsed + d
    flights := w.flights.filter fun f => !decide (f.due ≤ w.elapsed + d) }

/-- The commands that arrive in a length of time, one after the other. -/
theorem elapse_eq (d : Duration) (w : World) : ∃ fs : List Flight,
    fs.Perm (w.flights.filter fun f => decide (f.due ≤ w.elapsed + d)) ∧
      w.elapse d = fs.foldl land (w.advanced d) :=
  ⟨_, List.mergeSort_perm _ _, rfl⟩

/-- Commands that arrive change the store, the list of those that have arrived and the
table of last commands. -/
theorem landAll_shape (fs : List Flight) (w : World) :
    ∃ s l t, fs.foldl land w = { w with store := s, landed := l, writes := t } := by
  induction fs generalizing w with
  | nil => exact ⟨w.store, w.landed, w.writes, rfl⟩
  | cons f fs ih =>
    obtain ⟨s, l, t, hrest⟩ := ih (w.land f)
    exact ⟨s, l, t, by rw [List.foldl_cons, hrest, land_eq]⟩

/-- Time changes nothing but itself and what commands on their way come to. -/
theorem elapse_shape (d : Duration) (w : World) : ∃ s l fs t, w.elapse d
    = { w with elapsed := w.elapsed + d, store := s, landed := l, flights := fs, writes := t } := by
  obtain ⟨fs, -, helapse⟩ := elapse_eq d w
  obtain ⟨s, l, t, hshape⟩ := landAll_shape fs (w.advanced d)
  exact ⟨s, l, _, t, helapse.trans hshape⟩

@[simp] theorem elapsed_elapse (d : Duration) (w : World) :
    (w.elapse d).elapsed = w.elapsed + d := by
  obtain ⟨s, l, fs, t, h⟩ := elapse_shape d w
  rw [h]

/-- Commands that are not due stay on their way. -/
theorem flights_of_aloft {t : Duration} {fs : List Flight} (aloft : ∀ f ∈ fs, t < f.due) :
    fs.filter (fun f => decide (f.due ≤ t)) = [] ∧
      fs.filter (fun f => !decide (f.due ≤ t)) = fs := by
  refine ⟨List.filter_eq_nil_iff.2 fun f hf => ?_, List.filter_eq_self.2 fun f hf => ?_⟩
  · simpa only [decide_eq_true_eq] using Nat.not_le.2 (aloft f hf)
  · simpa only [Bool.not_eq_true', decide_eq_false_iff_not] using Nat.not_le.2 (aloft f hf)

/-- While no command arrives, only the time goes on. -/
theorem elapse_of_aloft {d : Duration} (aloft : ∀ f ∈ w.flights, w.elapsed + d < f.due) :
    w.elapse d = { w with elapsed := w.elapsed + d } := by
  obtain ⟨harriving, hstaying⟩ := flights_of_aloft aloft
  unfold elapse
  simp only [harriving, hstaying, List.mergeSort_nil, List.foldl_nil]

theorem passes_elapse (d : Duration) (w : World) : Passes w (w.elapse d) := by
  refine ⟨by rw [elapsed_elapse]; exact Nat.le_add_right _ d, fun aloft => ?_⟩
  rw [elapsed_elapse] at aloft
  rw [elapse_of_aloft aloft]
  exact ⟨rfl, rfl, rfl, rfl, fun _ _ => rfl⟩

/-- A call that decides nothing about devices. -/
theorem unmoved_consult {c : Contact} (hc : c.decides = false) (w : World) :
    Unmoved w (w.consult c).2 := by
  obtain ⟨t, ht⟩ := w.consult_failing c
  refine ⟨by rw [ht]; rfl, by rw [ht]; rfl, by rw [ht]; rfl, by rw [ht]; rfl, by rw [ht]; rfl,
    by rw [ht]; rfl, by rw [ht]; rfl, by rw [ht]; rfl, fun k hk => ?_⟩
  have hne : c ≠ k := by
    rintro rfl
    rw [hc] at hk
    cases hk
  rw [outages_consult, if_neg hne]

/-- What the engine remembers moves no device. -/
theorem idle_memory (w : World) (m : Memory) : Idle w { w with memory := m } :=
  ⟨⟨rfl, rfl, rfl, rfl, rfl, rfl, rfl, rfl, fun _ _ => rfl⟩, rfl, fun _ => rfl⟩

theorem idle_consult {c : Contact} (hc : c.decides = false) (w : World) :
    Idle w (w.consult c).2 where
  toUnmoved := unmoved_consult hc w
  store := by
    obtain ⟨t, ht⟩ := w.consult_failing c
    rw [ht]
    rfl
  outages hw := by rw [hw.consult]

/-- A call to the store that decides nothing about devices and leaves them and the readings
as they are. -/
theorem unmoved_callStore {α : Type} {c : Contact} (hc : c.decides = false)
    {f : Store → Except Fault (α × Store)}
    (hf : ∀ {s a t}, f s = .ok (a, t) → t.readings = s.readings ∧ t.devices = s.devices)
    (w : World) : Unmoved w (w.callStore c f).2 := by
  have hw := unmoved_consult hc w
  unfold callStore
  rcases hk : w.consult c with ⟨_ | e, v⟩
  · rw [hk] at hw
    cases hs : f v.store with
    | error e => simpa only [hs] using hw
    | ok p =>
      obtain ⟨hreadings, hdevices⟩ := hf hs
      simp only [hs]
      exact ⟨hw.elapsed, hw.flights, hw.landed, hw.tickets, hw.writes, hw.sameView.zone,
        hreadings.trans hw.sameView.readings, hdevices.trans hw.sameView.devices,
          hw.sameView.outages⟩
  · rw [hk] at hw
    exact hw

end World

theorem Plan.Along.passes {α : Type} {p : Activity α} (h : Along Unmoved p) (w : World) :
    Passes w (p.run w).2 :=
  h.run Passes.refl Passes.trans passes_elapse Unmoved.passes w

/-- No plan of changes at once and of waits turns the time back. -/
theorem Plan.Along.elapsed_le {α : Type} {p : Activity α} (h : Along AtOnce p) (w : World) :
    w.elapsed ≤ (p.run w).2.elapsed :=
  Along.run (T := fun u v : World => u.elapsed ≤ v.elapsed) (fun _ => Nat.le_refl _) Nat.le_trans
    (fun d w => by
      show w.elapsed ≤ (w.elapse d).elapsed
      rw [elapsed_elapse]
      exact Nat.le_add_right _ d)
    (fun h => Nat.le_of_eq h.symm) h w

/-! ## Relations that actions and records go along -/

/-- A relation that notices, requests and jobs go along. -/
structure World.Ordinary (S : World → World → Prop) : Prop where
  refl : ∀ w, S w w
  setWire : ∀ l x w, S w (w.setWire l x)
  sent : ∀ d w, S w { w with sent := w.sent ++ [d] }
  enqueue : ∀ queue payload rank w,
    S w (w.callStore .enqueue fun s => s.enqueue queue payload rank).2

/-- A relation that commands go along, too. -/
structure World.Dispatching (S : World → World → Prop) : Prop extends Ordinary S where
  takeOff : ∀ device command value w, S w (Dispatch.takeOff device command value w).2

/-- A relation that the records about rules of some numbers go along. -/
structure World.Recording (A : Int → Prop) (S : World → World → Prop) : Prop where
  refl : ∀ w, S w w
  memory : ∀ m w, S w { w with memory := m }
  channel : ∀ c w, S w { w with channel := c }
  record : ∀ x : Execution, A x.ruleId → ∀ w,
    S w (w.callStore .recordExecution fun s => s.recordExecution x).2
  note : ∀ id t (n : Nat) w, S w (w.callStore .noteTrigger fun s => s.noteTrigger id t n).2

/-- A relation that all goes along that is done about rules of some numbers. -/
structure World.Working (A : Int → Prop) (S : World → World → Prop) : Prop
    extends Dispatching S, Recording A S where
  consult : ∀ c w, S w (w.consult c).2

theorem unmoved_refl (w : World) : Unmoved w w := ⟨rfl, rfl, rfl, rfl, rfl, .refl w⟩

theorem unmoved_enqueue (queue : String) (payload : Doc) (rank : String) (w : World) :
    Unmoved w (w.callStore .enqueue fun s => s.enqueue queue payload rank).2 :=
  unmoved_callStore rfl (fun h => by cases h; exact ⟨rfl, rfl⟩) w

theorem ordinary_unmoved : Ordinary Unmoved where
  refl := unmoved_refl
  setWire l x w := by
    cases l with
    | webhook => exact ⟨rfl, rfl, rfl, rfl, rfl, rfl, rfl, rfl, fun _ _ => rfl⟩
    | notice => exact ⟨rfl, rfl, rfl, rfl, rfl, rfl, rfl, rfl, fun _ _ => rfl⟩
  sent _ _ := ⟨rfl, rfl, rfl, rfl, rfl, rfl, rfl, rfl, fun _ _ => rfl⟩
  enqueue := unmoved_enqueue

theorem recording_unmoved : Recording (fun _ => True) Unmoved where
  refl := unmoved_refl
  memory _ _ := ⟨rfl, rfl, rfl, rfl, rfl, rfl, rfl, rfl, fun _ _ => rfl⟩
  channel _ _ := ⟨rfl, rfl, rfl, rfl, rfl, rfl, rfl, rfl, fun _ _ => rfl⟩
  record _ _ := unmoved_callStore rfl fun h => by
    obtain ⟨row, -, rfl⟩ := Store.recordExecution_eq_ok h
    exact ⟨rfl, rfl⟩
  note _ _ _ := unmoved_callStore rfl fun h => by
    obtain ⟨i, -, rfl⟩ := Store.noteTrigger_eq_ok h
    exact ⟨rfl, rfl⟩

theorem working_atOnce : Working (fun _ => True) AtOnce where
  refl := atOnce_refl
  setWire l x w := (ordinary_unmoved.setWire l x w).atOnce
  sent d w := (ordinary_unmoved.sent d w).atOnce
  enqueue queue payload rank w := (unmoved_enqueue queue payload rank w).atOnce
  takeOff device command value w := by
    obtain ⟨t, ht⟩ := w.consult_failing .deviceCommand
    unfold Dispatch.takeOff
    rcases hc : w.consult .deviceCommand with ⟨e, v⟩
    rw [hc] at ht
    cases ht
    rfl
  memory m w := (recording_unmoved.memory m w).atOnce
  channel c w := (recording_unmoved.channel c w).atOnce
  record x h w := (recording_unmoved.record x h w).atOnce
  note id t n w := (recording_unmoved.note id t n w).atOnce
  consult c w := by
    obtain ⟨t, ht⟩ := w.consult_failing c
    rw [ht]
    rfl

section

variable {S : World → World → Prop} {A : Int → Prop}

/-! ## Notices, requests and jobs -/

theorem along_exchange (hS : Ordinary S) (l : Line) (r : Except Fault Request) :
    Work.Along S (Work.exchange l r) :=
  .bind (.ofExcept r) fun _ => .bind (.lift (.change fun w => hS.setWire l _ w)) fun _ =>
    .bind (.lift (.sleep _)) fun _ => .ofExcept _

theorem along_exchangeOk (hS : Ordinary S) (l : Line) (r : Except Fault Request) :
    Work.Along S (Work.exchangeOk l r) := by
  refine .bind (along_exchange hS l r) fun answer => ?_
  cases r with
  | error e => exact .throw e
  | ok q =>
    simp only
    split
    · exact .pure _
    · exact .throw _

theorem along_deliverBy (hS : Ordinary S) (s : Settings) (n : Notice) (medium : String) :
    Work.Along S (Notice.deliverBy s n medium) := by
  have hpost : ∀ url headers body, Work.Along S (Notice.post url headers body) := by
    refine fun url headers body => .tryCatch (.bind (along_exchangeOk hS _ _) fun _ => .pure _)
      fun e => ?_
    split
    · exact .pure _
    · exact .throw e
  unfold Notice.deliverBy
  split
  · exact .pure _
  · split
    · exact hpost _ _ _
    · exact .pure _
  · exact .pure _

theorem along_deliverAll (hS : Ordinary S) (s : Settings) (n : Notice) (media : List String)
    (d : Delivered) : Work.Along S (Notice.deliverAll s n media d) := by
  induction media generalizing d with
  | nil => exact .pure d
  | cons m r ih => exact .bind (along_deliverBy hS s n m) fun ok => ih _

theorem along_notify (hS : Ordinary S) (a : NoticeAction) (o : Occasion) :
    Work.Along S (Dispatch.notify a o) := by
  have hsent : ∀ (n : Notice) asked, Work.Along S (n.sendNoted asked) := by
    refine fun n asked => .bind (.bind (.lift (.look hS.refl _)) fun s => ?_)
      fun d => .bind (.lift (.modify fun w => hS.sent _ w)) fun _ => .pure d
    split
    · exact along_deliverAll hS _ _ _ _
    · exact .pure _
  refine .bind (hsent _ _) fun delivered => ?_
  split
  · exact .pure _
  · exact .throw _

/-- An action that commands no device. -/
def Action.harmless : Action → Bool
  | .device _ => false
  | _ => true

theorem along_perform_harmless (hS : Ordinary S) {a : Action} (ha : a.harmless = true)
    (o : Occasion) : Work.Along S (Dispatch.perform a o) := by
  cases a with
  | device a => cases ha
  | notice a => exact along_notify hS a o
  | webhook a => exact .bind (along_exchangeOk hS _ _) fun answer => .pure _
  | job a =>
    exact .bind (.lift (.sleep 0)) fun _ =>
      .bind (.store fun w => hS.enqueue _ _ _ w) fun job => .pure _

theorem along_limited {α : Type} (seconds : Float) {p : Activity α} (h : Plan.Along S p) :
    Plan.Along S (Dispatch.limited seconds p) := by
  refine .bind (.sleep 0) fun _ => ?_
  cases Dispatch.limit? seconds with
  | none => exact .pure none
  | some d => exact h.within d

/-- An action that has its turn, under its time limit. -/
theorem along_tried (refl : ∀ w, S w w) (i : Nat) {a : Action} {o : Occasion}
    (h : Work.Along S (Dispatch.perform a o)) : Plan.Along S (do
      let seconds ← Plan.look fun w : World => w.settings.actionTimeout
      let result ← Dispatch.limited seconds (Dispatch.perform a o).run
      pure (⟨i, a.kind, Dispatch.settle a.kind seconds result⟩ : Outcome)) :=
  .bind (.look refl _) fun seconds => .bind (along_limited seconds h) fun _ => .pure _

theorem along_tryOne_harmless (hS : Ordinary S) {a : Action} (ha : a.harmless = true) (i : Nat)
    (o : Occasion) : Plan.Along S (Dispatch.tryOne i a o) := by
  have htried := along_tried hS.refl i (along_perform_harmless hS ha o)
  cases a with
  | device d => cases ha
  | notice _ => exact htried
  | webhook _ => exact htried
  | job _ => exact htried

/-! ## Commands -/

/-- What follows on a command: the job that undoes it. -/
theorem along_undo (hS : Ordinary S) (a : DeviceAction) (o : Occasion) (change : DeviceChange) :
    Work.Along S (match a.duration with
      | none => pure (.device change none)
      | some minutes => do
        let revert ← Work.ofExcept (Revert.after a change minutes o)
        ExceptT.lift Plan.yield
        let job ← Work.store .enqueue fun s =>
          s.enqueue revertQueue revert.toDoc JobRank.high.name
        pure (.device change (some job)) : Work Effect) := by
  cases a.duration with
  | none => exact .pure _
  | some minutes =>
    exact .bind (.ofExcept _) fun revert => .bind (.lift (.sleep 0)) fun _ =>
      .bind (.store fun w => hS.enqueue _ _ _ w) fun job => .pure _

theorem along_control (hS : Dispatching S) (a : DeviceAction) (o : Occasion) :
    Work.Along S (Dispatch.control a o) :=
  .bind (.bind (.lift (.change fun w => hS.takeOff _ _ _ w)) fun _ => .bind (.lift (.sleep _))
    fun _ => .bind (.lift (.look hS.refl _)) fun _ => .ofExcept _)
      fun change => along_undo hS.toOrdinary a o change

theorem along_perform (hS : Dispatching S) (a : Action) (o : Occasion) :
    Work.Along S (Dispatch.perform a o) := by
  cases a with
  | device d => exact along_control hS d o
  | notice a => exact along_perform_harmless hS.toOrdinary (a := .notice a) rfl o
  | webhook a => exact along_perform_harmless hS.toOrdinary (a := .webhook a) rfl o
  | job a => exact along_perform_harmless hS.toOrdinary (a := .job a) rfl o

theorem along_awaitLast (refl : ∀ w, S w w) (device : String) (n : Nat) :
    Plan.Along S (Dispatch.awaitLast device n) := by
  induction n with
  | zero => exact .pure ()
  | succ n ih =>
    refine .bind (.look refl _) fun d => ?_
    cases d with
    | none => exact .pure ()
    | some d => exact .bind (.sleep d) fun _ => ih

/-- A wait for a device goes along whatever goes along with nothing. -/
theorem along_awaitDevice (refl : ∀ w, S w w) (device : String) :
    Plan.Along S (Dispatch.awaitDevice device) :=
  .bind (.look refl _) (along_awaitLast refl device)

theorem along_tryOne (hS : Dispatching S) (i : Nat) (a : Action) (o : Occasion) :
    Plan.Along S (Dispatch.tryOne i a o) := by
  have htried : ∀ a, Plan.Along S _ := fun a =>
    along_tried hS.refl i (along_perform hS a o)
  cases a with
  | device d =>
    exact .bind (along_awaitDevice hS.refl d.device) fun _ => htried (.device d)
  | notice a => exact htried (.notice a)
  | webhook a => exact htried (.webhook a)
  | job a => exact htried (.job a)

theorem along_tryFrom (hS : Dispatching S) (i : Nat) (o : Occasion) (actions : List Action) :
    Plan.Along S (Dispatch.tryFrom i o actions) := by
  induction actions generalizing i with
  | nil => exact .pure []
  | cons a actions ih =>
    exact .bind (along_tryOne hS i a o) fun x => .bind (ih _) fun xs => .pure _

/-! ## Records -/

namespace Engine

variable {α : Type}

theorem along_keep (hS : Recording A S) {x : Work α} (hx : Work.Along S x) :
    Plan.Along S (keep x) := by
  refine Plan.Along.bind hx fun r => ?_
  cases r with
  | ok a => exact .pure _
  | error e => exact .bind (.modify fun w => hS.memory _ w) fun _ => .pure _

theorem along_count (hS : Recording A S) (f : Tally → Tally) : Plan.Along S (count f) :=
  .modify fun w => hS.memory _ w

theorem along_publish (hS : Recording A S) (kind : EventKind) (payload : Doc) :
    Plan.Along S (publish kind payload) :=
  .modify fun w => hS.channel _ w

theorem along_record (hS : Recording A S) {x : Execution} (hx : A x.ruleId) :
    Plan.Along S (record x) :=
  along_keep hS (.store fun w => hS.record x hx w)

theorem along_markTriggered (hS : Recording A S) (rule : Rule) (now : Moment) :
    Work.Along S (markTriggered rule now) := by
  refine .bind (Plan.Along.change fun w => ?_) fun p =>
    .bind (.lift (along_keep hS (.store fun w => hS.note _ _ _ w))) fun _ =>
      .bind (.lift (along_count hS _)) fun _ => .pure _
  simp only
  split
  · exact hS.memory _ w
  · exact hS.refl w

/-- What follows on the actions of a rule is no more than records. -/
theorem along_suppress (hS : Recording A S) (rule : Rule) (hrule : A rule.id) (now : Moment)
    (e : Evaluation) (s : Snapshot) : Work.Along S (suppress rule now e s) :=
  .bind (.lift (along_count hS _)) fun _ => .bind (.lift (.look hS.refl _)) fun _ =>
    .bind (.ofExcept _) fun _ => .bind (.lift (along_record hS hrule)) fun _ => .pure _

theorem along_recordFault (hS : Recording A S) (rule : Rule) (hrule : A rule.id) (now : Moment)
    (judged : Option (Evaluation × Snapshot)) (f : Fault) :
    Plan.Along S (recordFault rule now judged f) :=
  .bind (along_count hS _) fun _ => .bind (along_record hS hrule) fun _ => .pure _

/-! ## Rules -/

theorem along_fetch (hS : Working A S) (c : Contact) (f : Store → Except Fault α) :
    Work.Along S (Work.fetch c f) := by
  refine .store fun w => ?_
  have hw := hS.consult c w
  unfold callStore
  rcases hc : w.consult c with ⟨_ | e, v⟩
  · rw [hc] at hw
    cases hf : f v.store with
    | ok a => simpa only [hf, Except.map] using hw
    | error e => simpa only [hf, Except.map] using hw
  · rw [hc] at hw
    exact hw

theorem along_evaluate (hS : Working A S) (c : Condition) (now : Moment) :
    Work.Along S (evaluate c now) := by
  have hask : ∀ q, Work.Along S (Work.ask now q) := by
    intro q
    cases q with
    | device d => exact .bind (.consult (hS.consult _)) fun _ => along_fetch hS _ _
    | latest _ _ | aggregate _ _ _ _ | history _ _ _ | lastSeen _ => exact along_fetch hS _ _
  have hgather : ∀ qs, Work.Along S (Snapshot.gather (Work.ask now) qs) := by
    intro qs
    induction qs with
    | nil => exact .pure _
    | cons q qs ih => exact .bind (hask q) fun a => .bind ih fun rest => .pure _
  refine .bind (.lift (.look hS.toDispatching.refl _)) fun zone => .bind ?_ fun s =>
    .bind (.ofExcept _) fun e => .pure _
  unfold Condition.capture
  cases zone.local? now with
  | error e => exact .throw e
  | ok clock => exact .bind (hgather _) fun answers => .pure _

theorem along_fire (hS : Working A S) (rule : Rule) (hrule : A rule.id) (now : Moment)
    (e : Evaluation) (s : Snapshot) : Work.Along S (fire rule now e s) := by
  have hrecording := hS.toRecording
  refine .bind (.bind (.consult (hS.consult _)) fun _ =>
    .lift (along_tryFrom hS.toDispatching _ _ _)) fun outcomes => ?_
  simp only
  split
  · exact .bind (along_markTriggered hrecording rule now) fun _ =>
      .bind (.lift (along_record hrecording hrule)) fun _ =>
        .bind (.lift (along_publish hrecording _ _)) fun _ => .pure _
  · exact .bind (.bind (.lift (along_count hrecording _)) fun _ => .pure _) fun _ =>
      .bind (.lift (along_record hrecording hrule)) fun _ =>
        .bind (.lift (along_publish hrecording _ _)) fun _ => .pure _

theorem along_respond (hS : Working A S) (rule : Rule) (hrule : A rule.id) (now : Moment)
    (bypass : Bool) (e : Evaluation) (s : Snapshot) :
    Work.Along S (respond rule now bypass e s) := by
  cases bypass with
  | true => exact along_fire hS rule hrule now e s
  | false =>
    refine .bind (.bind (.lift (.look hS.toDispatching.refl _)) fun _ => .ofExcept _) fun may => ?_
    cases may with
    | true => exact along_fire hS rule hrule now e s
    | false => exact along_suppress hS.toRecording rule hrule now e s

/-- Looking at a rule goes along what its actions and its records go along. -/
theorem along_processRule (hS : Working A S) (rule : Rule) (hrule : A rule.id) (now : Moment)
    (bypass force : Bool) : Plan.Along S (processRule rule now bypass force) := by
  have hfault := fun judged f => along_recordFault hS.toRecording rule hrule now judged f
  refine .bind (along_count hS.toRecording _) fun _ =>
    .bind (along_evaluate hS rule.conditions now) fun r => ?_
  rcases r with f | ⟨e, s⟩
  · exact hfault none f
  · simp only
    split
    · exact .pure _
    · refine .bind (along_respond hS rule hrule now bypass e s) fun r => ?_
      cases r with
      | ok r => exact .pure r
      | error f => exact hfault _ f

theorem along_processAll (hS : Working A S) (now : Moment) (rules : List Rule)
    (hrules : ∀ rule ∈ rules, A rule.id) : Plan.Along S (processAll now rules) := by
  induction rules with
  | nil => exact .pure _
  | cons rule rules ih =>
    exact .bind (along_processRule hS rule (hrules rule (List.mem_cons_self ..)) now false false)
      fun _ => .bind (ih fun r hr => hrules r (List.mem_cons_of_mem _ hr)) fun _ => .pure _

end Engine

end

end Glasshouse
