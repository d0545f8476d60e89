/-
Glasshouse.Proofs.World.Apart — judging conditions and carrying out actions stays
apart from the interior of a world: neither reads the rules, their history or
what the engine remembers, and neither changes them; nor do they make the calls
that keep the books. Main statements: `apart_evaluate` and `apart_dispatch`.
-/
import Glasshouse.Engine
import Glasshouse.Proofs.World.Parts

namespace Glasshouse

open Calendar Plan World

namespace World.Apart

variable {α β : Type}

/-! ## Building blocks -/

protected theorem pure (a : α) : Apart (pure a : Activity α) := fun _ _ => .pure a

protected theorem bind {p : Activity α} {k : α → Activity β} (hp : Apart p)
    (hk : ∀ a, Apart (k a)) : Apart (p >>= k) :=
  fun R hR => (hp R hR).bind fun a => hk a R hR

protected theorem sleep (d : Duration) : Apart (Plan.sleep d) := fun _ _ => .sleep d

protected theorem within {p : Activity α} (hp : Apart p) (limit : Duration) :
    Apart (p.within limit) :=
  fun R hR => (hp R hR).within limit

/-- A question about the outskirts. -/
protected theorem look {f : World → α} (h : ∀ v w : World, v.still = w.still → f v = f w) :
    Apart (Plan.look f) :=
  fun _ hR => .look fun v w hvw => h v w (hR.still hvw)

end World.Apart

/-- Work that stays apart from the interior. -/
def Work.Apart {α : Type} (x : Work α) : Prop := World.Apart x.run

namespace Work.Apart

variable {α β : Type}

protected theorem pure (a : α) : Work.Apart (pure a) := fun _ _ => respects_pure a

protected theorem throw (e : Fault) : Work.Apart (throw e : Work α) := fun _ _ => respects_throw e

protected theorem ofExcept (x : Except Fault α) : Work.Apart (ofExcept x) :=
  fun _ _ => respects_ofExcept x

protected theorem bind {x : Work α} {f : α → Work β} (hx : Work.Apart x)
    (hf : ∀ a, Work.Apart (f a)) : Work.Apart (x >>= f) :=
  fun R hR => respects_bind (hx R hR) fun a => hf a R hR

protected theorem lift {p : Activity α} (h : World.Apart p) :
    Work.Apart (ExceptT.lift p : Work α) :=
  fun R hR => respects_lift (h R hR)

protected theorem tryCatch {x : Work α} {f : Fault → Work α} (hx : Work.Apart x)
    (hf : ∀ e, Work.Apart (f e)) : Work.Apart (tryCatch x f) :=
  fun R hR => respects_tryCatch (hx R hR) fun e => hf e R hR

end Work.Apart

/-! ## Calls -/

theorem apart_consult {c : Contact} (hc : c.keepsBooks = false) : Work.Apart (Work.consult c) := by
  intro R hR
  refine Alike.change fun v w hvw => ?_
  obtain ⟨e, v', w', hv, hw, hnext⟩ := hR.consult c hc hvw
  rw [hv, hw]
  cases e with
  | none => exact ⟨rfl, hnext⟩
  | some e => exact ⟨rfl, hnext⟩

/-- A call to the store that fails alike in indistinguishable worlds, and keeps them so. -/
theorem apart_store {α : Type} {c : Contact} (hc : c.keepsBooks = false)
    {f : Store → Except Fault (α × Store)}
    (hf : ∀ R, Indistinguishable R → ∀ v w, R v w →
      (∃ e, f v.store = .error e ∧ f w.store = .error e)
        ∨ ∃ a s t, f v.store = .ok (a, s) ∧ f w.store = .ok (a, t)
          ∧ R { v with store := s } { w with store := t }) :
    Work.Apart (Work.store c f) := by
  intro R hR
  refine Alike.change fun v w hvw => ?_
  obtain ⟨e, v', w', hv, hw, hnext⟩ := hR.consult c hc hvw
  unfold callStore
  rw [hv, hw]
  cases e with
  | some e => exact ⟨rfl, hnext⟩
  | none =>
    rcases hf R hR v' w' hnext with ⟨e, he, he'⟩ | ⟨a, s, t, hs, ht, hst⟩
    · simp only [he, he']
      exact ⟨trivial, hnext⟩
    · simp only [hs, ht]
      exact ⟨trivial, hst⟩

/-- A call to the store that reads no more than readings and devices. -/
theorem apart_fetch {α : Type} {c : Contact} (hc : c.keepsBooks = false)
    {f : Store → Except Fault α}
    (hf : ∀ s t : Store, s.readings = t.readings → s.devices = t.devices → f s = f t) :
    Work.Apart (Work.fetch c f) := by
  refine apart_store hc fun R hR v w hvw => ?_
  rw [hf v.store w.store (hR.readings hvw) (congrArg Outskirts.devices (hR.still hvw))]
  cases f w.store with
  | ok a => exact .inr ⟨a, v.store, w.store, rfl, rfl, hvw⟩
  | error e => exact .inl ⟨e, rfl, rfl⟩

theorem apart_enqueue (queue : String) (payload : Doc) (rank : String) :
    Work.Apart (Work.store .enqueue fun s => s.enqueue queue payload rank) := by
  refine apart_store rfl fun R hR v w hvw => .inr ?_
  have hjobs : v.store.jobs = w.store.jobs := congrArg Outskirts.jobs (hR.still hvw)
  have hput : Distant fun u : World => ((), { u with store := { u.store with
      jobs := u.store.jobs ++
        [⟨Store.nextId (u.store.jobs.map (·.id)), queue, rank, payload, "pending"⟩] } }) :=
    fun o => ⟨(), { o with jobs := o.jobs ++
      [⟨Store.nextId (o.jobs.map (·.id)), queue, rank, payload, "pending"⟩] }, fun _ _ => rfl⟩
  refine ⟨Store.nextId (v.store.jobs.map (·.id)), _, _, rfl, ?_, hR.distant hput hvw⟩
  rw [hjobs]
  rfl

theorem apart_exchange (l : Line) (r : Except Fault Request) : Work.Apart (Work.exchange l r) := by
  refine .bind (.ofExcept r) fun q => ?_
  refine .bind (.lift (Distant.apart fun o => ?_)) fun reply => ?_
  · cases l with
    | webhook =>
      exact ⟨(o.webhooks.send q).1, { o with webhooks := (o.webhooks.send q).2 }, fun i t => rfl⟩
    | notice =>
      exact ⟨(o.notices.send q).1, { o with notices := (o.notices.send q).2 }, fun i t => rfl⟩
  · exact .bind (.lift (.sleep _)) fun _ => .ofExcept _

theorem apart_exchangeOk (l : Line) (r : Except Fault Request) :
    Work.Apart (Work.exchangeOk l r) := by
  refine .bind (apart_exchange l r) fun answer => ?_
  cases r with
  | error e => exact .throw e
  | ok q =>
    simp only
    split
    · exact .pure _
    · exact .throw _

/-! ## Conditions -/

theorem apart_ask (now : Moment) (q : Query) : Work.Apart (Work.ask now q) := by
  cases q with
  | latest s f =>
    refine apart_fetch rfl fun s t hr _ => ?_
    simp only [Store.latest, Store.readingsOf, hr]
  | device d =>
    refine .bind (apart_consult rfl) fun _ => apart_fetch rfl fun s t _ hd => ?_
    simp only [Store.device?, hd]
  | aggregate s f fn w =>
    refine apart_fetch rfl fun s t hr _ => ?_
    simp only [Store.aggregate, Store.readingsOf, hr]
  | history s f w =>
    refine apart_fetch rfl fun s t hr _ => ?_
    simp only [Store.history, Store.readingsOf, hr]
  | lastSeen s =>
    refine apart_fetch rfl fun s t hr _ => ?_
    simp only [Store.lastSeen, hr]

theorem apart_gather (now : Moment) (qs : List Query) :
    Work.Apart (Snapshot.gather (Work.ask now) qs) := by
  induction qs with
  | nil => exact .pure _
  | cons q qs ih => exact .bind (apart_ask now q) fun a => .bind ih fun rest => .pure _

/-- Conditions are judged apart from the interior. -/
theorem apart_evaluate (c : Condition) (now : Moment) : Work.Apart (Engine.evaluate c now) := by
  refine .bind (.lift fun R hR => .look fun v w hvw => hR.zone hvw) fun zone => ?_
  refine .bind ?_ fun s => .bind (.ofExcept _) fun e => .pure _
  unfold Condition.capture
  cases zone.local? now with
  | error e => exact .throw e
  | ok clock => exact .bind (apart_gather now _) fun answers => .pure _

/-! ## Actions -/

theorem apart_post (url : String) (headers : List (String × String)) (body : Doc) :
    Work.Apart (Notice.post url headers body) := by
  refine .tryCatch (.bind (apart_exchangeOk _ _) fun _ => .pure _) fun e => ?_
  split
  · exact .pure _
  · exact .throw e

theorem apart_deliverBy (s : Settings) (n : Notice) (medium : String) :
    Work.Apart (Notice.deliverBy s n medium) := by
  unfold Notice.deliverBy
  split
  · exact .pure _
  · split
    · exact apart_post _ _ _
    · exact .pure _
  · exact .pure _

theorem apart_deliverAll (s : Settings) (n : Notice) (media : List String) (d : Delivered) :
    Work.Apart (Notice.deliverAll s n media d) := by
  induction media generalizing d with
  | nil => exact .pure d
  | cons m r ih => exact .bind (apart_deliverBy s n m) fun ok => ih _

theorem apart_keepSent (d : Doc) :
    Apart (Plan.modify fun w : World => { w with sent := w.sent ++ [d] }) := by
  have h : Distant fun w : World => ((), { w with sent := w.sent ++ [d] }) :=
    fun o => ⟨(), { o with sent := o.sent ++ [d] }, fun _ _ => rfl⟩
  exact h.apart

theorem apart_sendNoted (n : Notice) (asked : List (String × Doc)) :
    Work.Apart (n.sendNoted asked) := by
  refine .bind (.bind (.lift (.look fun v w h => congrArg Outskirts.settings h)) fun s => ?_)
    fun d => .bind (.lift (apart_keepSent _)) fun _ => .pure d
  split
  · exact apart_deliverAll _ _ _ _
  · exact .pure _

theorem apart_notify (a : NoticeAction) (o : Occasion) : Work.Apart (Dispatch.notify a o) := by
  refine .bind (apart_sendNoted _ _) fun delivered => ?_
  split
  · exact .pure _
  · exact .throw _

theorem apart_takeOff (device command : String) (value : Option String) :
    Apart (Plan.change (Dispatch.takeOff device command value)) := by
  intro R hR
  refine Alike.change fun v w hvw => ?_
  obtain ⟨e, v', w', hv, hw, hnext⟩ := hR.consult .deviceCommand rfl hvw
  unfold Dispatch.takeOff
  rw [hv, hw]
  have hstart : Distant fun u : World =>
      ((u.tickets, (u.delays.get? command).getD 0), { u with
        tickets := u.tickets + 1
        flights := u.flights ++ [⟨u.tickets, device, command, value,
          u.elapsed + (u.delays.get? command).getD 0, e⟩]
        writes := u.writes.put device u.tickets }) :=
    fun o => ⟨(o.tickets, (o.delays.get? command).getD 0), { o with
      tickets := o.tickets + 1
      flights := o.flights ++ [⟨o.tickets, device, command, value,
        o.elapsed + (o.delays.get? command).getD 0, e⟩]
      writes := o.writes.put device o.tickets },
      fun _ _ => rfl⟩
  have hworlds := hR.distant hstart hnext
  exact ⟨hstart.fst_eq (hR.still hnext), hworlds⟩

theorem apart_control (a : DeviceAction) (o : Occasion) : Work.Apart (Dispatch.control a o) := by
  refine .bind ?_ fun change => ?_
  · refine .bind (.lift (apart_takeOff _ _ _)) fun t => ?_
    refine .bind (.lift (.sleep _)) fun _ => .bind (.lift ?_) fun r => .ofExcept _
    exact .look fun v w h => congrArg (fun o : Outskirts => o.landed.get? t.1) h
  · cases a.duration with
    | none => exact .pure _
    | some minutes =>
      refine .bind (.ofExcept _) fun revert => .bind (.lift (.sleep 0)) fun _ => ?_
      exact .bind (apart_enqueue _ _ _) fun job => .pure _

theorem apart_perform (a : Action) (o : Occasion) : Work.Apart (Dispatch.perform a o) := by
  cases a with
  | notice a => exact apart_notify a o
  | device a => exact apart_control a o
  | webhook a => exact .bind (apart_exchangeOk _ _) fun answer => .pure _
  | job a =>
    exact .bind (.lift (.sleep 0)) fun _ => .bind (apart_enqueue _ _ _) fun job => .pure _

theorem apart_awaitLast (device : String) (n : Nat) : Apart (Dispatch.awaitLast device n) := by
  induction n with
  | zero => exact .pure ()
  | succ n ih =>
    refine .bind (.look fun v w h => ?_) fun d => ?_
    · exact congrArg (fun o : Outskirts => ((o.writes.get? device).bind fun n =>
        o.flights.find? fun f => f.ticket == n && f.device == device).map (·.due - o.elapsed)) h
    · cases d with
      | none => exact .pure ()
      | some d => exact .bind (.sleep d) fun _ => ih

theorem apart_awaitDevice (device : String) : Apart (Dispatch.awaitDevice device) :=
  .bind (.look fun _ _ h => congrArg (fun o : Outskirts => o.flights.length) h)
    fun n => apart_awaitLast device n

theorem apart_tryOne (i : Nat) (a : Action) (o : Occasion) : Apart (Dispatch.tryOne i a o) := by
  have hsettle : Apart (do
      let seconds ← Plan.look fun w : World => w.settings.actionTimeout
      let result ← Dispatch.limited seconds (Dispatch.perform a o).run
      pure (⟨i, a.kind, Dispatch.settle a.kind seconds result⟩ : Outcome)) := by
    refine .bind (.look fun v w h => congrArg (fun o => o.settings.actionTimeout) h)
      fun seconds => .bind (.bind (.sleep 0) fun _ => ?_) fun r => .pure _
    cases Dispatch.limit? seconds with
    | none => exact .pure none
    | some d => exact .within (apart_perform a o) d
  cases a with
  | device d => exact .bind (apart_awaitDevice d.device) fun _ => hsettle
  | notice _ => exact hsettle
  | webhook _ => exact hsettle
  | job _ => exact hsettle

theorem apart_tryFrom (i : Nat) (o : Occasion) (actions : List Action) :
    Apart (Dispatch.tryFrom i o actions) := by
  induction actions generalizing i with
  | nil => exact .pure []
  | cons a r ih => exact .bind (apart_tryOne i a o) fun x => .bind (ih _) fun xs => .pure _

/-- Actions are carried out apart from the interior. -/
theorem apart_dispatch (actions : List Action) (o : Occasion) :
    Work.Apart (Dispatch.run actions o) :=
  .bind (apart_consult rfl) fun _ => .lift (apart_tryFrom 0 o actions)

end Glasshouse
