/-
Glasshouse.Proofs.World.Work — computations in a world that may fail: what each way
of building one does when it is performed alone, and which of them keep a
relation between worlds. A sequence is performed by `Work.run_bind`, which
stops at the first fault.
-/
import Glasshouse.Proofs.World.Plan
import Glasshouse.World

namespace Glasshouse.Work

open Plan

variable {ε α β : Type}

/-! ## Performing -/

/-- A sequence stops at the first fault. -/
theorem run_bind (x : ExceptT ε Activity α) (f : α → ExceptT ε Activity β) (w : World) :
    (x >>= f).run.run w = match x.run.run w with
      | (.ok a, v) => (f a).run.run v
      | (.error e, v) => (.error e, v) := by
  rw [ExceptT.run_bind, run_bind']
  rcases x.run.run w with ⟨_ | _, v⟩ <;> rfl

/-- A sequence that succeeds has gone through both of its parts. -/
theorem bind_run_ok {x : ExceptT ε Activity α} {f : α → ExceptT ε Activity β} {w v : World} {b : β}
    (run : (x >>= f).run.run w = (.ok b, v)) :
    ∃ a u, x.run.run w = (.ok a, u) ∧ (f a).run.run u = (.ok b, v) := by
  rw [run_bind] at run
  rcases hx : x.run.run w with ⟨e | a, u⟩
  · rw [hx] at run
    cases congrArg Prod.fst run
  · rw [hx] at run
    exact ⟨a, u, rfl, run⟩

@[simp] theorem run_lift (p : Activity α) (w : World) :
    (ExceptT.lift p : ExceptT ε Activity α).run.run w = (.ok (p.run w).1, (p.run w).2) := by
  rw [ExceptT.run_lift, run_map']

@[simp] theorem run_pure (a : α) (w : World) :
    (pure a : ExceptT ε Activity α).run.run w = (.ok a, w) := rfl

@[simp] theorem run_mk (p : Activity (Except ε α)) : (ExceptT.mk p).run = p := rfl

@[simp] theorem run_ofExcept (x : Except Fault α) (w : World) :
    (ofExcept x).run.run w = (x, w) := rfl

@[simp] theorem run_store (c : Contact) (f : Store → Except Fault (α × Store)) (w : World) :
    (store c f).run.run w = w.callStore c f := rfl

/-- A call to the store whose result goes into a larger one. -/
theorem run_store_pure (c : Contact) (f : Store → Except Fault (α × Store)) (k : α → β)
    (w : World) : (do let a ← store c f; pure (k a) : Work β).run.run w
      = ((w.callStore c f).1.map k, (w.callStore c f).2) := by
  rw [run_bind, run_store]
  rcases w.callStore c f with ⟨_ | a, v⟩
  · rfl
  · rfl

/-- A call that only reads gives what the store says, and changes nothing but the
script of its outages. -/
theorem run_fetch (c : Contact) (f : Store → Except Fault α) (w : World) :
    (fetch c f).run.run w = match w.consult c with
      | (some e, v) => (.error e, v)
      | (none, v) => (f v.store, v) := by
  rw [fetch, run_store, World.callStore]
  rcases w.consult c with ⟨_ | e, v⟩
  · cases h : f v.store with
    | ok a => simp only [h, Except.map]
    | error e => simp only [h, Except.map]
  · rfl

/-- A call that does nothing of its own. -/
theorem run_consult (c : Contact) (w : World) :
    (consult c).run.run w = ((w.consult c).1.elim (.ok ()) .error, (w.consult c).2) := by
  rw [consult, run_mk, run_change]
  rcases w.consult c with ⟨_ | e, v⟩ <;> rfl

theorem run_tryCatch (x : Work α) (f : Fault → Work α) (w : World) :
    (tryCatch x f).run.run w = match x.run.run w with
      | (.ok a, v) => (.ok a, v)
      | (.error e, v) => (f e).run.run v := by
  refine (Plan.run_bind x.run _ w).trans ?_
  rcases x.run.run w with ⟨_ | _, v⟩
  · rfl
  · rfl

section

variable {l : Line} {q : Request} {w : World} {reply : Reply} {x : Wire}

/-- A request that is made: its answer comes after a while. -/
theorem run_exchange (sent : (w.wire l).send q = (reply, x)) : (exchange l (.ok q)).run.run w
    = (reply.outcome, (w.setWire l x).elapse reply.delay) := by
  unfold exchange
  rw [run_bind, run_ofExcept]
  simp only
  rw [run_bind, run_lift]
  simp only [run_change, sent]
  rw [run_bind, run_lift]
  rfl

/-- Answers that are no success are faults. -/
def demand (q : Request) : Except Fault Response → Except Fault Response
  | .ok answer => if answer.isSuccess then .ok answer else .error (.badStatus (answer.complaint q.url))
  | .error f => .error f

theorem run_exchangeOk (sent : (w.wire l).send q = (reply, x)) :
    (exchangeOk l (.ok q)).run.run w
      = (demand q reply.outcome, (w.setWire l x).elapse reply.delay) := by
  unfold exchangeOk
  rw [run_bind, run_exchange sent]
  cases reply.outcome with
  | error f => rfl
  | ok answer =>
    unfold demand
    by_cases h : answer.isSuccess = true
    · simp only [if_pos h]
      rfl
    · simp only [if_neg h]
      rfl

end

/-! ## Keeping a relation -/

variable {R : World → World → Prop}

theorem respects_pure (a : α) : Respects R (pure a : ExceptT ε Activity α).run := .pure _

theorem respects_throw (e : ε) : Respects R (throw e : ExceptT ε Activity α).run := .pure _

theorem respects_ofExcept (x : Except Fault α) : Respects R (ofExcept x).run := .pure x

theorem respects_bind {x : ExceptT ε Activity α} {f : α → ExceptT ε Activity β}
    (hx : Respects R x.run) (hf : ∀ a, Respects R (f a).run) : Respects R (x >>= f).run := by
  rw [ExceptT.run_bind]
  refine hx.bind fun r => ?_
  cases r with
  | ok a => exact hf a
  | error e => exact .pure _

theorem respects_lift {p : Activity α} (h : Respects R p) :
    Respects R (ExceptT.lift p : ExceptT ε Activity α).run := by
  rw [ExceptT.run_lift, map_eq_pure_bind]
  exact h.bind fun a => .pure _

theorem respects_tryCatch {x : Work α} {f : Fault → Work α} (hx : Respects R x.run)
    (hf : ∀ e, Respects R (f e).run) : Respects R (tryCatch x f).run := by
  refine Respects.bind hx fun r => ?_
  cases r with
  | ok a => exact .pure _
  | error e => exact hf e

end Glasshouse.Work
