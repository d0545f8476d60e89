/-
Glasshouse.Proofs.World.Plan — plans as a lawful monad, and plans that run alike. Two
plans are alike for a relation between states if they take the same kinds of
steps, every step keeps the relation, and the results are related. Main
statement: alike plans take related states to related states
(`Alike.run`), also under a time limit (`Alike.within`). A property of single
states is the case of a relation between equal states.
-/
import Glasshouse.Plan

namespace Glasshouse.Plan

variable {σ α β γ δ : Type}

/-! ## The monad laws -/

theorem bind_done (p : Plan σ α) : p.bind done = p := by
  induction p with
  | done a => rfl
  | act f next ih => simp only [bind, ih]
  | wait d next ih => simp only [bind, ih]
  | whenFree d next ih => simp only [bind, ih]

theorem bind_assoc (p : Plan σ α) (k : α → Plan σ β) (l : β → Plan σ γ) :
    (p.bind k).bind l = p.bind fun a => (k a).bind l := by
  induction p with
  | done a => rfl
  | act f next ih => simp only [bind, ih]
  | wait d next ih => simp only [bind, ih]
  | whenFree d next ih => simp only [bind, ih]

instance : LawfulMonad (Plan σ) :=
  LawfulMonad.mk' (Plan σ) bind_done (fun _ _ => rfl) bind_assoc

@[simp] theorem run_map' [Timed σ] (f : α → β) (p : Plan σ α) (s : σ) :
    (f <$> p).run s = (f (p.run s).1, (p.run s).2) := by
  rw [map_eq_pure_bind, run_bind', run_pure]

/-! ## Alike plans -/

/-- A relation between states that time keeps, and that the lock does not break. -/
structure Steady [Timed σ] (R : σ → σ → Prop) : Prop where
  elapse : ∀ {s t : σ} (d : Duration), R s t → R (Timed.elapse d s) (Timed.elapse d t)
  locked : ∀ {s t : σ}, R s t → Timed.locked s = Timed.locked t

/-- Plans that take the same steps, where each step keeps `R` between states and
the results are related by `Q`. -/
inductive Alike (R : σ → σ → Prop) (Q : α → β → Prop) : Plan σ α → Plan σ β → Prop
  | done {a : α} {b : β} (result : Q a b) : Alike R Q (.done a) (.done b)
  | act {f g : σ → σ} {p : σ → Plan σ α} {q : σ → Plan σ β}
      (step : ∀ s t, R s t → R (f s) (g t))
      (next : ∀ s t, R s t → Alike R Q (p s) (q t)) : Alike R Q (.act f p) (.act g q)
  | wait {d : Duration} {p : Plan σ α} {q : Plan σ β} (next : Alike R Q p q) :
      Alike R Q (.wait d p) (.wait d q)
  | whenFree {d : Duration} {p : Bool → Plan σ α} {q : Bool → Plan σ β}
      (next : ∀ free, Alike R Q (p free) (q free)) : Alike R Q (.whenFree d p) (.whenFree d q)

namespace Alike

variable {R : σ → σ → Prop} {Q : α → β → Prop}

protected theorem bind {Q' : γ → δ → Prop} {p : Plan σ α} {q : Plan σ β} {k : α → Plan σ γ}
    {l : β → Plan σ δ} (h : Alike R Q p q) (hk : ∀ a b, Q a b → Alike R Q' (k a) (l b)) :
    Alike R Q' (p >>= k) (q >>= l) := by
  induction h with
  | done result => exact hk _ _ result
  | act step _ ih => exact .act step fun s t hs => ih s t hs
  | wait _ ih => exact .wait ih
  | whenFree _ ih => exact .whenFree ih

protected theorem mono {Q' : α → β → Prop} (hQ : ∀ a b, Q a b → Q' a b) {p : Plan σ α}
    {q : Plan σ β} (h : Alike R Q p q) : Alike R Q' p q := by
  induction h with
  | done result => exact .done (hQ _ _ result)
  | act step _ ih => exact .act step ih
  | wait _ ih => exact .wait ih
  | whenFree _ ih => exact .whenFree ih

/-- Alike plans stay alike under a time limit. -/
protected theorem within {p : Plan σ α} {q : Plan σ β} (h : Alike R Q p q) (limit : Duration) :
    Alike R (Option.Rel Q) (p.within limit) (q.within limit) := by
  induction h generalizing limit with
  | done result => exact .done (.some result)
  | act step _ ih => exact .act step fun s t hs => ih s t hs limit
  | @wait d p q _ ih =>
    simp only [Plan.within]
    split
    · exact .wait (ih _)
    · exact .wait (.done .none)
  | whenFree _ ih => exact .whenFree fun free => ih free limit

/-- Alike plans take related states to related states, and their results are related. -/
protected theorem run [Timed σ] (hR : Steady R) {p : Plan σ α} {q : Plan σ β}
    (h : Alike R Q p q) : ∀ {s t : σ}, R s t →
      Q (p.run s).1 (q.run t).1 ∧ R (p.run s).2 (q.run t).2 := by
  induction h with
  | done result => exact fun hs => ⟨result, hs⟩
  | act step _ ih => exact fun hs => ih _ _ hs (step _ _ hs)
  | wait _ ih => exact fun hs => ih (hR.elapse _ hs)
  | whenFree _ ih =>
    intro s t hs
    simp only [Plan.run, hR.locked hs]
    split
    · exact ih false (hR.elapse _ hs)
    · exact ih true hs

theorem look {f g : σ → α} (h : ∀ s t, R s t → f s = g t) :
    Alike R Eq (Plan.look f) (Plan.look g) :=
  .act (fun _ _ hs => hs) fun s t hs => .done (h s t hs)

theorem change {f : σ → α × σ} {g : σ → β × σ}
    (h : ∀ s t, R s t → Q (f s).1 (g t).1 ∧ R (f s).2 (g t).2) :
    Alike R Q (Plan.change f) (Plan.change g) :=
  .act (fun s t hs => (h s t hs).2) fun s t hs => .done (h s t hs).1

theorem modify {f g : σ → σ} (h : ∀ s t, R s t → R (f s) (g t)) :
    Alike R Eq (Plan.modify f) (Plan.modify g) :=
  .act h fun _ _ _ => .done rfl

theorem sleep (d : Duration) : Alike R Eq (Plan.sleep d) (Plan.sleep d : Plan σ Unit) :=
  .wait (.done rfl)

end Alike

/-- A plan that keeps a relation: whatever two related states it starts from, it
does the same with both. -/
abbrev Respects (R : σ → σ → Prop) (p : Plan σ α) : Prop := Alike R Eq p p

namespace Respects

variable {R : σ → σ → Prop}

protected theorem pure (a : α) : Respects R (pure a : Plan σ α) := .done rfl

protected theorem bind {p : Plan σ α} {k : α → Plan σ β} (h : Respects R p)
    (hk : ∀ a, Respects R (k a)) : Respects R (p >>= k) :=
  Alike.bind h fun a _ e => e ▸ hk a

protected theorem within {p : Plan σ α} (h : Respects R p) (limit : Duration) :
    Respects R (p.within limit) := by
  refine Alike.mono (fun a b hab => ?_) (Alike.within h limit)
  cases hab with
  | some e => rw [e]
  | none => rfl

end Respects

end Glasshouse.Plan
