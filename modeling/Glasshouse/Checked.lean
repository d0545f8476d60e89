/-
Glasshouse.Checked — the outcome of reading a document as something typed: a
value, the list of everything that is wrong, or a fault that ends the reading
at once. Readings side by side are combined with `<*>`, which keeps the issues
of both; `Checked.andThen` asks a further question only about a value.
-/
import Glasshouse.Issue

namespace Glasshouse

/-- The outcome of a reading. -/
inductive Checked (α : Type) where
  | ok (a : α)
  | flawed (issues : List Issue)
  | broken (fault : Fault)

namespace Checked

variable {α β : Type}

/-- A single issue at the place itself. -/
def flaw (c : Cause) : Checked α := .flawed [⟨[], c⟩]

/-- A value changed by a function. -/
def map (f : α → β) : Checked α → Checked β
  | ok a => ok (f a)
  | flawed is => flawed is
  | broken e => broken e

/-- Two readings side by side: both values, the issues of both in order, or the
first fault. -/
def both (x : Checked α) (y : Checked β) : Checked (α × β) :=
  match x, y with
  | broken e, _ => broken e
  | _, broken e => broken e
  | ok a, ok b => ok (a, b)
  | ok _, flawed js => flawed js
  | flawed is, ok _ => flawed is
  | flawed is, flawed js => flawed (is ++ js)

instance : Functor Checked where
  map := Checked.map

instance : Applicative Checked where
  pure := ok
  seq f x := ((f.both (x ())).map fun p => p.1 p.2)

/-- A question about a value that is there. -/
def andThen (x : Checked α) (f : α → Checked β) : Checked β :=
  match x with
  | ok a => f a
  | flawed is => flawed is
  | broken e => broken e

/-- The outcome seen from one step further out. -/
def under (s : Step) : Checked α → Checked α
  | ok a => ok a
  | flawed is => flawed (is.map (Issue.under s))
  | broken e => broken e

/-- A value that may be missing, as an outcome. -/
def ofOption (c : Cause) : Option α → Checked α
  | some a => ok a
  | none => flaw c

/-- The elements of a list read side by side, each at its index. -/
def each (f : α → Checked β) (i : Nat) : List α → Checked (List β)
  | [] => ok []
  | a :: r => List.cons <$> (f a).under (.index i) <*> each f (i + 1) r

@[simp] theorem map_ok (f : α → β) (a : α) : (ok a).map f = ok (f a) := rfl

@[simp] theorem under_ok (s : Step) (a : α) : (ok a : Checked α).under s = ok a := rfl

theorem both_eq_ok {x : Checked α} {y : Checked β} {p : α × β} :
    x.both y = ok p ↔ x = ok p.1 ∧ y = ok p.2 := by
  obtain ⟨a, b⟩ := p
  cases x <;> cases y <;> simp [both]

theorem map_eq_ok {f : α → β} {x : Checked α} {b : β} :
    x.map f = ok b ↔ ∃ a, x = ok a ∧ f a = b := by
  cases x <;> simp [map]

theorem seq_eq_ok {f : Checked (α → β)} {x : Checked α} {b : β} :
    f <*> x = ok b ↔ ∃ g a, f = ok g ∧ x = ok a ∧ g a = b := by
  simp only [Seq.seq, map_eq_ok, both_eq_ok]
  constructor
  · rintro ⟨⟨g, a⟩, ⟨hf, hx⟩, h⟩; exact ⟨g, a, hf, hx, h⟩
  · rintro ⟨g, a, hf, hx, h⟩; exact ⟨⟨g, a⟩, ⟨hf, hx⟩, h⟩

theorem under_eq_ok {s : Step} {x : Checked α} {a : α} : x.under s = ok a ↔ x = ok a := by
  cases x <;> simp [under]

theorem andThen_eq_ok {x : Checked α} {f : α → Checked β} {b : β} :
    x.andThen f = ok b ↔ ∃ a, x = ok a ∧ f a = ok b := by
  cases x <;> simp [andThen]

end Checked

end Glasshouse
