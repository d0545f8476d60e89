/-
Glasshouse.Table — finite maps as lists of pairs in the order in which their
keys first appeared. `Table.get?_put` and `Table.get?_erase` say what each
operation does to every key.
-/

namespace Glasshouse

/-- A finite map; the first pair with a key counts. -/
abbrev Table (κ α : Type) := List (κ × α)

namespace Table

variable {κ α : Type} [DecidableEq κ]

/-- The value of a key. -/
def get? (t : Table κ α) (k : κ) : Option α :=
  match t with
  | [] => none
  | (l, a) :: r => if l = k then some a else get? r k

/-- A key set to a value, in its old place if it has one. -/
def put (t : Table κ α) (k : κ) (a : α) : Table κ α :=
  match t with
  | [] => [(k, a)]
  | (l, b) :: r => if l = k then (l, a) :: r else (l, b) :: put r k a

/-- The map without a key. -/
def erase (t : Table κ α) (k : κ) : Table κ α :=
  t.filter fun p => !decide (p.1 = k)

/-- The keys, in order. -/
def keys (t : Table κ α) : List κ := t.map (·.1)

@[simp] theorem get?_nil (k : κ) : get? ([] : Table κ α) k = none := rfl

theorem get?_put (t : Table κ α) (k l : κ) (a : α) :
    get? (put t k a) l = if k = l then some a else get? t l := by
  induction t with
  | nil => simp [put, get?]
  | cons p r ih =>
    obtain ⟨m, b⟩ := p
    by_cases hm : m = k
    · subst hm; by_cases h : m = l <;> simp [put, get?, h]
    · by_cases h : m = l
      · subst h; simp [put, get?, hm, Ne.symm hm]
      · simp [put, get?, hm, h, ih]

theorem get?_erase (t : Table κ α) (k l : κ) :
    get? (erase t k) l = if k = l then none else get? t l := by
  induction t with
  | nil => simp [erase, get?]
  | cons p r ih =>
    obtain ⟨m, b⟩ := p
    simp only [erase] at ih
    by_cases hm : m = k
    · subst hm
      simp only [erase, List.filter, decide_true, Bool.not_true, ih]
      by_cases h : m = l <;> simp [get?, h]
    · by_cases h : m = l
      · subst h; simp [erase, get?, hm, Ne.symm hm]
      · simp [erase, get?, hm, h, ih]

theorem get?_eq_none_iff (t : Table κ α) (k : κ) : get? t k = none ↔ k ∉ t.keys := by
  induction t with
  | nil => simp [keys]
  | cons p r ih =>
    obtain ⟨m, b⟩ := p
    by_cases hm : m = k
    · simp [get?, keys, hm]
    · simp only [get?, hm, if_false, ih, keys, List.map_cons, List.mem_cons, not_or]
      exact ⟨fun h => ⟨Ne.symm hm, h⟩, fun h => h.2⟩

end Table

end Glasshouse
