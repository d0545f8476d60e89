/-
Glasshouse.Script — answers given in turn, of which the last repeats. Scripts
stand for collaborators whose behaviour is laid down in advance.
-/

namespace Glasshouse

/-- Answers given in turn; the last one repeats. -/
structure Script (α : Type) where
  head : α
  rest : List α := []

namespace Script

variable {α : Type}

/-- The script of one answer for ever. -/
def always (a : α) : Script α := ⟨a, []⟩

/-- The script of a list of answers; `absent` if it is empty. -/
def ofList (absent : α) : List α → Script α
  | [] => always absent
  | a :: r => ⟨a, r⟩

/-- The script after the present answer was given. -/
def next (s : Script α) : Script α :=
  match s.rest with
  | [] => s
  | a :: r => ⟨a, r⟩

end Script

end Glasshouse
