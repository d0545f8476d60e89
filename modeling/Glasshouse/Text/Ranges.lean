/-
Glasshouse.Text.Ranges — sets of characters given as ascending lists of
closed code point ranges. The table modules beside this one say which
ranges belong to which property; `Ranges.contains` is the only question
asked of them.
-/

namespace Glasshouse.Text

/-- Closed ranges of code points, ascending and disjoint. -/
abbrev Ranges := List (Nat × Nat)

namespace Ranges

/-- Whether a code point lies in one of the ranges. -/
def contains (rs : Ranges) (n : Nat) : Bool :=
  rs.any fun r => r.1 ≤ n && n ≤ r.2

theorem contains_iff {rs : Ranges} {n : Nat} :
    rs.contains n = true ↔ ∃ r ∈ rs, r.1 ≤ n ∧ n ≤ r.2 := by
  simp [contains]

end Ranges

end Glasshouse.Text
