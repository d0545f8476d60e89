/-
Glasshouse.Slope — the slope of the line with the least squared distances to
values at the places 0, 1, 2, … . The formula is stated over any arithmetic:
over doubles it is what trends are judged by, over fractions it is exact.
-/

namespace Glasshouse.Slope

variable {α : Type} [Add α] [Sub α] [Mul α] [Div α]

/-- The sum of the places of `n` values. -/
def placeSum (n : Nat) : Nat := (List.range n).foldl (· + ·) 0

/-- The sum of the squares of the places of `n` values. -/
def squareSum (n : Nat) : Nat := (List.range n).foldl (fun s i => s + i * i) 0

/-- The divisor of the formula. -/
def divisor (n : Nat) : Nat := n * squareSum n - placeSum n * placeSum n

/-- A sum from left to right, from zero. -/
def sum (ofNat : Nat → α) (values : List α) : α := values.foldl (· + ·) (ofNat 0)

/-- Each value times its place. -/
def weighted (ofNat : Nat → α) (values : List α) : List α :=
  values.zipIdx.map fun p => ofNat p.2 * p.1

/-- The slope of two or more values. -/
def slope (ofNat : Nat → α) (values : List α) : α :=
  let n := values.length
  (ofNat n * sum ofNat (weighted ofNat values) - ofNat (placeSum n) * sum ofNat values)
    / ofNat (divisor n)

/-- The slope of doubles; fewer than two values have none. -/
def ofValues? (values : List Float) : Option Float :=
  if values.length < 2 then none else some (slope Float.ofNat values)

end Glasshouse.Slope
