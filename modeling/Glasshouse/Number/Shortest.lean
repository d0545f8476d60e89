/-
Glasshouse.Number.Shortest — the decimal number with the fewest digits that
reads back as a given double. Around `m · 2^q` lies the interval of reals that
round to it, its ends included when `m` is even. On the grid of numbers with
1, 2, … 17 digits the two neighbours of the value are tested against the
interval; the first grid with a hit wins, and of two hits the nearer.
-/
import Glasshouse.Number.Double

namespace Glasshouse.Number

/-- A decimal number `digits · 10^power`. -/
structure Decimal where
  digits : Nat
  power : Int
  deriving DecidableEq, Repr

/-- The number of decimal digits of a positive natural number. -/
def digitCount (n : Nat) : Nat :=
  (Nat.toDigits 10 n).length

/-- The `p` with `10^(p-1) ≤ num / den < 10^p`. -/
def magnitude (num den : Nat) : Int :=
  if den ≤ num then digitCount (num / den)
  else
    let t := digitCount (den / num)
    if den == num * Nat.pow 10 (t - 1) then 2 - (t : Int) else 1 - (t : Int)

/-- An interval of reals around a value, all three over one denominator. -/
structure Interval where
  low : Nat
  value : Nat
  high : Nat
  den : Nat
  closed : Bool

namespace Interval

/-- The reals that round to `m · 2^q`: half way to either neighbour, the lower
one being nearer at a power of two. -/
def around (m : Nat) (q : Int) : Interval :=
  let gap := if m == Nat.pow 2 52 && q > -1074 then 1 else 2
  let (up, den) := Double.scaled 1 (q - 2)
  { low := (4 * m - gap) * up, value := 4 * m * up, high := (4 * m + 2) * up, den, closed := m % 2 == 0 }

/-- The interval with every number multiplied by `10^(-e)`. -/
def rescale (i : Interval) (e : Int) : Interval :=
  if e < 0 then
    let f := Nat.pow 10 e.natAbs
    { i with low := i.low * f, value := i.value * f, high := i.high * f }
  else { i with den := i.den * Nat.pow 10 e.natAbs }

/-- Whether the natural number `c` lies in the interval. -/
def holds (i : Interval) (c : Nat) : Bool :=
  let n := c * i.den
  if i.closed then i.low ≤ n && n ≤ i.high else i.low < n && n < i.high

/-- The natural number in the interval that is nearest to the value, among the
two next to it; a tie goes to the even one. -/
def nearest? (i : Interval) : Option Nat :=
  let c := i.value / i.den
  let below := i.value - c * i.den
  let above := (c + 1) * i.den - i.value
  match i.holds c, i.holds (c + 1) with
  | true, true =>
    some (if below < above then c else if above < below then c + 1
      else if c % 2 == 0 then c else c + 1)
  | true, false => some c
  | false, true => some (c + 1)
  | false, false => none

end Interval

/-- Trailing zeros moved into the power. -/
def Decimal.strip (fuel : Nat) (d : Decimal) : Decimal :=
  match fuel with
  | 0 => d
  | fuel + 1 =>
    if d.digits % 10 == 0 && d.digits != 0 then
      Decimal.strip fuel ⟨d.digits / 10, d.power + 1⟩
    else d

/-- The shortest decimal number that reads back as the positive `m · 2^q`. -/
def shortest (m : Nat) (q : Int) : Decimal :=
  let i := Interval.around m q
  let p := magnitude i.value i.den
  let grids := (List.range 17).map fun (n : Nat) => p - ((n : Int) + 1)
  match grids.findSome? fun e => ((i.rescale e).nearest?).map fun c => Decimal.mk c e with
  | some d => d.strip 20
  | none => ⟨i.value / i.den, 0⟩

end Glasshouse.Number
