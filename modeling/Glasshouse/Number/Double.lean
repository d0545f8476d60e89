/-
Glasshouse.Number.Double — what a double stands for: not a number, an
infinity, or exactly ± mantissa · 2^exponent. Everything that needs the exact
value of a double (its text, its rounding to decimal places, its conversion
to an integer) starts here.
-/

namespace Glasshouse.Number

/-- The value of a double, exactly. -/
inductive Double where
  | nan
  | infinite (negative : Bool)
  | finite (negative : Bool) (mantissa : Nat) (exponent : Int)
  deriving DecidableEq, Repr

namespace Double

/-- Reads sign, exponent and mantissa out of the 64 bits of a double. -/
def ofFloat (x : Float) : Double :=
  let bits := x.toBits.toNat
  let negative := bits / Nat.pow 2 63 == 1
  let power : Nat := bits / Nat.pow 2 52 % 2048
  let fraction := bits % Nat.pow 2 52
  if power == 2047 then
    if fraction == 0 then .infinite negative else .nan
  else if power == 0 then .finite negative fraction (-1074)
  else .finite negative (fraction + Nat.pow 2 52) ((power : Int) - 1075)

/-- `n · 2^k` as a fraction of natural numbers. -/
def scaled (n : Nat) (k : Int) : Nat × Nat :=
  if k < 0 then (n, Nat.pow 2 k.natAbs) else (n * Nat.pow 2 k.natAbs, 1)

end Double

/-- Two doubles with the same 64 bits. -/
def sameBits (x y : Float) : Bool :=
  x.toBits == y.toBits

/-- The integer a double stands for, if it has no fraction. -/
def wholeOf (x : Float) : Option Int :=
  match Double.ofFloat x with
  | .finite negative m q =>
    let (num, den) := Double.scaled m q
    if num % den == 0 then
      some (if negative then -((num / den : Nat) : Int) else (num / den : Nat))
    else none
  | _ => none

/-- The double nearest to an integer, unless the integer is too large for one. -/
def floatOfInt? (n : Int) : Option Float :=
  let x := Float.ofInt n
  if x.isFinite then some x else none

end Glasshouse.Number
