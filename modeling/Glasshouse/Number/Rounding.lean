/-
Glasshouse.Number.Rounding — a quotient rounded to the nearest integer with
ties to the even neighbour, and on top of it doubles rounded to decimal
places: `roundTo` gives a double again, `fixedText` a text.
-/
import Glasshouse.Number.Double

namespace Glasshouse.Number

/-- `num / den` rounded to the nearest natural number, a tie to the even one. -/
def roundDiv (num den : Nat) : Nat :=
  let q := num / den
  let r := num % den
  if 2 * r < den then q
  else if den < 2 * r then q + 1
  else if q % 2 == 0 then q else q + 1

/-- The double nearest to `± n / 10^k`. -/
def decimalFloat (negative : Bool) (n k : Nat) : Float :=
  let x := Float.ofScientific n true k
  if negative then -x else x

/-- A double rounded to `k` decimal places by its exact value, a tie going to
the even digit; the sign of zero is kept. -/
def roundTo (k : Nat) (x : Float) : Float :=
  match Double.ofFloat x with
  | .finite negative m q =>
    let (num, den) := Double.scaled m q
    decimalFloat negative (roundDiv (num * Nat.pow 10 k) den) k
  | _ => x

/-- `n / 10^k` with exactly `k` places. -/
def placesText (k n : Nat) : String :=
  let whole := toString (n / Nat.pow 10 k)
  if k == 0 then whole
  else
    let part := toString (n % Nat.pow 10 k)
    whole ++ "." ++ String.ofList (List.replicate (k - part.length) '0') ++ part

/-- A double with exactly `k` decimal places. -/
def fixedText (k : Nat) (x : Float) : String :=
  match Double.ofFloat x with
  | .nan => "nan"
  | .infinite negative => if negative then "-inf" else "inf"
  | .finite negative m q =>
    let (num, den) := Double.scaled m q
    (if negative then "-" else "") ++ placesText k (roundDiv (num * Nat.pow 10 k) den)

/-- A double rounded to the nearest integer, a tie to the even one; nothing
for the values that have no integer near them. -/
def roundInt? (x : Float) : Option Int :=
  match Double.ofFloat x with
  | .finite negative m q =>
    let (num, den) := Double.scaled m q
    let n : Nat := roundDiv num den
    some (if negative then -(n : Int) else n)
  | _ => none

end Glasshouse.Number
