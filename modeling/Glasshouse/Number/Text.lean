/-
Glasshouse.Number.Text — how a double is written: the shortest digits that
read back, positional while the decimal exponent lies between -4 and 15 and
with an exponent of at least two digits otherwise; a whole number keeps `.0`.
-/
import Glasshouse.Number.Shortest

namespace Glasshouse.Number

/-- The choices of a way to write doubles. -/
structure FloatStyle where
  /-- Smallest exponent of the first digit that is written positionally. -/
  least : Int
  /-- First exponent of the first digit that is no longer written positionally. -/
  limit : Int
  /-- Least number of digits of a written exponent. -/
  exponentDigits : Nat

/-- Doubles in messages and documents. -/
def plainStyle : FloatStyle := ⟨-4, 16, 2⟩

/-- The digits of a decimal number laid out in a style. -/
def FloatStyle.layout (style : FloatStyle) (d : Decimal) : String :=
  let ds := Nat.toDigits 10 d.digits
  let count : Int := ds.length
  let first := count + d.power - 1
  if style.least ≤ first && first < style.limit then
    if 0 ≤ d.power then
      String.ofList (ds ++ List.replicate d.power.natAbs '0') ++ ".0"
    else if 0 ≤ first then
      let k := (first + 1).natAbs
      String.ofList (ds.take k) ++ "." ++ String.ofList (ds.drop k)
    else
      "0." ++ String.ofList (List.replicate (first + 1).natAbs '0' ++ ds)
  else
    let e := toString first.natAbs
    let mantissa := match ds with
      | [] => ""
      | [c] => String.ofList [c]
      | c :: r => String.ofList (c :: '.' :: r)
    mantissa ++ "e" ++ (if first < 0 then "-" else "+")
      ++ String.ofList (List.replicate (style.exponentDigits - e.length) '0') ++ e

/-- The text of a double. -/
def floatText (x : Float) : String :=
  match Double.ofFloat x with
  | .nan => "nan"
  | .infinite negative => if negative then "-inf" else "inf"
  | .finite negative m q =>
    (if negative then "-" else "") ++
      if m == 0 then "0.0" else plainStyle.layout (shortest m q)

end Glasshouse.Number
