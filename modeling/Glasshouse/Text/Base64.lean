/-
Glasshouse.Text.Base64 — bytes written with 64 characters, three bytes in four
of them. Main statement: `bytesOf_valuesOf`, what is written reads back.
-/

namespace Glasshouse.Text.Base64

/-! ## Characters -/

/-- The value of a character. -/
def sixBits? (c : Char) : Option Nat :=
  if 'A' ≤ c && c ≤ 'Z' then some (c.toNat - 'A'.toNat)
  else if 'a' ≤ c && c ≤ 'z' then some (c.toNat - 'a'.toNat + 26)
  else if c.isDigit then some (c.toNat - '0'.toNat + 52)
  else if c == '+' then some 62
  else if c == '/' then some 63
  else none

/-- The character of a value below 64. -/
def character (n : Nat) : Char :=
  if n < 26 then Char.ofNat (n + 'A'.toNat)
  else if n < 52 then Char.ofNat (n - 26 + 'a'.toNat)
  else if n < 62 then Char.ofNat (n - 52 + '0'.toNat)
  else if n == 62 then '+'
  else '/'

/-! ## Groups -/

/-- The bytes that groups of four values write. -/
def bytesOf : List Nat → List UInt8
  | a :: b :: c :: d :: r =>
    let n := ((a * 64 + b) * 64 + c) * 64 + d
    (n / 65536).toUInt8 :: (n / 256 % 256).toUInt8 :: (n % 256).toUInt8 :: bytesOf r
  | [a, b, c] =>
    let n := (a * 64 + b) * 64 + c
    [(n / 1024).toUInt8, (n / 4 % 256).toUInt8]
  | [a, b] => [((a * 64 + b) / 16).toUInt8]
  | _ => []

/-- The values that write bytes. -/
def valuesOf : List UInt8 → List Nat
  | x :: y :: z :: r =>
    let n := (x.toNat * 256 + y.toNat) * 256 + z.toNat
    n / 262144 :: n / 4096 % 64 :: n / 64 % 64 :: n % 64 :: valuesOf r
  | [x, y] =>
    let n := (x.toNat * 256 + y.toNat) * 4
    [n / 4096, n / 64 % 64, n % 64]
  | [x] => [x.toNat * 16 / 64, x.toNat * 16 % 64]
  | [] => []

theorem toUInt8_toNat (x : UInt8) {n : Nat} (h : n = x.toNat) : n.toUInt8 = x := by
  subst h
  simp

/-- What is written reads back. -/
theorem bytesOf_valuesOf (bs : List UInt8) : bytesOf (valuesOf bs) = bs := by
  fun_induction valuesOf bs with
  | case1 x y z r n ih =>
    have hx := x.toNat_lt
    have hy := y.toNat_lt
    have hz := z.toNat_lt
    simp only [bytesOf, ih]
    congr 1
    · exact toUInt8_toNat x (by omega)
    · congr 1
      · exact toUInt8_toNat y (by omega)
      · congr 1
        exact toUInt8_toNat z (by omega)
  | case2 x y n =>
    have hx := x.toNat_lt
    have hy := y.toNat_lt
    simp only [bytesOf]
    congr 1
    · exact toUInt8_toNat x (by omega)
    · congr 1
      exact toUInt8_toNat y (by omega)
  | case3 x =>
    have hx := x.toNat_lt
    simp only [bytesOf]
    congr 1
    exact toUInt8_toNat x (by omega)
  | case4 => rfl

/-! ## Texts -/

/-- Bytes as a text, filled up to groups of four. -/
def encode (bs : List UInt8) : String :=
  let cs := (valuesOf bs).map character
  String.ofList (cs ++ List.replicate ((4 - cs.length % 4) % 4) '=')

/-- The bytes that a text writes, if it is filled up to groups of four; characters
that write nothing are skipped. -/
def decode? (s : String) : Option (List UInt8) :=
  let body := s.toList.takeWhile (· != '=')
  let pads := ((s.toList.dropWhile (· != '=')).filter (· == '=')).length
  let values := body.filterMap sixBits?
  let short := (4 - values.length % 4) % 4
  if s.toList.any (128 ≤ ·.toNat) || short == 3 || pads < short then none
  else some (bytesOf values)

end Glasshouse.Text.Base64
