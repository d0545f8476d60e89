/-
Glasshouse.Url.Punycode — labels of domain names beyond ASCII written with
letters, digits and hyphens: the basic characters first, then for each other
character, from small to large, how far it lies ahead.
-/

namespace Glasshouse.Url.Punycode

/-- The next bias after a delta over so many characters. -/
def adapt (delta count : Nat) (first : Bool) : Nat :=
  let d := if first then delta / 700 else delta / 2
  let d := d + d / count
  shrink 0 d 40
where
  /-- Divides until the delta is small, counting in steps of 36. -/
  shrink (k d : Nat) : Nat → Nat
    | 0 => k
    | fuel + 1 => if 455 < d then shrink (k + 36) (d / 35) fuel else k + 36 * d / (d + 38)

/-- The digit of a value below 36. -/
def digit (n : Nat) : Char :=
  if n < 26 then Char.ofNat (97 + n) else Char.ofNat (22 + n)

/-- The value of a digit. -/
def digitValue? (c : Char) : Option Nat :=
  if 'a' ≤ c && c ≤ 'z' then some (c.toNat - 97)
  else if 'A' ≤ c && c ≤ 'Z' then some (c.toNat - 65)
  else if c.isDigit then some (c.toNat - 22)
  else none

/-- The threshold of a position under a bias. -/
def threshold (k bias : Nat) : Nat :=
  if k ≤ bias then 1 else if bias + 26 ≤ k then 26 else k - bias

theorem threshold_pos (k bias : Nat) : 1 ≤ threshold k bias := by
  unfold threshold
  split
  · omega
  · split <;> omega

theorem threshold_le (k bias : Nat) : threshold k bias ≤ 26 := by
  unfold threshold
  split
  · omega
  · split <;> omega

/-- A delta as digits of varying weight. -/
def encodeDelta (q k bias : Nat) : List Char :=
  let t := threshold k bias
  if q < t then [digit q]
  else digit (t + (q - t) % (36 - t)) :: encodeDelta ((q - t) / (36 - t)) (k + 36) bias
  termination_by q
  decreasing_by
    have hpos := threshold_pos k bias
    have hdiv := Nat.div_le_self (q - threshold k bias) (36 - threshold k bias)
    omega

/-- What a pass over the characters carries along. -/
structure State where
  n : Nat := 128
  delta : Nat := 0
  bias : Nat := 72
  handled : Nat
  out : List Char

/-- One pass: every occurrence of the code point `m` is written. -/
def pass (cs : List Char) (basic m : Nat) (s : State) : State :=
  let s := { s with delta := s.delta + (m - s.n) * (s.handled + 1), n := m }
  let s := cs.foldl (fun (s : State) c =>
    if c.toNat < m then { s with delta := s.delta + 1 }
    else if c.toNat == m then
      { s with
        out := s.out ++ encodeDelta s.delta 36 s.bias,
        bias := adapt s.delta (s.handled + 1) (s.handled == basic),
        delta := 0,
        handled := s.handled + 1 }
    else s) s
  { s with delta := s.delta + 1, n := m + 1 }

/-- A label without its mark. -/
def encode (cs : List Char) : List Char :=
  let basic := cs.filter fun c => c.toNat < 128
  let points := ((cs.map Char.toNat).filter (128 ≤ ·)).mergeSort (· ≤ ·) |>.eraseDups
  let start : State :=
    { handled := basic.length, out := if basic.isEmpty then [] else basic ++ ['-'] }
  (points.foldl (fun s m => pass cs basic.length m s) start).out

/-- A delta read from its digits, with what follows. -/
def decodeDelta (i w k bias : Nat) : List Char → Option (Nat × List Char)
  | [] => none
  | c :: r => do
    let d ← digitValue? c
    let t := threshold k bias
    let i := i + d * w
    if d < t then some (i, r) else decodeDelta i (w * (36 - t)) (k + 36) bias r

/-- The characters written after the basic ones, put into their places. -/
def insertAll (out : List Char) (n i bias : Nat) (fuel : Nat) (cs : List Char) :
    Option (List Char) :=
  match fuel, cs with
  | _, [] => some out
  | 0, _ => none
  | fuel + 1, cs => do
    let (j, r) ← decodeDelta i 1 36 bias cs
    let count := out.length + 1
    let n := n + j / count
    if 0x10FFFF < n || (0xD800 ≤ n && n < 0xE000) then none
    else
      let place := j % count
      let out := out.take place ++ Char.ofNat n :: out.drop place
      insertAll out n (place + 1) (adapt (j - i) count (i == 0)) fuel r

/-- The label that characters after the mark stand for. -/
def decode? (cs : List Char) : Option (List Char) :=
  let tail := (cs.reverse.takeWhile (· != '-')).reverse
  let basic := (cs.take (cs.length - tail.length)).dropLast
  insertAll basic 128 0 72 (tail.length + 1) tail

end Glasshouse.Url.Punycode
