/-
Glasshouse.Calendar.Reading — moments read from their texts: a date with or
without hyphens, any one character, a time down to fractions of a second with
or without colons, and an offset. `Moment.parse?` accepts every text that
`Moment.text` writes.
-/
import Glasshouse.Calendar.Moment
import Glasshouse.Number.Reading

namespace Glasshouse.Calendar

/-- The number that the first `n` characters write, all of them digits. -/
def takeNumber? (n : Nat) (cs : List Char) : Option (Nat × List Char) :=
  let ds := cs.take n
  if ds.length == n && ds.all Char.isDigit then some (Number.digitsValue ds, cs.drop n) else none

/-- A date at the head of a text. -/
def takeDate? (cs : List Char) : Option (Date × List Char) := do
  let (y, r) ← takeNumber? 4 cs
  match r with
  | '-' :: r =>
    let (m, r) ← takeNumber? 2 r
    match r with
    | '-' :: r =>
      let (d, r) ← takeNumber? 2 r
      some (⟨y, m, d⟩, r)
    | _ => none
  | _ =>
    let (m, r) ← takeNumber? 2 r
    let (d, r) ← takeNumber? 2 r
    some (⟨y, m, d⟩, r)

/-- A fraction of a second in microseconds; digits past the sixth are dropped. -/
def readFraction? (cs : List Char) : Option Nat :=
  match cs with
  | [] => some 0
  | c :: ds =>
    if (c == '.' || c == ',') && !ds.isEmpty && ds.all Char.isDigit then
      let six := ds.take 6
      some (Number.digitsValue six * Nat.pow 10 (6 - six.length))
    else none

/-- Minutes and seconds after the hour, with colons or without. -/
def readMinutes? (colons : Bool) (cs : List Char) : Option (Nat × Nat × Nat) := do
  let skip (r : List Char) : Option (List Char) :=
    if colons then (match r with | ':' :: r => some r | _ => none) else some r
  if cs.isEmpty then some (0, 0, 0)
  else
    let r ← skip cs
    let (m, r) ← takeNumber? 2 r
    if r.isEmpty then some (m, 0, 0)
    else
      let r ← skip r
      let (s, r) ← takeNumber? 2 r
      let f ← readFraction? r
      some (m, s, f)

/-- A time of day in microseconds, or an offset without its sign. -/
def readTime? (cs : List Char) : Option Nat := do
  let (h, r) ← takeNumber? 2 cs
  let (m, s, f) ← readMinutes? (r.head? == some ':') r
  if h < 24 && m < 60 && s < 60 then
    some (((h * 60 + m) * 60 + s) * 1000000 + f)
  else none

/-- An offset: `Z`, or a sign and a time. -/
def readOffset? (cs : List Char) : Option (Option Int) :=
  match cs with
  | [] => some none
  | ['Z'] => some (some 0)
  | '+' :: r => (readTime? r).map fun t => some (t : Int)
  | '-' :: r => (readTime? r).map fun t => some (-(t : Int))
  | _ => none

/-- The time and the offset after the separator. -/
def readClock? (cs : List Char) : Option (Nat × Option Int) := do
  let isOffset (c : Char) := c == '+' || c == '-' || c == 'Z'
  let time := cs.takeWhile fun c => !isOffset c
  let zone := cs.dropWhile fun c => !isOffset c
  let t ← readTime? time
  let o ← readOffset? zone
  some (t, o)

/-- The moment that a text stands for. -/
def Moment.parse? (s : String) : Option Moment := do
  let (d, r) ← takeDate? s.toList
  if !d.isValid then none
  else
    let midnight : Int := d.toDays * dayLength
    match r with
    | [] => some ⟨midnight, none⟩
    | _ :: r =>
      let (t, o) ← readClock? r
      some ⟨midnight + t, o⟩

end Glasshouse.Calendar
