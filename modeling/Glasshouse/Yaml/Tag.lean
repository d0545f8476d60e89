/-
Glasshouse.Yaml.Tag — the kinds of nodes. A plain scalar without a tag has the
kind that its text looks like: truth values, numbers in several bases, dates
and times, the merge sign, and otherwise text.
-/
import Glasshouse.Yaml.Cursor

namespace Glasshouse.Yaml

/-- The kind of a node. -/
inductive Tag where
  | null | bool | int | float | binary | timestamp | orderedMap | pairs | set | str | seq | map
  | merge | value | unknown
  deriving DecidableEq, Repr

namespace Tag

/-- The words under which kinds are known. -/
def names : List (String × Tag) := [
  ("null", null), ("bool", bool), ("int", int), ("float", float), ("binary", binary),
  ("timestamp", timestamp), ("omap", orderedMap), ("pairs", pairs), ("set", set), ("str", str),
  ("seq", seq), ("map", map), ("merge", merge), ("value", value)]

/-- What the address of a known kind begins with. -/
def space : String := "tag:yaml.org,2002:"

/-- The kind with an address. -/
def ofAddress (s : String) : Tag :=
  ((names.map fun p => (space ++ p.1, p.2)).lookup s).getD unknown

end Tag

namespace Plain

/-! ## What a plain scalar looks like -/

/-- A digit or an underscore. -/
def isDigitOr_ (c : Char) : Bool := c.isDigit || c == '_'

/-- The text after a sign. -/
def unsigned : List Char → List Char
  | '-' :: r | '+' :: r => r
  | cs => cs

/-- A digit from 1 to 9. -/
def isLeading (c : Char) : Bool := c.isDigit && c != '0'

/-- Whether parts after colons are numbers below 60 of one or two digits. -/
def isSixty : List Char → Bool
  | [a] => a.isDigit
  | [a, b] => '0' ≤ a && a ≤ '5' && b.isDigit
  | _ => false

/-- The parts of a text between colons. -/
def parts (cs : List Char) : List (List Char) :=
  (String.ofList cs).splitOn ":" |>.map String.toList

/-- Whether a text is a number with at least one part in base sixty after it. -/
def isSexagesimal (leading : Char → Bool) (cs : List Char) : Bool :=
  match parts cs with
  | (d :: ds) :: p :: ps => leading d && ds.all isDigitOr_ && (p :: ps).all isSixty
  | _ => false

/-- Whether a text looks like an integer. -/
def isInt (cs : List Char) : Bool :=
  let u := unsigned cs
  match u with
  | '0' :: 'b' :: c :: r => (c :: r).all fun x => x == '0' || x == '1' || x == '_'
  | '0' :: 'x' :: c :: r => (c :: r).all fun x =>
      isDigitOr_ x || ('a' ≤ x && x ≤ 'f') || ('A' ≤ x && x ≤ 'F')
  | '0' :: r => r.all fun x => x == '_' || ('0' ≤ x && x ≤ '7')
  | c :: r => isLeading c && (r.all isDigitOr_ || isSexagesimal isLeading u)
  | [] => false

/-- Whether a text is an exponent with a sign, or nothing. -/
def isExponent : List Char → Bool
  | [] => true
  | e :: s :: d :: r =>
    (e == 'e' || e == 'E') && (s == '+' || s == '-') && (d :: r).all Char.isDigit
  | _ => false

/-- Whether digits and an exponent follow a point. -/
def isFraction (cs : List Char) : Bool := isExponent (cs.dropWhile isDigitOr_)

/-- Whether a text looks like a double. -/
def isFloat (cs : List Char) : Bool :=
  let u := unsigned cs
  let whole := u.takeWhile (· != '.')
  let hasPoint := u.contains '.'
  let fraction := (u.dropWhile (· != '.')).drop 1
  let infinite := [".inf", ".Inf", ".INF"].contains (String.ofList u)
  let undefined := [".nan", ".NaN", ".NAN"].contains (String.ofList cs)
  let ordinary := hasPoint && (match whole with
    | d :: ds => d.isDigit && ds.all isDigitOr_ && isFraction fraction
    | [] => cs.head? == some '.' && fraction.head?.any Char.isDigit && isFraction fraction)
  let sixties := hasPoint && isSexagesimal Char.isDigit whole && fraction.all isDigitOr_
  infinite || undefined || ordinary || sixties

/-- The words for truth values. -/
def words : List (String × Bool) :=
  [("yes", true), ("true", true), ("on", true), ("no", false), ("false", false), ("off", false)]

/-- Whether a text is a word in small letters, in capitals, or with one capital. -/
def isWord (w : String) (s : String) : Bool :=
  s == w || s == w.toUpper || s == w.capitalize

/-- A date at the head of a text: year, month and day, which may have one digit
each where `short` allows it, and the rest. -/
def takeDate? (short : Bool) (cs : List Char) : Option (Nat × Nat × Nat × List Char) := do
  let number (ds : List Char) : Nat := ds.foldl (fun n d => n * 10 + (d.toNat - '0'.toNat)) 0
  let take (least : Nat) (most : Nat) (cs : List Char) : Option (Nat × List Char) :=
    let ds := (cs.take most).takeWhile Char.isDigit
    if least ≤ ds.length then some (number ds, cs.drop ds.length) else none
  let least := if short then 1 else 2
  let (y, r) ← take 4 4 cs
  let '-' :: r := r | none
  let (m, r) ← take least 2 r
  let '-' :: r := r | none
  let (d, r) ← take least 2 r
  some (y, m, d, r)

/-- A time as it is written. -/
structure Stamp where
  year : Nat
  month : Nat
  day : Nat
  /-- Hour, minute, second and the digits of a fraction. -/
  clock : Option (Nat × Nat × Nat × List Char) := none
  /-- Whether the offset is negative, its hours and its minutes. -/
  offset : Option (Bool × Nat × Nat) := none

/-- An offset: nothing, `Z`, or a sign with hours and perhaps minutes. -/
def readOffset? (cs : List Char) : Option (Option (Bool × Nat × Nat)) :=
  let value (ds : List Char) : Nat := ds.foldl (fun n d => n * 10 + (d.toNat - '0'.toNat)) 0
  match cs.dropWhile isBlank with
  | [] => if cs.isEmpty then some none else none
  | ['Z'] => some (some (false, 0, 0))
  | s :: r =>
    if s != '+' && s != '-' then none
    else
      let hours := (r.take 2).takeWhile Char.isDigit
      if hours.isEmpty then none
      else
        match r.drop hours.length with
        | [] => some (some (s == '-', value hours, 0))
        | [':', a, b] =>
          if a.isDigit && b.isDigit then some (some (s == '-', value hours, value [a, b])) else none
        | _ => none

/-- The time of day and the offset after a date. -/
def readClock? (cs : List Char) :
    Option ((Nat × Nat × Nat × List Char) × Option (Bool × Nat × Nat)) := do
  let value (ds : List Char) : Nat := ds.foldl (fun n d => n * 10 + (d.toNat - '0'.toNat)) 0
  let r ← match cs with
    | 'T' :: r | 't' :: r => some r
    | c :: _ => if isBlank c then some (cs.dropWhile isBlank) else none
    | [] => none
  let hours := (r.take 2).takeWhile Char.isDigit
  if hours.isEmpty then none
  else
    match r.drop hours.length with
    | ':' :: a :: b :: ':' :: c :: d :: r =>
      if !([a, b, c, d].all Char.isDigit) then none
      else
        let (digits, r) := match r with
          | '.' :: r => (r.takeWhile Char.isDigit, r.dropWhile Char.isDigit)
          | r => ([], r)
        let offset ← readOffset? r
        some ((value hours, value [a, b], value [c, d], digits), offset)
    | _ => none

/-- The time that a text writes. -/
def stamp? (cs : List Char) : Option Stamp :=
  match takeDate? false cs with
  | some (y, m, d, []) => some { year := y, month := m, day := d }
  | _ => do
    let (y, m, d, r) ← takeDate? true cs
    let (clock, offset) ← readClock? r
    some ⟨y, m, d, some clock, offset⟩

/-- The kind that a plain scalar looks like. -/
def tag (s : String) : Tag :=
  let cs := s.toList
  if words.any fun w => isWord w.1 s then .bool
  else if isFloat cs then .float
  else if isInt cs then .int
  else if s == "<<" then .merge
  else if s == "" || s == "~" || isWord "null" s then .null
  else if (stamp? cs).isSome then .timestamp
  else if s == "=" then .value
  else .str

end Plain

end Glasshouse.Yaml
