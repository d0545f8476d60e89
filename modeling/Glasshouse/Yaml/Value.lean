/-
Glasshouse.Yaml.Value — what a node stands for as a document. Of equal keys the
last counts; a merge key puts the entries of other tables under those that are
written out, and of several merged tables the first counts. A table that is
merged into itself gains nothing by it.
-/
import Glasshouse.Doc
import Glasshouse.Number.Reading
import Glasshouse.Text.Base64
import Glasshouse.Text.Case
import Glasshouse.Yaml.Node

namespace Glasshouse.Yaml

open Calendar

namespace Plain

/-- The value of digits in a base. -/
def baseValue? (base : Nat) (cs : List Char) : Option Nat :=
  if cs.isEmpty then none
  else cs.foldl (fun n c => do
    let d ← hexDigit? c
    if d < base then some ((← n) * base + d) else none) (some 0)

/-- A value with a sign. -/
def signed (negative : Bool) (n : Nat) : Int := if negative then -n else n

/-- The integer that a text writes. -/
def int (s : String) : Except Problem Int := do
  let cs := s.toList.filter (· != '_')
  let negative := cs.head? == some '-'
  let known (n : Option Nat) : Except Problem Int :=
    match n with
    | some n => .ok (signed negative n)
    | none => .error .valueOutOfRange
  match unsigned cs with
  | [] => .error .numberEmpty
  | '0' :: 'b' :: r => known (baseValue? 2 r)
  | '0' :: 'x' :: r => known (baseValue? 16 r)
  | '0' :: r => known (baseValue? 8 ('0' :: r))
  | u =>
    known ((parts u).foldl (fun n p => do some ((← n) * 60 + (← baseValue? 10 p))) (some 0))

/-- A double in base sixty: the parts from the last, each sixty times the one after it. -/
def sixties? (ps : List (List Char)) : Option Float :=
  (ps.reverse.foldl (fun acc p => do
    let (sum, weight) ← acc
    let x ← Number.readFloat? (String.ofList p)
    some (sum + x * Float.ofNat weight, weight * 60)) (some (0.0, 1))).map (·.1)

/-- The double that a text writes. -/
def float (s : String) : Except Problem Float :=
  let cs := (s.toList.filter (· != '_')).map Char.toLower
  let negative := cs.head? == some '-'
  let known (x : Option Float) : Except Problem Float :=
    match x with
    | some x => .ok (if negative then -1.0 * x else x)
    | none => .error .valueOutOfRange
  let u := unsigned cs
  if u.isEmpty then .error .numberEmpty
  else if u == ".inf".toList then known (some (1.0 / 0.0))
  else if u == ".nan".toList then known (some (0.0 / 0.0))
  else if u.contains ':' then known (sixties? (parts u))
  else known (Number.readFloat? (String.ofList u))

/-- The day or the time that a text writes. -/
def time (s : String) : Except Problem Atom := do
  let some t := stamp? s.toList | .error .timeUnreadable
  let date : Date := ⟨t.year, t.month, t.day⟩
  if !date.isValid then .error .valueOutOfRange
  else
    match t.clock with
    | none => .ok (.day date)
    | some (h, m, s, digits) =>
      let six := digits.take 6
      let micros := Number.digitsValue six * Nat.pow 10 (6 - six.length)
      let offset := t.offset.map fun (negative, hours, minutes) =>
        signed negative (hours * 60 + minutes) * minute
      if 24 ≤ h || 60 ≤ m || 60 ≤ s || offset.any fun o => dayLength ≤ o.natAbs then
        .error .valueOutOfRange
      else
        .ok (.moment ⟨date.toDays * dayLength + (((h * 60 + m) * 60 + s) * 1000000 + micros : Nat),
          offset⟩)

end Plain

namespace Node

/-- What a scalar stands for. -/
def scalarValue (tag : Tag) (text : String) : Except Problem Atom :=
  match tag with
  | .null => .ok .null
  | .bool =>
    match Plain.words.lookup (Text.lower text) with
    | some b => .ok (.bool b)
    | none => .error .wordUnknown
  | .int => (Plain.int text).map .int
  | .float => (Plain.float text).map .num
  | .binary => match Text.Base64.decode? text with
    | some b => .ok (.bytes b)
    | none => .error .malformed
  | .timestamp => Plain.time text
  | .str => .ok (.str text)
  | _ => .error .malformed

/-- The sign that merges tables, as a key. -/
def isMerge : Node → Bool
  | .scalar .merge _ => true
  | _ => false

/-- A document as a key. -/
def asKey : Doc → Except Problem Atom
  | .atom .endless => .error .malformed
  | .atom a => .ok a
  | _ => .error .malformed

/-- Pairs as a list of lists of two. -/
def pairList (ps : List (Atom × Doc)) : Doc :=
  .list (ps.map fun p => .list [.atom p.1, p.2])

mutual

/-- What a node stands for. -/
def value : Node → Except Problem Doc
  | .scalar tag text => (scalarValue tag text).map .atom
  | .list .seq items => (values items).map .list
  | .list .orderedMap items => (singles items).map pairList
  | .list .pairs items => (singles items).map pairList
  | .list _ _ => .error .malformed
  | .table .map entries => (pairs entries).map fun (merged, own) => .obj (Fields.ofPairs (merged ++ own))
  | .table .set entries => (pairs entries).map fun (merged, own) =>
      .set ((Fields.ofPairs (merged ++ own)).map (·.1))
  | .table _ _ => .error .malformed
  | .again _ => .ok (.atom .endless)

/-- What nodes stand for. -/
def values : List Node → Except Problem (List Doc)
  | [] => .ok []
  | n :: r => do .ok ((← value n) :: (← values r))

/-- The entries of a table: those that are merged in, and its own. -/
def pairs : List (Node × Node) → Except Problem (List (Atom × Doc) × List (Atom × Doc))
  | [] => .ok ([], [])
  | (k, v) :: r =>
    if isMerge k then do
      let ps ← merged v
      let (m, own) ← pairs r
      .ok (ps ++ m, own)
    else do
      let key ← match k with
        | .scalar .value text => .ok (.str text)
        | k => (value k).bind asKey
      let d ← value v
      let (m, own) ← pairs r
      .ok (m, (key, d) :: own)

/-- The entries that a node gives where it is merged in. -/
def merged : Node → Except Problem (List (Atom × Doc))
  | .table _ entries => (pairs entries).map fun (m, own) => m ++ own
  | .list _ items => mergedAll items
  | .scalar _ _ => .error .malformed
  | .again _ => .ok []

/-- The entries of tables that are merged in; the first table counts. -/
def mergedAll : List Node → Except Problem (List (Atom × Doc))
  | [] => .ok []
  | .table _ entries :: r => do
    let (m, own) ← pairs entries
    .ok ((← mergedAll r) ++ (m ++ own))
  | .again _ :: r => mergedAll r
  | _ :: _ => .error .malformed

/-- The entries of tables with one entry each. -/
def singles : List Node → Except Problem (List (Atom × Doc))
  | [] => .ok []
  | .table _ [(k, v)] :: r => do
    let key ← asKey (← value k)
    .ok ((key, ← value v) :: (← singles r))
  | _ :: _ => .error .malformed

end

end Node

end Glasshouse.Yaml
