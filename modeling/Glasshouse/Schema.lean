/-
Glasshouse.Schema — readings of single values and of tables with known keys.
Values are read generously: an integer may come as a whole double, a truth
value or a text, a double as any of these. Each field of a table has a plain
name and one in camel case; the latter is looked up first, and a key that no
field used is an issue of its own.
-/
import Glasshouse.Checked
import Glasshouse.Number.Reading
import Glasshouse.Text.Case
import Glasshouse.Text.Digit

namespace Glasshouse.Schema

/-! ## Single values -/

/-- A text. -/
def text : Doc → Checked String
  | .str s => .ok s
  | .atom (.bytes b) => .ofOption .textUndecodable (String.fromUTF8? ⟨b.toArray⟩)
  | _ => .flaw .notText

/-- A text of at least one character. -/
def filledText (d : Doc) : Checked String :=
  (text d).andThen fun s => if s.isEmpty then .flaw .textTooShort else .ok s

/-- A text of at least one and at most `limit` characters. -/
def boundedText (limit : Nat) (d : Doc) : Checked String :=
  (text d).andThen fun s =>
    if s.isEmpty then .flaw .textTooShort
    else if limit < s.length then .flaw (.textTooLong limit)
    else .ok s

/-- An integer. -/
def integer : Doc → Checked Int
  | .int n => .ok n
  | .bool b => .ok (if b then 1 else 0)
  | .num x =>
    if !x.isFinite then .flaw .notFinite
    else
      match Number.wholeOf x with
      | none => .flaw .integerFractional
      | some n => if -0x8000000000000000 ≤ n && n < 0x8000000000000000 then .ok n else .flaw .integerOversized
  | .str s => .ofOption .integerUnreadable (Number.readInt? s)
  | _ => .flaw .notInteger

/-- An integer that is not negative. -/
def natural (d : Doc) : Checked Nat :=
  (integer d).andThen fun n => if n < 0 then .flaw (.below 0) else .ok n.toNat

/-- An integer above zero. -/
def positive (d : Doc) : Checked Nat :=
  (integer d).andThen fun n => if n ≤ 0 then .flaw (.notAbove 0) else .ok n.toNat

/-- A double. -/
def double : Doc → Checked Float
  | .num x => .ok x
  | .int n => .ofOption .notNumber (Number.floatOfInt? n)
  | .bool b => .ok (if b then 1.0 else 0.0)
  | .str s => .ofOption .numberUnreadable (Number.readFloat? s)
  | _ => .flaw .notNumber

/-- A double that is zero or more. -/
def nonNegative (d : Doc) : Checked Float :=
  (double d).andThen fun x => if x ≥ 0.0 then .ok x else .flaw (.below 0)

/-- The texts that mean true. -/
def yesTexts : List String := ["1", "t", "true", "y", "yes", "on"]

/-- The texts that mean false. -/
def noTexts : List String := ["0", "f", "false", "n", "no", "off"]

/-- A truth value. -/
def truth : Doc → Checked Bool
  | .bool b => .ok b
  | .int n => if n == 0 then .ok false else if n == 1 then .ok true else .flaw .truthUnreadable
  | .num x => if x == 0.0 then .ok false else if x == 1.0 then .ok true else .flaw .notTruth
  | .str s =>
    let t := String.ofList (s.toList.map Char.toLower)
    if yesTexts.contains t then .ok true
    else if noTexts.contains t then .ok false
    else .flaw .truthUnreadable
  | _ => .flaw .notTruth

/-- A value or `null`. -/
def nullable {α : Type} (f : Doc → Checked α) : Doc → Checked (Option α)
  | .null => .ok none
  | d => (f d).map some

/-- A list whose elements are read one by one. -/
def list {α : Type} (f : Doc → Checked α) : Doc → Checked (List α)
  | .list xs => Checked.each f 0 xs
  | .set xs => Checked.each f 0 (xs.map .atom)
  | _ => .flaw .notList

/-- The key of a table whose keys are texts. -/
def textKey (k : Atom) : Checked String :=
  ((text (.atom k)).under (.key "[key]")).under (.ofAtom k)

/-- A table with text keys whose values are read one by one. -/
def entries {α : Type} (f : Doc → Checked α) : Fields → Checked (List (String × α))
  | [] => .ok []
  | (k, v) :: r =>
    List.cons <$> (Prod.mk <$> textKey k <*> (f v).under (.ofAtom k)) <*> entries f r

/-- A table with text keys and arbitrary values. -/
def table : Doc → Checked Fields
  | .obj o => (entries .ok o).map fun es => Fields.ofPairs (es.map fun e => (.str e.1, e.2))
  | _ => .flaw .notTable

/-- A table with text keys and text values. -/
def textTable : Doc → Checked (List (String × String))
  | .obj o => entries text o
  | _ => .flaw .notTable

/-- One of a list of named values; `cause` gets all the names. -/
def oneOf {α : Type} (cause : List String → Cause) (names : List (String × α)) : Doc → Checked α
  | .str s => .ofOption (cause (names.map (·.1))) (names.lookup s)
  | _ => .flaw (cause (names.map (·.1)))

/-- A document with a function applied to it where it is a text. -/
def onText (f : String → String) : Doc → Doc
  | .str s => .str (f s)
  | d => d

/-! ## Tables with known keys -/

/-- The two names of a field. -/
structure FieldName where
  plain : String
  camel : String
  deriving DecidableEq, Repr

/-- A field whose two names agree. -/
def FieldName.same (s : String) : FieldName := ⟨s, s⟩

namespace FieldName

/-- The key under which a field stands in a table, and its value. -/
def find? (f : FieldName) (o : Fields) : Option (String × Doc) :=
  match Fields.get? f.camel o with
  | some v => some (f.camel, v)
  | none => (Fields.get? f.plain o).map fun v => (f.plain, v)

end FieldName

/-- A field that has to be present. -/
def required {α : Type} (o : Fields) (f : FieldName) (read : Doc → Checked α) : Checked α :=
  match f.find? o with
  | some (k, v) => (read v).under (.key k)
  | none => .flawed [⟨[.key f.camel], .missing⟩]

/-- A field with a value for its absence. -/
def optional {α : Type} (o : Fields) (f : FieldName) (absent : α) (read : Doc → Checked α) :
    Checked α :=
  match f.find? o with
  | some (k, v) => (read v).under (.key k)
  | none => .ok absent

/-- The issue of a key that no field used, if it is none of `used`. -/
def strayKey? (used : List String) (k : Atom) : Option Issue :=
  match k with
  | .str s => if used.contains s then none else some ⟨[.key s], .unknownKey⟩
  | k => some ⟨[.ofAtom k], .keyNotText⟩

/-- No key besides those of the fields. -/
def noOthers (o : Fields) (fields : List FieldName) : Checked Unit :=
  let used := fields.filterMap fun f => (f.find? o).map (·.1)
  match o.filterMap fun p => strayKey? used p.1 with
  | [] => .ok ()
  | is => .flawed is

end Glasshouse.Schema
