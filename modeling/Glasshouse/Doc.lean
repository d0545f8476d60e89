/-
Glasshouse.Doc — documents: what a rule file or a request holds before it is
read as anything else. A document is a scalar, a list, a table of fields or a
set. Fields keep the order in which their keys first appeared; `Fields.put`
gives an existing key a new value in its old place.

A rule file may hold a list or a table that contains itself. Documents are
trees, so it is unfolded, deeper than anything but a recursion without end
looks into it, and `Atom.endless` stands where the unfolding was cut off.

Limits. Texts are sequences of characters: half of a surrogate pair, which an
escape can write, is none and is read as the replacement character.
`Json.writesCharacters` and `Yaml.writesCharacters` tell texts in which that does
not occur; what depends on it is stated for these only. Nesting that comes to an
end is taken in however deep it is.
-/
import Glasshouse.Calendar.Moment

namespace Glasshouse

/-- A scalar. JSON has the first five kinds; rule files also have the others. -/
inductive Atom where
  | null
  | bool (b : Bool)
  | int (n : Int)
  | num (x : Float)
  | str (s : String)
  | day (d : Calendar.Date)
  | moment (m : Calendar.Moment)
  | bytes (b : List UInt8)
  /-- Where the unfolding of a document that contains itself was cut off. -/
  | endless

/-- A document. -/
inductive Doc where
  | atom (a : Atom)
  | list (items : List Doc)
  | obj (fields : List (Atom × Doc))
  | set (items : List Atom)

/-- The fields of a table, in order. -/
abbrev Fields := List (Atom × Doc)

namespace Atom

/-- The number a scalar stands for as a key: booleans count as 0 and 1. -/
def keyNumber? : Atom → Option (Int ⊕ Float)
  | bool b => some (.inl (if b then 1 else 0))
  | int n => some (.inl n)
  | num x =>
    match Number.wholeOf x with
    | some n => some (.inl n)
    | none => some (.inr x)
  | _ => none

/-- Whether two scalars are the same key. -/
def sameKey (a b : Atom) : Bool :=
  match a, b with
  | null, null => true
  | str s, str t => s == t
  | day d, day e => d == e
  | bytes x, bytes y => x == y
  | moment m, moment n =>
    match m.offset, n.offset with
    | some x, some y => m.wall - x == n.wall - y
    | none, none => m.wall == n.wall
    | _, _ => false
  | _, _ =>
    match a.keyNumber?, b.keyNumber? with
    | some (.inl m), some (.inl n) => m == n
    | some (.inr x), some (.inr y) => x == y
    | _, _ => false

/-- Whether a scalar is the text `k`. -/
def isText (k : String) : Atom → Bool
  | str s => s == k
  | _ => false

end Atom

namespace Fields

/-- The value of a text key. -/
def get? (k : String) : Fields → Option Doc
  | [] => none
  | (a, v) :: r => if a.isText k then some v else get? k r

/-- Whether a text key is present. -/
def has (k : String) (o : Fields) : Bool :=
  (get? k o).isSome

/-- A key set to a value, in its old place if it has one and at the end otherwise. -/
def put (k : Atom) (v : Doc) : Fields → Fields
  | [] => [(k, v)]
  | (a, w) :: r => if a.sameKey k then (a, v) :: r else (a, w) :: put k v r

/-- The fields without a text key. -/
def erase (k : String) (o : Fields) : Fields :=
  o.filter fun f => !f.1.isText k

/-- A text key set to a value. -/
def set (k : String) (v : Doc) (o : Fields) : Fields :=
  put (.str k) v o

/-- Fields from pairs; a later pair gives an earlier equal key its value. -/
def ofPairs (ps : List (Atom × Doc)) : Fields :=
  ps.foldl (fun o p => put p.1 p.2 o) []

/-- The fields of `o` with those of `p` put over them. -/
def update (o p : Fields) : Fields :=
  p.foldl (fun o f => put f.1 f.2 o) o

theorem get?_cons (k : String) (a : Atom) (v : Doc) (r : Fields) :
    get? k ((a, v) :: r) = if a.isText k then some v else get? k r := rfl

theorem isText_sameKey_str (a : Atom) (k : String) : a.sameKey (.str k) = a.isText k := by
  cases a <;> simp [Atom.sameKey, Atom.isText, Atom.keyNumber?]

/-- The value under a key that was just set. -/
@[simp] theorem get?_set_self (k : String) (v : Doc) (o : Fields) : get? k (set k v o) = some v := by
  induction o with
  | nil => simp [set, put, get?, Atom.isText]
  | cons f r ih =>
    obtain ⟨a, w⟩ := f
    simp only [set, put, isText_sameKey_str] at ih ⊢
    by_cases h : a.isText k <;> simp [get?, h, ih]

/-- Setting one key leaves the value of another. -/
theorem get?_set_of_ne {k l : String} (h : k ≠ l) (v : Doc) (o : Fields) :
    get? l (set k v o) = get? l o := by
  induction o with
  | nil => simp [set, put, get?, Atom.isText, h]
  | cons f r ih =>
    obtain ⟨a, w⟩ := f
    simp only [set, put, isText_sameKey_str] at ih ⊢
    by_cases hk : a.isText k
    · have : a.isText l = false := by
        cases a <;> simp_all [Atom.isText]
      simp [get?, hk, this]
    · simp [get?, hk, ih]

theorem get?_erase_self (k : String) (o : Fields) : get? k (erase k o) = none := by
  induction o with
  | nil => rfl
  | cons f r ih =>
    obtain ⟨a, w⟩ := f
    simp only [erase] at ih
    by_cases hk : a.isText k <;> simp [erase, get?, hk, ih]

end Fields

namespace Doc

/-- The absent value. -/
@[match_pattern] abbrev null : Doc := .atom .null
/-- A truth value. -/
@[match_pattern] abbrev bool (b : Bool) : Doc := .atom (.bool b)
/-- An integer. -/
@[match_pattern] abbrev int (n : Int) : Doc := .atom (.int n)
/-- A double. -/
@[match_pattern] abbrev num (x : Float) : Doc := .atom (.num x)
/-- A text. -/
@[match_pattern] abbrev str (s : String) : Doc := .atom (.str s)

/-- A table with text keys. -/
def record (fields : List (String × Doc)) : Doc :=
  .obj (fields.map fun f => (.str f.1, f.2))

/-- A value that may be missing, written as `null` then. -/
def ofOption {α : Type} (f : α → Doc) : Option α → Doc
  | none => .null
  | some a => f a

/-- A list of documents. -/
def ofList {α : Type} (f : α → Doc) (as : List α) : Doc :=
  .list (as.map f)

/-- A natural number. -/
def nat (n : Nat) : Doc := .int n

/-- A field of a table. -/
def field? (k : String) : Doc → Option Doc
  | .obj o => Fields.get? k o
  | _ => none

/-- Whether a document counts as true in a test for presence: empty containers,
zeros, the empty text and `null` do not. -/
def truthy : Doc → Bool
  | .null => false
  | .bool b => b
  | .int n => n != 0
  | .num x => !(x == 0.0)
  | .str s => !s.isEmpty
  | .atom (.bytes b) => !b.isEmpty
  | .atom _ => true
  | .list xs => !xs.isEmpty
  | .obj fs => !fs.isEmpty
  | .set xs => !xs.isEmpty

/-- The name of the kind of a document, as messages give it. -/
def kindName : Doc → String
  | .null => "NoneType"
  | .bool _ => "bool"
  | .int _ => "int"
  | .num _ => "float"
  | .str _ => "str"
  | .atom (.day _) => "datetime.date"
  | .atom (.moment _) => "datetime.datetime"
  | .atom (.bytes _) => "bytes"
  | .atom .endless => "list"
  | .list _ => "list"
  | .obj _ => "dict"
  | .set _ => "set"

/-- The members of a document: elements, keys or single characters. -/
def members : Doc → Except Fault (List Doc)
  | .list xs => .ok xs
  | .obj fs => .ok (fs.map fun f => .atom f.1)
  | .set xs => .ok (xs.map .atom)
  | .str s => .ok (s.toList.map fun c => .str (String.singleton c))
  | .atom (.bytes b) => .ok (b.map fun x => .int x.toNat)
  | .atom .endless => .error .endless
  | d => .error (.notIterable d.kindName)

mutual

/-- The texts among the values of a document. -/
def texts : Doc → List String
  | .str s => [s]
  | .list xs => textsOfItems xs
  | .obj fs => textsOfFields fs
  | _ => []

/-- The texts in the elements of a list. -/
def textsOfItems : List Doc → List String
  | [] => []
  | x :: r => texts x ++ textsOfItems r

/-- The texts in the values of a table. -/
def textsOfFields : List (Atom × Doc) → List String
  | [] => []
  | (_, v) :: r => texts v ++ textsOfFields r

end

end Doc

end Glasshouse
