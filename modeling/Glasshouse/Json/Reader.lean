/-
Glasshouse.Json.Reader — documents read from JSON texts. Integers have no
limit, `NaN` and the infinities are accepted, and of a repeated key the last
value counts. A failure says what was expected and how many characters were
left; `Failure.message` turns that into line, column and position.

Limit. An escape for half of a surrogate pair writes no character. It is read as
the replacement character, and `writesCharacters` tells texts without one.
-/
import Glasshouse.Doc
import Glasshouse.Number.Reading

namespace Glasshouse.Json

/-- What a reader did not find, or what it found instead. -/
inductive Expectation where
  | value | propertyName | comma | colon | noMore | closingQuote | noControl | escape
  | unicodeEscape | noMark
  deriving DecidableEq, Repr

/-- The wording of a failure. -/
def Expectation.text : Expectation → String
  | value => "Expecting value"
  | propertyName => "Expecting property name enclosed in double quotes"
  | comma => "Expecting ',' delimiter"
  | colon => "Expecting ':' delimiter"
  | noMore => "Extra data"
  | closingQuote => "Unterminated string starting at"
  | noControl => "Invalid control character at"
  | escape => "Invalid \\escape"
  | unicodeEscape => "Invalid \\uXXXX escape"
  | noMark => "Unexpected UTF-8 BOM (decode using utf-8-sig)"

/-- A failure with the number of characters that were left where it arose. -/
structure Failure where
  expected : Expectation
  left : Nat
  deriving DecidableEq, Repr

/-- What a reader yields, with the characters after it. -/
abbrev Result (α : Type) := Except Failure (α × List Char)

/-- A failure at the head of what is left. -/
def failAt {α : Type} (e : Expectation) (cs : List Char) : Except Failure α :=
  .error ⟨e, cs.length⟩

/-- A blank between the parts of a JSON text. -/
def isGap (c : Char) : Bool :=
  c == ' ' || c == '\t' || c == '\n' || c == '\r'

/-- What is left after blanks. -/
def skipGap (cs : List Char) : List Char :=
  cs.dropWhile isGap

/-- The value of a hexadecimal digit. -/
def hexValue? (c : Char) : Option Nat :=
  if c.isDigit then some (c.toNat - 48)
  else if 'a' ≤ c && c ≤ 'f' then some (c.toNat - 87)
  else if 'A' ≤ c && c ≤ 'F' then some (c.toNat - 55)
  else none

/-- The 16 bit unit that four hexadecimal digits write. -/
def unit? (a b c d : Char) : Option Nat := do
  some ((((← hexValue? a) * 16 + (← hexValue? b)) * 16 + (← hexValue? c)) * 16 + (← hexValue? d))

/-- The character of an escape of one letter. -/
def shortEscape? (c : Char) : Option Char :=
  match c with
  | '"' => some '"'
  | '\\' => some '\\'
  | '/' => some '/'
  | 'b' => some '\x08'
  | 'f' => some '\x0c'
  | 'n' => some '\n'
  | 'r' => some '\r'
  | 't' => some '\t'
  | _ => none

/-- The character of a unit; a unit that is half of a pair stands alone as the
replacement character. -/
def unitChar (n : Nat) : Char :=
  if 0xD800 ≤ n && n < 0xE000 then '\ufffd' else Char.ofNat n

/-- The character that a pair of units stands for. -/
def pairChar? (high low : Nat) : Option Char :=
  if 0xD800 ≤ high && high < 0xDC00 && 0xDC00 ≤ low && low < 0xE000 then
    some (Char.ofNat (0x10000 + (high - 0xD800) * 0x400 + (low - 0xDC00)))
  else none

/-- The rest of a text after its opening quote; `start` is the number of
characters left at that quote. -/
def readText (start : Nat) (acc : List Char) : List Char → Result String
  | [] => .error ⟨.closingQuote, start⟩
  | '"' :: r => .ok (String.ofList acc.reverse, r)
  | '\\' :: 'u' :: a :: b :: c :: d :: r =>
    match unit? a b c d with
    | none => failAt .unicodeEscape ('u' :: a :: b :: c :: d :: r)
    | some n =>
      if r.isEmpty then failAt .unicodeEscape ('u' :: a :: b :: c :: d :: r)
      else
        match r with
        | '\\' :: 'u' :: e :: f :: g :: h :: i :: r' =>
          match (unit? e f g h).bind (pairChar? n) with
          | some p => readText start (p :: acc) (i :: r')
          | none => readText start (unitChar n :: acc) ('\\' :: 'u' :: e :: f :: g :: h :: i :: r')
        | r => readText start (unitChar n :: acc) r
  | '\\' :: 'u' :: r => failAt .unicodeEscape ('u' :: r)
  | ['\\'] => .error ⟨.closingQuote, start⟩
  | '\\' :: c :: r =>
    match shortEscape? c with
    | some e => readText start (e :: acc) r
    | none => failAt .escape ('\\' :: c :: r)
  | c :: r => if c.toNat < 32 then failAt .noControl (c :: r) else readText start (c :: acc) r
  termination_by cs => cs.length

/-- Whether an escape among the characters writes half of a surrogate pair without the
other half. -/
def writesHalf : List Char → Bool
  | '\\' :: 'u' :: a :: b :: c :: d :: r =>
    match unit? a b c d with
    | none => writesHalf r
    | some n =>
      if 0xD800 ≤ n && n < 0xE000 then
        match r with
        | '\\' :: 'u' :: e :: f :: g :: h :: r' =>
          if ((unit? e f g h).bind (pairChar? n)).isSome then writesHalf r' else true
        | _ => true
      else writesHalf r
  | '\\' :: _ :: r => writesHalf r
  | _ :: r => writesHalf r
  | [] => false
  termination_by cs => cs.length

/-- Whether every escape of a JSON text writes a character, alone or with the one after it. -/
def writesCharacters (s : String) : Bool := !writesHalf s.toList

/-- The fraction of a number: a point and digits after it. -/
def readFraction (cs : List Char) : List Char × List Char :=
  match cs with
  | '.' :: r =>
    let ds := r.takeWhile Char.isDigit
    if ds.isEmpty then ([], cs) else (ds, r.dropWhile Char.isDigit)
  | _ => ([], cs)

/-- The exponent of a number, if there is one. -/
def readExponent (cs : List Char) : Option Int × List Char :=
  match cs with
  | c :: r =>
    if c == 'e' || c == 'E' then
      let (negative, r) := Number.splitSign r
      let ds := r.takeWhile Char.isDigit
      if ds.isEmpty then (none, cs)
      else
        let n : Int := Number.digitsValue ds
        (some (if negative then -n else n), r.dropWhile Char.isDigit)
    else (none, cs)
  | [] => (none, cs)

/-- A number. A whole part of several digits does not begin with zero: only the
zero is read then. -/
def readNumber (cs : List Char) : Result Atom :=
  let (negative, body) := match cs with
    | '-' :: r => (true, r)
    | _ => (false, cs)
  let whole := match body with
    | '0' :: _ => ['0']
    | _ => body.takeWhile Char.isDigit
  if whole.isEmpty then failAt .value cs
  else
    let (fraction, r) := readFraction (body.drop whole.length)
    let (exponent, r) := readExponent r
    if fraction.isEmpty && exponent.isNone then
      let n : Int := Number.digitsValue whole
      .ok (.int (if negative then -n else n), r)
    else
      let x := Number.floatOfDecimal
        ⟨Number.digitsValue (whole ++ fraction), exponent.getD 0 - fraction.length⟩
      .ok (.num (if negative then -x else x), r)

/-- The names of scalars, with their values. -/
def names : List (List Char × Atom) := [
  ("null".toList, .null),
  ("true".toList, .bool true),
  ("false".toList, .bool false),
  ("NaN".toList, .num (Float.ofBits 0x7FF8000000000000)),
  ("Infinity".toList, .num (Float.ofBits 0x7FF0000000000000)),
  ("-Infinity".toList, .num (Float.ofBits 0xFFF0000000000000))]

/-- A scalar that is not a text. -/
def readScalar (cs : List Char) : Result Atom :=
  match names.find? fun n => n.1.isPrefixOf cs with
  | some (name, a) => .ok (a, cs.drop name.length)
  | none => readNumber cs

mutual

/-- A value at the head of what is left. Each value, element and field uses up
one unit of fuel, and none is read from fewer than one character. -/
def readValue (fuel : Nat) (cs : List Char) : Except Failure (Doc × List Char) :=
  match fuel with
  | 0 => failAt .value cs
  | fuel + 1 =>
    match cs with
    | '"' :: r => (readText cs.length [] r).map fun p => (.str p.1, p.2)
    | '[' :: r =>
      match skipGap r with
      | ']' :: r => .ok (.list [], r)
      | r => readItems fuel [] r
    | '\x7b' :: r =>
      match skipGap r with
      | '\x7d' :: r => .ok (.obj [], r)
      | r => readFields fuel [] r
    | cs => (readScalar cs).map fun p => (.atom p.1, p.2)

/-- The elements of a list up to its closing bracket. -/
def readItems (fuel : Nat) (acc : List Doc) (cs : List Char) :
    Except Failure (Doc × List Char) :=
  match fuel with
  | 0 => failAt .value cs
  | fuel + 1 => do
    let (v, r) ← readValue fuel cs
    match skipGap r with
    | ']' :: r => .ok (.list (v :: acc).reverse, r)
    | ',' :: r => readItems fuel (v :: acc) (skipGap r)
    | r => failAt .comma r

/-- The fields of a table up to its closing brace. -/
def readFields (fuel : Nat) (acc : List (Atom × Doc)) (cs : List Char) :
    Except Failure (Doc × List Char) :=
  match fuel with
  | 0 => failAt .value cs
  | fuel + 1 =>
    match cs with
    | '"' :: r => do
      let (k, r) ← readText cs.length [] r
      match skipGap r with
      | ':' :: r => do
        let (v, r) ← readValue fuel (skipGap r)
        let acc := (.str k, v) :: acc
        match skipGap r with
        | '\x7d' :: r => .ok (.obj (Fields.ofPairs acc.reverse), r)
        | ',' :: r => readFields fuel acc (skipGap r)
        | r => failAt .comma r
      | r => failAt .colon r
    | cs => failAt .propertyName cs

end

/-- The document that the characters write, nothing but blanks around it. -/
def readChars (cs : List Char) : Except Failure Doc :=
  match cs with
  | '\ufeff' :: _ => failAt .noMark cs
  | cs => do
    let (v, r) ← readValue (cs.length + 1) (skipGap cs)
    match skipGap r with
    | [] => .ok v
    | r => failAt .noMore r

/-- The document that a text writes. -/
def read (s : String) : Except Failure Doc :=
  readChars s.toList

/-- The position of a failure: line, column and number of characters before it. -/
def Failure.place (s : String) (f : Failure) : Nat × Nat × Nat :=
  let cs := s.toList
  let position := cs.length - f.left
  let before := cs.take position
  let line := before.count '\n' + 1
  let column := (before.reverse.takeWhile (· != '\n')).length + 1
  (line, column, position)

/-- The wording of a failure in a text. -/
def Failure.message (s : String) (f : Failure) : String :=
  let (line, column, position) := f.place s
  s!"{f.expected.text}: line {line} column {column} (char {position})"

end Glasshouse.Json
