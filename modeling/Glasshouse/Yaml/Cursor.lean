/-
Glasshouse.Yaml.Cursor — a place in a text, with its line and column, and the
classes of characters that the grammar distinguishes.
-/

namespace Glasshouse.Yaml

/-- Why a text has no value. -/
inductive Problem where
  /-- The text does not follow the grammar, or a tag does not fit its node. -/
  | malformed
  /-- A number or a date that does not exist. -/
  | valueOutOfRange
  /-- A truth value by an unknown word. -/
  | wordUnknown
  /-- A number without any character. -/
  | numberEmpty
  /-- A text marked as a time that is none. -/
  | timeUnreadable
  deriving DecidableEq, Repr

/-- The end of a line. -/
def isBreak (c : Char) : Bool :=
  c == '\n' || c == '\u0085' || c == '\u2028' || c == '\u2029'

/-- A blank inside of a line. -/
def isBlank (c : Char) : Bool := c == ' ' || c == '\t'

/-- Whether a word ends in front of what comes next. -/
def isGap : Option Char → Bool
  | none => true
  | some c => isBlank c || isBreak c

/-- Whether a line ends in front of what comes next. -/
def isLineEnd : Option Char → Bool
  | none => true
  | some c => isBreak c

/-- A character of a name. -/
def isNameChar (c : Char) : Bool := c.isAlphanum || c == '-' || c == '_'

/-- The value of a hexadecimal digit. -/
def hexDigit? (c : Char) : Option Nat :=
  if c.isDigit then some (c.toNat - '0'.toNat)
  else if 'a' ≤ c && c ≤ 'f' then some (c.toNat - 'a'.toNat + 10)
  else if 'A' ≤ c && c ≤ 'F' then some (c.toNat - 'A'.toNat + 10)
  else none

/-- The mark at the beginning of a text that tells its byte order. -/
def byteOrderMark : Char := '\ufeff'

/-- A character that may occur in a text at all. -/
def isAllowed (c : Char) : Bool :=
  c == '\t' || c == '\n' || c == '\r' || c == '\u0085'
    || (' ' ≤ c && c ≤ '~') || ('\u00a0' ≤ c && c ≤ '\ufffd') || '\ufffd'.toNat + 2 < c.toNat

/-- A place in a text. -/
structure Cursor where
  rest : List Char
  index : Nat := 0
  line : Nat := 0
  column : Nat := 0

namespace Cursor

/-- The character at the place. -/
def peek (c : Cursor) : Option Char := c.rest.head?

/-- The character so many places later. -/
def peekAt (c : Cursor) (n : Nat) : Option Char := c.rest[n]?

/-- Whether a character stands at the place. -/
def at? (c : Cursor) (x : Char) : Bool := c.peek == some x

/-- The place after the character. -/
def next (c : Cursor) : Cursor :=
  match c.rest with
  | [] => c
  | x :: r =>
    if isBreak x then ⟨r, c.index + 1, c.line + 1, 0⟩
    else ⟨r, c.index + 1, c.line, if x == byteOrderMark then c.column else c.column + 1⟩

/-- The place so many characters later. -/
def skip (c : Cursor) : Nat → Cursor
  | 0 => c
  | n + 1 => c.next.skip n

/-- The characters that satisfy a test, and the place after them. -/
def takeWhile (c : Cursor) (p : Char → Bool) : List Char × Cursor :=
  let taken := c.rest.takeWhile p
  (taken, c.skip taken.length)

/-- The place after the characters that satisfy a test. -/
def skipWhile (c : Cursor) (p : Char → Bool) : Cursor := (c.takeWhile p).2

/-- The place after spaces. -/
def skipSpaces (c : Cursor) : Cursor := c.skipWhile (· == ' ')

/-- The end of a line as it is kept, and the place after it. -/
def takeBreak (c : Cursor) : Option (Char × Cursor) :=
  match c.peek with
  | some x => if isBreak x then some (if x == '\u0085' then '\n' else x, c.next) else none
  | none => none

/-- Whether the line marks the begin or the end of a document by three equal signs. -/
def atMarker (c : Cursor) (x : Char) : Bool :=
  c.rest.take 3 == [x, x, x] && isGap (c.peekAt 3)

/-- Whether the line separates documents. -/
def atSeparator (c : Cursor) : Bool := c.atMarker '-' || c.atMarker '.'

/-- The place after spaces, a comment and the end of the line; anything else is wrong. -/
def finishLine (c : Cursor) : Except Problem Cursor :=
  let c := c.skipSpaces
  let c := if c.at? '#' then c.skipWhile fun x => !isBreak x else c
  if isLineEnd c.peek then .ok c.next else .error .malformed

end Cursor

end Glasshouse.Yaml
