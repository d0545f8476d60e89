/-
Glasshouse.Yaml.Token.Scalar — scalars as they are written: between single or
double quotes, plain, and as blocks of lines. Line ends inside of quoted and
plain scalars fold: one becomes a space, more become one less.
-/
import Glasshouse.Yaml.Token

namespace Glasshouse.Yaml

/-- Characters and the place after them. -/
abbrev Lexeme := List Char × Cursor

/-- A character in front of a lexeme. -/
def consTo (x : Char) (l : Lexeme) : Lexeme := (x :: l.1, l.2)

/-- What a folded line end and the empty lines after it stand for. -/
def fold (lineEnd : Char) (breaks : List Char) : List Char :=
  (if lineEnd != '\n' then [lineEnd] else if breaks.isEmpty then [' '] else []) ++ breaks

/-! ## Quoted scalars -/

/-- The escapes of one character between double quotes. -/
def shortEscapes : List (Char × Char) := [
  ('0', '\x00'), ('a', '\x07'), ('b', '\x08'), ('t', '\t'), ('\t', '\t'), ('n', '\n'),
  ('v', '\x0b'), ('f', '\x0c'), ('r', '\r'), ('e', '\x1b'), (' ', ' '), ('"', '"'),
  ('\\', '\\'), ('/', '/'), ('N', '\u0085'), ('_', '\u00a0'), ('L', '\u2028'), ('P', '\u2029')]

/-- The number of digits of the escapes that give a code point. -/
def codeEscapes : List (Char × Nat) := [('x', 2), ('u', 4), ('U', 8)]

/-- The value of hexadecimal digits. -/
def hexValue? (cs : List Char) : Option Nat :=
  cs.foldl (fun n c => do some ((← n) * 16 + (← hexDigit? c))) (some 0)

/-- The character with a code point. Half of a surrogate pair has none and becomes the
replacement character. -/
def charOf (n : Nat) : Except Problem Char :=
  if 0x110000 ≤ n then .error .valueOutOfRange
  else .ok (if 0xD800 ≤ n && n < 0xE000 then '\ufffd' else Char.ofNat n)

/-- Whether characters begin with an escape for half of a surrogate pair. -/
def beginsHalf : List Char → Bool
  | '\\' :: e :: r =>
    ((codeEscapes.lookup e).bind fun n => hexValue? (r.take n)).any fun n =>
      0xD800 ≤ n && n < 0xE000
  | _ => false

/-- Whether such an escape stands somewhere among characters, be it between double quotes
or elsewhere. -/
def writesHalf : List Char → Bool
  | [] => false
  | c :: r => beginsHalf (c :: r) || writesHalf r

/-- Empty lines and the blanks in front of them inside of a quoted scalar. -/
def quotedBreaks (fuel : Nat) (c : Cursor) : Except Problem Lexeme :=
  match fuel with
  | 0 => .error .malformed
  | fuel + 1 =>
    if c.atSeparator then .error .malformed
    else
      let c := c.skipWhile isBlank
      match c.takeBreak with
      | some (b, c) => (quotedBreaks fuel c).map (consTo b)
      | none => .ok ([], c)

/-- What an escape stands for; the place is after the backslash. -/
def quotedEscape (c : Cursor) : Except Problem Lexeme :=
  match c.rest with
  | [] => .error .malformed
  | e :: r =>
    match shortEscapes.lookup e, codeEscapes.lookup e with
    | some x, _ => .ok ([x], c.next)
    | none, some n =>
      let ds := r.take n
      match if ds.length == n then hexValue? ds else none with
      | some v => (charOf v).map fun x => ([x], c.skip (n + 1))
      | none => .error .malformed
    | none, none =>
      if isBreak e then quotedBreaks (r.length + 1) c.next else .error .malformed

/-- The characters up to the next blank, line end or closing quote. -/
def quotedRun (double : Bool) (fuel : Nat) (c : Cursor) : Except Problem Lexeme :=
  match fuel with
  | 0 => .error .malformed
  | fuel + 1 =>
    match double, c.rest with
    | _, [] => .ok ([], c)
    | false, '\'' :: '\'' :: _ => (quotedRun double fuel (c.skip 2)).map (consTo '\'')
    | false, '\'' :: _ => .ok ([], c)
    | true, '"' :: _ => .ok ([], c)
    | true, '\\' :: _ => do
      let (xs, c) ← quotedEscape c.next
      let (ys, c) ← quotedRun double fuel c
      .ok (xs ++ ys, c)
    | _, x :: _ =>
      if isGap (some x) then .ok ([], c) else (quotedRun double fuel c.next).map (consTo x)

/-- Blanks or folded line ends inside of a quoted scalar. -/
def quotedSpaces (c : Cursor) : Except Problem Lexeme :=
  let (blanks, c) := c.takeWhile isBlank
  match c.peek, c.takeBreak with
  | none, _ => .error .malformed
  | some _, none => .ok (blanks, c)
  | some _, some (b, c) => (quotedBreaks (c.rest.length + 1) c).map fun l => (fold b l.1, l.2)

/-- The rest of a quoted scalar from a place between its runs. -/
def quotedRest (double : Bool) (fuel : Nat) (c : Cursor) : Except Problem Lexeme :=
  match fuel with
  | 0 => .error .malformed
  | fuel + 1 =>
    if c.at? (if double then '"' else '\'') then .ok ([], c.next)
    else do
      let (xs, c) ← quotedSpaces c
      let (ys, c) ← quotedRun double (c.rest.length + 1) c
      let (zs, c) ← quotedRest double fuel c
      .ok (xs ++ ys ++ zs, c)

/-- A quoted scalar; the place is at its opening quote. -/
def quotedScalar (double : Bool) (c : Cursor) : Except Problem Lexeme := do
  let c := c.next
  let (xs, c) ← quotedRun double (c.rest.length + 1) c
  let (ys, c) ← quotedRest double (c.rest.length + 1) c
  .ok (xs ++ ys, c)

/-! ## Plain scalars -/

/-- Whether a character is one of the signs of lists and tables in brackets. -/
def isFlowSign (c : Char) : Bool := c == ',' || c == '[' || c == ']' || c == '{' || c == '}'

/-- The length of the run of a plain scalar up to a blank or a sign. -/
def plainRun (flow : Bool) : List Char → Nat
  | [] => 0
  | x :: r =>
    let stops := isGap (some x)
      || (x == ':' && (isGap r.head? || (flow && r.head?.any isFlowSign)))
      || (flow && (x == '?' || isFlowSign x))
    if stops then 0 else plainRun flow r + 1

/-- Empty lines inside of a plain scalar, and whether they end at a separator. -/
def plainBreaks (fuel : Nat) (c : Cursor) : List Char × Bool × Cursor :=
  match fuel with
  | 0 => ([], false, c)
  | fuel + 1 =>
    if c.at? ' ' then plainBreaks fuel c.next
    else
      match c.takeBreak with
      | none => ([], false, c)
      | some (b, c) =>
        if c.atSeparator then ([b], true, c)
        else
          let (bs, ends, c) := plainBreaks fuel c
          (b :: bs, ends, c)

/-- The spaces or folded line ends after a run, nothing where a separator follows,
and whether a line ended. -/
def plainSpaces (c : Cursor) : List Char × Bool × Cursor :=
  let (blanks, c) := c.takeWhile (· == ' ')
  match c.takeBreak with
  | none => (blanks, false, c)
  | some (b, c) =>
    if c.atSeparator then ([], true, c)
    else
      let (bs, ends, c) := plainBreaks (c.rest.length + 1) c
      (if ends then [] else fold b bs, true, c)

/-- A plain scalar from a place between its runs, with the spaces in front of the
run. Also tells whether the scalar ended with a line. -/
def plainFrom (flow : Bool) (indent : Int) (fuel : Nat) (spaces : List Char) (lineEnded : Bool)
    (c : Cursor) : List Char × Bool × Cursor :=
  match fuel, plainRun flow c.rest with
  | 0, _ | _, 0 => ([], lineEnded, c)
  | fuel + 1, n =>
    let run := c.rest.take n
    let (blanks, lineEnded, c) := plainSpaces (c.skip n)
    if blanks.isEmpty || c.at? '#' || (!flow && decide ((c.column : Int) < indent)) then
      (spaces ++ run, lineEnded, c)
    else
      let (xs, lineEnded, c) := plainFrom flow indent fuel blanks lineEnded c
      (spaces ++ run ++ xs, lineEnded, c)

/-- A plain scalar inside of a block with an indentation. -/
def plainScalar (flow : Bool) (indent : Int) (c : Cursor) : List Char × Bool × Cursor :=
  plainFrom flow (indent + 1) (c.rest.length + 1) [] false c

/-! ## Blocks of lines -/

/-- What becomes of the line ends at the end of a block. -/
inductive Chomping where
  | clip | strip | keep
  deriving DecidableEq

/-- A sign for what becomes of the last line ends. -/
def chomping? : Option Char → Option Chomping
  | some '+' => some .keep
  | some '-' => some .strip
  | _ => none

/-- A digit for the indentation; zero is wrong. -/
def increment? (c : Cursor) : Except Problem (Option Nat) :=
  match c.peek with
  | some x =>
    if !x.isDigit then .ok none
    else if x == '0' then .error .malformed
    else .ok (some (x.toNat - '0'.toNat))
  | none => .ok none

/-- The signs of a block, in either order. -/
def blockHeader (c : Cursor) : Except Problem (Chomping × Option Nat × Cursor) := do
  let (chomping, increment, c) ← match chomping? c.peek with
    | some ch => do
      let c := c.next
      match ← increment? c with
      | some n => pure (ch, some n, c.next)
      | none => pure (ch, none, c)
    | none => do
      match ← increment? c with
      | some n =>
        let c := c.next
        match chomping? c.peek with
        | some ch => pure (ch, some n, c.next)
        | none => pure (.clip, some n, c)
      | none => pure (.clip, none, c)
  if c.at? ' ' || isLineEnd c.peek then .ok (chomping, increment, c) else .error .malformed

/-- The place after spaces in front of a column. -/
def skipIndent (indent : Nat) (c : Cursor) : Cursor :=
  c.skip (min (indent - c.column) (c.rest.takeWhile (· == ' ')).length)

/-- The empty lines in front of a line, up to the column of a block. -/
def blockBreaks (indent : Nat) (fuel : Nat) (c : Cursor) : Lexeme :=
  match fuel with
  | 0 => ([], c)
  | fuel + 1 =>
    let c := skipIndent indent c
    match c.takeBreak with
    | some (b, c) => consTo b (blockBreaks indent fuel c)
    | none => ([], c)

/-- The empty lines in front of the first line, and the greatest column in them. -/
def blockMargin (fuel : Nat) (widest : Nat) (c : Cursor) : List Char × Nat × Cursor :=
  match fuel with
  | 0 => ([], widest, c)
  | fuel + 1 =>
    match c.takeBreak with
    | some (b, c) =>
      let (bs, widest, c) := blockMargin fuel widest c
      (b :: bs, widest, c)
    | none =>
      if c.at? ' ' then blockMargin fuel (max widest c.next.column) c.next else ([], widest, c)

/-- Whether a line begins with something else than a blank. -/
def startsFull (c : Cursor) : Bool := !(c.peek.any isBlank)

/-- The lines of a block, the line end after the last, and the empty lines after it. -/
def blockLines (folded : Bool) (indent : Nat) (fuel : Nat) (breaks : List Char) (c : Cursor) :
    List Char × List Char × List Char × Cursor :=
  match fuel with
  | 0 => ([], [], breaks, c)
  | fuel + 1 =>
    let full := startsFull c
    let (line, c) := c.takeWhile fun x => !isBreak x
    let (lineEnd, c) := match c.takeBreak with
      | some (b, c) => ([b], c)
      | none => ([], c)
    let (after, c) := blockBreaks indent (c.rest.length + 1) c
    if c.column == indent && c.peek.isSome then
      let joint :=
        if folded && lineEnd == ['\n'] && full && startsFull c then
          (if after.isEmpty then [' '] else [])
        else lineEnd
      let (xs, last, tail, c) := blockLines folded indent fuel after c
      (breaks ++ line ++ joint ++ xs, last, tail, c)
    else (breaks ++ line, lineEnd, after, c)

/-- A block of lines inside of a block with an indentation; the place is at its sign. -/
def blockScalar (folded : Bool) (outer : Int) (c : Cursor) : Except Problem Lexeme := do
  let (chomping, increment, c) ← blockHeader c.next
  let c ← c.finishLine
  let least := (max (outer + 1) 1).toNat
  let (breaks, indent, c) := match increment with
    | none =>
      let (bs, widest, c) := blockMargin (c.rest.length + 1) 0 c
      (bs, max least widest, c)
    | some n =>
      let indent := least + n - 1
      let (bs, c) := blockBreaks indent (c.rest.length + 1) c
      (bs, indent, c)
  let (text, lineEnd, tail, c) :=
    if c.column == indent && c.peek.isSome then
      blockLines folded indent (c.rest.length + 1) breaks c
    else ([], [], breaks, c)
  .ok (text ++ (if chomping == .strip then [] else lineEnd)
    ++ (if chomping == .keep then tail else []), c)

end Glasshouse.Yaml
