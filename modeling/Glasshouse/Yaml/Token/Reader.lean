/-
Glasshouse.Yaml.Token.Reader — the tokens of a text. Lists and tables on lines
have no brackets; their begin and end follow from the columns of their entries.
Whether a scalar was a key shows only at the colon behind it, so every word
that may turn out to be one leaves an empty place for the key mark before it.
-/
import Glasshouse.Table
import Glasshouse.Yaml.Token.Scalar

namespace Glasshouse.Yaml

/-- A word that is a key if a colon follows on its line. -/
structure PossibleKey where
  /-- The place of the key mark among the tokens. -/
  slot : Nat
  index : Nat
  line : Nat
  column : Nat
  /-- Whether nothing but a key can stand here. -/
  required : Bool

/-- The state of reading. -/
structure Scan where
  cursor : Cursor
  /-- The tokens; several or none at each place. -/
  tokens : Array (List Token) := #[]
  /-- The number of open brackets. -/
  depth : Nat := 0
  /-- The column of the innermost list or table on lines. -/
  indent : Int := -1
  /-- The columns around it. -/
  outer : List Int := []
  /-- Whether a key may stand here. -/
  mayKey : Bool := true
  /-- The possible key at each number of open brackets. -/
  keys : Table Nat PossibleKey := []

namespace Scan

/-- The greatest distance of a colon from the begin of its key. -/
def maxKeyLength : Nat := 1024

/-- A token added. -/
def push (s : Scan) (t : Token) : Scan := { s with tokens := s.tokens.push [t] }

/-- Whether the place is inside of brackets. -/
def inFlow (s : Scan) : Bool := s.depth != 0

/-- The column of the place. -/
def column (s : Scan) : Int := s.cursor.column

/-- The tokens in front of the next one skipped: spaces, comments and line ends. -/
def skipGaps (fuel : Nat) (s : Scan) : Scan :=
  match fuel with
  | 0 => s
  | fuel + 1 =>
    let c := if s.cursor.index == 0 && s.cursor.at? byteOrderMark then s.cursor.next else s.cursor
    let c := c.skipSpaces
    let c := if c.at? '#' then c.skipWhile fun x => !isBreak x else c
    match c.takeBreak with
    | some (_, c) => skipGaps fuel { s with cursor := c, mayKey := s.mayKey || !s.inFlow }
    | none => { s with cursor := c }

/-- Possible keys that are too far away dropped; one that is required is wrong then. -/
def dropStale (s : Scan) : Except Problem Scan :=
  let stale (k : PossibleKey) : Bool :=
    k.line != s.cursor.line || decide (maxKeyLength < s.cursor.index - k.index)
  if s.keys.any fun p => p.2.required && stale p.2 then .error .malformed
  else .ok { s with keys := s.keys.filter fun p => !stale p.2 }

/-- The possible key at this depth given up. -/
def dropKey (s : Scan) : Except Problem Scan :=
  match s.keys.get? s.depth with
  | some k => if k.required then .error .malformed else .ok { s with keys := s.keys.erase s.depth }
  | none => .ok s

/-- The next token noted as a possible key. -/
def noteKey (s : Scan) : Except Problem Scan :=
  if s.mayKey then do
    let s ← s.dropKey
    let c := s.cursor
    let key : PossibleKey := ⟨s.tokens.size, c.index, c.line, c.column,
      !s.inFlow && s.indent == s.column⟩
    .ok { s with tokens := s.tokens.push [], keys := s.keys.put s.depth key }
  else .ok s

/-- Lists and tables that begin further to the right closed. -/
def closeTo (column : Int) : List Int → Scan → Scan
  | [], s => s
  | o :: r, s =>
    if column < s.indent then closeTo column r { s.push .blockEnd with indent := o, outer := r }
    else s

/-- Lists and tables on lines closed down to a column. -/
def unwind (s : Scan) (column : Int) : Scan :=
  if s.inFlow then s else closeTo column s.outer s

/-- A list or table opened at a column, if it lies further to the right. -/
def openAt (s : Scan) (column : Int) : Option Scan :=
  if s.indent < column then some { s with indent := column, outer := s.indent :: s.outer } else none

/-- A list or table on lines opened here, if need be. -/
def openHere (s : Scan) (t : Token) : Scan :=
  match s.openAt s.column with
  | some s => s.push t
  | none => s

/-- A token of so many characters. -/
def take (s : Scan) (n : Nat) (t : Token) : Scan :=
  { s.push t with cursor := s.cursor.skip n }

/-! ## Directives, properties -/

/-- A number of decimal digits. -/
def number (c : Cursor) : Except Problem (Nat × Cursor) :=
  let (ds, c) := c.takeWhile Char.isDigit
  if ds.isEmpty then .error .malformed
  else .ok (ds.foldl (fun n d => n * 10 + (d.toNat - '0'.toNat)) 0, c)

/-- A character of an address in a tag. -/
def isUriChar (c : Char) : Bool :=
  c.isAlphanum || "-;/?:@&=+$,_.!~*\x27()[]".toList.contains c

/-- The bytes of escapes `%XX`. -/
def uriBytes : Nat → Cursor → Except Problem (List UInt8 × Cursor)
  | 0, _ => .error .malformed
  | fuel + 1, c =>
    if !c.at? '%' then .ok ([], c)
    else
      match c.next.rest with
      | a :: b :: _ =>
        match hexValue? [a, b] with
        | some v => (uriBytes fuel (c.skip 3)).map fun p => (v.toUInt8 :: p.1, p.2)
        | none => .error .malformed
      | _ => .error .malformed

/-- The characters of an address. -/
def uriChars : Nat → Cursor → Except Problem Lexeme
  | 0, _ => .error .malformed
  | fuel + 1, c =>
    match c.peek with
    | some '%' => do
      let (bs, c) ← uriBytes (c.rest.length + 1) c
      let some t := String.fromUTF8? ⟨bs.toArray⟩ | .error .malformed
      let (xs, c) ← uriChars fuel c
      .ok (t.toList ++ xs, c)
    | some x => if isUriChar x then (uriChars fuel c.next).map (consTo x) else .ok ([], c)
    | none => .ok ([], c)

/-- An address, which has at least one character. -/
def uri (c : Cursor) : Except Problem (String × Cursor) := do
  let (cs, c) ← uriChars (c.rest.length + 1) c
  if cs.isEmpty then .error .malformed else .ok (String.ofList cs, c)

/-- The handle of a tag: `!`, or a name between exclamation marks. -/
def tagHandle (c : Cursor) : Except Problem (String × Cursor) :=
  if !c.at? '!' then .error .malformed
  else
    let (name, d) := c.next.takeWhile isNameChar
    if d.at? '!' then .ok ("!" ++ String.ofList name ++ "!", d.next)
    else if name.isEmpty then
      if d.at? ' ' then .ok ("!", d) else .error .malformed
    else .error .malformed

/-- A directive up to the end of its line. -/
def directive (c : Cursor) : Except Problem (Directive × Cursor) := do
  let (name, c) := c.next.takeWhile isNameChar
  let ends (c : Cursor) : Bool := c.at? ' ' || isLineEnd c.peek
  if name.isEmpty || !ends c then .error .malformed
  else
    match String.ofList name with
    | "YAML" =>
      let (major, c) ← number c.skipSpaces
      if !c.at? '.' then .error .malformed
      else
        let (_, c) ← number c.next
        if !ends c then .error .malformed
        else .ok (.version major, ← c.finishLine)
    | "TAG" =>
      let (handle, c) ← tagHandle c.skipSpaces
      if !c.at? ' ' then .error .malformed
      else
        let (stands, c) ← uri c.skipSpaces
        if !ends c then .error .malformed
        else .ok (.handle handle stands, ← c.finishLine)
    | _ => .ok (.other, ← (c.skipWhile fun x => !isBreak x).finishLine)

/-- The name of an anchor or an alias; the place is at its sign. -/
def nodeName (c : Cursor) : Except Problem (String × Cursor) :=
  let (name, c) := c.next.takeWhile isNameChar
  let ends := isGap c.peek || c.peek.any ("?:,]\x7d%@\x60".toList.contains ·)
  if name.isEmpty || !ends then .error .malformed else .ok (String.ofList name, c)

/-- A tag; the place is at its exclamation mark. -/
def tag (c : Cursor) : Except Problem (Token × Cursor) := do
  let (t, c) ←
    if c.peekAt 1 == some '<' then do
      let (suffix, c) ← uri (c.skip 2)
      if c.at? '>' then pure (Token.tag none suffix, c.next) else .error .malformed
    else if isGap (c.peekAt 1) then pure (.tag none "!", c.next)
    else
      let word := c.next.rest.takeWhile fun x => x != ' ' && !isBreak x
      let (handle, c) ← if word.contains '!' then tagHandle c else pure ("!", c.next)
      let (suffix, c) ← uri c
      pure (.tag (some handle) suffix, c)
  if c.at? ' ' || isLineEnd c.peek then .ok (t, c) else .error .malformed

/-! ## One token -/

/-- A word that may be a key. -/
def word (s : Scan) (read : Scan → Except Problem (Token × Cursor)) : Except Problem Scan := do
  let s ← s.noteKey
  let (t, c) ← read s
  .ok { s.push t with mayKey := false, cursor := c }

/-- A plain scalar, after which a key may stand on a new line. -/
def plain (s : Scan) : Except Problem Scan := do
  let s ← s.noteKey
  let (cs, lineEnded, c) := plainScalar s.inFlow s.indent s.cursor
  .ok { s.push (.scalar (String.ofList cs) true) with mayKey := lineEnded, cursor := c }

/-- A block of lines. -/
def block (s : Scan) (folded : Bool) : Except Problem Scan := do
  let s ← s.dropKey
  let (cs, c) ← blockScalar folded s.indent s.cursor
  .ok { s.push (.scalar (String.ofList cs) false) with mayKey := true, cursor := c }

/-- A marker that separates documents. -/
def marker (s : Scan) (t : Token) : Except Problem Scan := do
  let s ← (s.unwind (-1)).dropKey
  .ok { s.take 3 t with mayKey := false }

/-- An opening bracket. -/
def openBracket (s : Scan) (t : Token) : Except Problem Scan := do
  let s ← s.noteKey
  .ok { s.take 1 t with depth := s.depth + 1, mayKey := true }

/-- A closing bracket. -/
def closeBracket (s : Scan) (t : Token) : Except Problem Scan := do
  let s ← s.dropKey
  if s.depth == 0 then .error .malformed
  else .ok { s.take 1 t with depth := s.depth - 1, mayKey := false }

/-- The dash of an entry. -/
def entry (s : Scan) : Except Problem Scan := do
  if !s.inFlow && !s.mayKey then .error .malformed
  else
    let s := if s.inFlow then s else s.openHere .entriesStart
    let s ← { s with mayKey := true }.dropKey
    .ok (s.take 1 .entry)

/-- The question mark of a key. -/
def explicitKey (s : Scan) : Except Problem Scan := do
  if !s.inFlow && !s.mayKey then .error .malformed
  else
    let s := if s.inFlow then s else s.openHere .keysStart
    let s ← { s with mayKey := !s.inFlow }.dropKey
    .ok (s.take 1 .key)

/-- The colon of a value, which makes the possible key before it one. -/
def value (s : Scan) : Except Problem Scan :=
  match s.keys.get? s.depth with
  | some k =>
    let s := { s with keys := s.keys.erase s.depth, mayKey := false }
    let (s, opened) := match if s.inFlow then none else s.openAt k.column with
      | some s => (s, [Token.keysStart])
      | none => (s, [])
    .ok ({ s with tokens := s.tokens.setIfInBounds k.slot (opened ++ [Token.key]) }.take 1 .value)
  | none => do
    if !s.inFlow && !s.mayKey then .error .malformed
    else
      let s := if s.inFlow then s else s.openHere .keysStart
      let s ← { s with mayKey := !s.inFlow }.dropKey
      .ok (s.take 1 .value)

/-- Whether a plain scalar may begin with a character in front of another. -/
def startsPlain (s : Scan) (x : Char) : Bool :=
  if "-?:,[]\x7b\x7d#&*!|>\x27\"%@\x60".toList.contains x then
    !isGap (s.cursor.peekAt 1) && (x == '-' || (!s.inFlow && (x == '?' || x == ':')))
  else !isGap (some x)

/-- The end of the text. -/
def finish (s : Scan) : Except Problem (List Token) := do
  let s ← (s.unwind (-1)).dropKey
  .ok s.tokens.toList.flatten

/-- The token at the place, which is at a character. -/
def step (s : Scan) (x : Char) : Except Problem Scan :=
  let c := s.cursor
  let gapAfter := isGap (c.peekAt 1)
  let atLineStart := c.column == 0
  match x with
  | '[' => s.openBracket .listOpen
  | '{' => s.openBracket .tableOpen
  | ']' => s.closeBracket .listClose
  | '}' => s.closeBracket .tableClose
  | ',' => do
    let s ← { s with mayKey := true }.dropKey
    .ok (s.take 1 .comma)
  | '*' => s.word fun s => (nodeName s.cursor).map fun p => (.alias p.1, p.2)
  | '&' => s.word fun s => (nodeName s.cursor).map fun p => (.anchor p.1, p.2)
  | '!' => s.word fun s => tag s.cursor
  | '\'' => s.word fun s => (quotedScalar false s.cursor).map fun l =>
      (.scalar (String.ofList l.1) false, l.2)
  | '"' => s.word fun s => (quotedScalar true s.cursor).map fun l =>
      (.scalar (String.ofList l.1) false, l.2)
  | _ =>
    if x == '%' && atLineStart then do
      let s ← (s.unwind (-1)).dropKey
      let (d, c) ← directive s.cursor
      .ok { s.push (.directive d) with mayKey := false, cursor := c }
    else if x == '-' && atLineStart && c.atMarker '-' then s.marker .documentStart
    else if x == '.' && atLineStart && c.atMarker '.' then s.marker .documentEnd
    else if x == '-' && gapAfter then s.entry
    else if x == '?' && (s.inFlow || gapAfter) then s.explicitKey
    else if x == ':' && (s.inFlow || gapAfter) then s.value
    else if (x == '|' || x == '>') && !s.inFlow then s.block (x == '>')
    else if s.startsPlain x then s.plain
    else .error .malformed

/-- The tokens from a place on; each takes at least one character. -/
def run (fuel : Nat) (s : Scan) : Except Problem (List Token) :=
  match fuel with
  | 0 => .error .malformed
  | fuel + 1 => do
    let s ← (s.skipGaps (s.cursor.rest.length + 1)).dropStale
    let s := s.unwind s.column
    match s.cursor.peek with
    | none => s.finish
    | some x => run fuel (← s.step x)

end Scan

/-- The tokens of a text. -/
def Token.ofText (cs : List Char) : Except Problem (List Token) :=
  if cs.all isAllowed then Scan.run (cs.length + 2) { cursor := ⟨cs, 0, 0, 0⟩ }
  else .error .malformed

end Glasshouse.Yaml
