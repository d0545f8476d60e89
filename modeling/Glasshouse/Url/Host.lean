/-
Glasshouse.Url.Host — the host of an address: a domain name in small letters,
an IPv4 address in any of its numeral forms, or an IPv6 address in brackets.
Hosts are written in one way: four decimal numbers, or hexadecimal groups with
the longest run of zeros left out.

Limit. Domain names beyond ASCII go through `plainForm` and `asciiLabel`, a short
stand-in for the processing of international names (UTS 46): it has the mappings of
letters to small ones, of full width forms and of marks without width, but neither
the other compatibility mappings (mathematical letters, ligatures), nor normal forms,
nor the checks of labels. What is stated of addresses needs of the two only that what
they give is in ASCII and read as itself again.
-/
import Glasshouse.Url.Problem
import Glasshouse.Url.Percent
import Glasshouse.Url.Punycode
import Glasshouse.Text.Case
import Glasshouse.Number.Reading

namespace Glasshouse.Url

/-- The host of an address. -/
inductive Host where
  | domain (name : String)
  | ipv4 (address : Nat)
  | ipv6 (groups : List Nat)
  deriving DecidableEq, Repr

/-! ## IPv4 -/

/-- The number that digits write in a base. -/
def baseValue (base : Nat) (cs : List Char) : Nat :=
  cs.foldl (fun n c => n * base + (hexDigit? c).getD 0) 0

/-- A part of an IPv4 address: decimal, octal after `0`, hexadecimal after `0x`. -/
def ipv4Part? (cs : List Char) : Option Nat :=
  let (base, ds) := match cs with
    | '0' :: 'x' :: r => (16, r)
    | '0' :: 'X' :: r => (16, r)
    | '0' :: d :: r => (8, d :: r)
    | r => (10, r)
  if cs.isEmpty then none
  else if ds.all fun c => (hexDigit? c).any (· < base) then some (baseValue base ds)
  else none

/-- The parts of a name between its dots; a dot at the end adds none. -/
def dotted (name : List Char) : List (List Char) :=
  let parts := name.splitOn '.'
  match parts.getLast? with
  | some [] => if 1 < parts.length then parts.dropLast else parts
  | _ => parts

/-- Whether the last part of a name is a number, so that it has to be an address. -/
def endsInNumber (name : List Char) : Bool :=
  match (dotted name).getLast? with
  | some part => (!part.isEmpty && part.all Char.isDigit) || (ipv4Part? part).isSome
  | none => false

/-- The address of parts: the last one fills the places that are left. -/
def readIpv4 (name : List Char) : Except Problem Host :=
  let parts := dotted name
  if 4 < parts.length then .error .badIpv4
  else
    match parts.mapM ipv4Part? with
    | none => .error .badIpv4
    | some ns =>
      match ns.reverse with
      | [] => .error .badIpv4
      | last :: firsts =>
        let firsts := firsts.reverse
        if Nat.pow 256 (4 - firsts.length) ≤ last || firsts.any (255 < ·) then .error .badIpv4
        else
          let high := firsts.zipIdx.map fun (n, i) => n * Nat.pow 256 (3 - i)
          .ok (.ipv4 (high.foldl (· + ·) last))

/-! ## IPv6 -/

/-- A group of one to four hexadecimal digits. -/
def ipv6Group? (cs : List Char) : Option Nat :=
  if cs.isEmpty || 4 < cs.length then none
  else if cs.all fun c => (hexDigit? c).isSome then some (baseValue 16 cs)
  else none

/-- A number from 0 to 255 in decimal digits without leading zeros. -/
def octet? (cs : List Char) : Option Nat :=
  if cs.isEmpty || !cs.all Char.isDigit || (1 < cs.length && cs.head? == some '0') then none
  else
    let n := Number.digitsValue cs
    if n ≤ 255 then some n else none

/-- Two groups written as four decimal numbers. -/
def embeddedIpv4? (cs : List Char) : Option (List Nat) :=
  match (cs.splitOn '.').mapM octet? with
  | some [a, b, c, d] => some [a * 256 + b, c * 256 + d]
  | _ => none

/-- The groups between colons; the last two may be four decimal numbers. -/
def ipv6Groups? : List (List Char) → Option (List Nat)
  | [] => some []
  | [p] => if p.contains '.' then embeddedIpv4? p else (ipv6Group? p).map ([·])
  | p :: r => do
    let n ← ipv6Group? p
    let ns ← ipv6Groups? r
    some (n :: ns)

/-- The groups of a part of an address that may be empty. -/
def ipv6Side? (cs : List Char) : Option (List Nat) :=
  if cs.isEmpty then some [] else ipv6Groups? (cs.splitOn ':')

/-- The text before and the text behind the first `::`, if there is one. -/
def cutGap? : List Char → Option (List Char × List Char)
  | [] => none
  | c :: r =>
    match c, r with
    | ':', ':' :: r => some ([], r)
    | c, r => (cutGap? r).map fun p => (c :: p.1, p.2)

/-- An address between brackets; one `::` stands for at least one group of zero. -/
def readIpv6 (cs : List Char) : Except Problem Host :=
  let groups := match cutGap? cs with
    | none => (ipv6Side? cs).bind fun ns => if ns.length == 8 then some ns else none
    | some (s, t) => do
      let a ← ipv6Side? s
      let b ← ipv6Side? t
      if s.contains '.' || (cutGap? t).isSome then none
      else if 8 ≤ a.length + b.length then none
      else some (a ++ List.replicate (8 - a.length - b.length) 0 ++ b)
  match groups with
  | some ns => .ok (.ipv6 ns)
  | none => .error .badIpv6

/-- Length of the run of zeros at the head. -/
def zeroRun (ns : List Nat) : Nat :=
  (ns.takeWhile (· == 0)).length

/-- Start and length of the first longest run of at least two zeros. -/
def longestZeroRun (ns : List Nat) : Option (Nat × Nat) :=
  let runs := (List.range ns.length).map fun i => (i, zeroRun (ns.drop i))
  runs.foldl (fun best r =>
    if r.2 < 2 then best
    else
      match best with
      | some b => if b.2 < r.2 then some r else best
      | none => some r) none

/-- Groups in hexadecimal between colons. -/
def groupsText (ns : List Nat) : String :=
  ":".intercalate (ns.map fun n => String.ofList (Nat.toDigits 16 n))

/-- The text of an IPv6 address. -/
def ipv6Text (ns : List Nat) : String :=
  match longestZeroRun ns with
  | some (i, k) => groupsText (ns.take i) ++ "::" ++ groupsText (ns.drop (i + k))
  | none => groupsText ns

/-! ## Domain names -/

/-- ASCII characters that no domain name has. -/
def isForbidden (c : Char) : Bool :=
  c.toNat ≤ 0x20 || c.toNat == 0x7F || "%#/:<>?@[\\]^|".toList.contains c

/-- A character of a domain name in its plain form: small letters, full width
forms as ASCII, ideographic full stops as dots; soft hyphens and other marks
without width vanish. The other mappings of international names are left out. -/
def plainForm (c : Char) : List Char :=
  let n := c.toNat
  if n == 0xAD || n == 0x200B || n == 0x2060 || n == 0xFEFF || (0xFE00 ≤ n && n ≤ 0xFE0F) then []
  else if n == 0x3002 || n == 0xFF61 then ['.']
  else if 0xFF01 ≤ n && n ≤ 0xFF5E then Text.lowerChar (Char.ofNat (n - 0xFEE0))
  else Text.lowerChar c

/-- A label in ASCII, without the checks that labels of international names go through. -/
def asciiLabel (label : List Char) : Option (List Char) :=
  if label.all fun c => c.toNat < 128 then
    match label with
    | 'x' :: 'n' :: '-' :: '-' :: r =>
      match Punycode.decode? r with
      | some cs => if cs.all (fun c => c.toNat < 128) then none else some label
      | none => none
    | _ => some label
  else some ("xn--".toList ++ Punycode.encode label)

/-- A domain name in ASCII. -/
def asciiDomain (cs : List Char) : Option (List Char) := do
  let plain := cs.flatMap plainForm
  if plain.any fun c => c.toNat < 128 && isForbidden c then none
  else
    let labels ← (plain.splitOn '.').mapM asciiLabel
    some (['.'].intercalate labels)

/-! ## Hosts -/

/-- The host that characters stand for. -/
def Host.read (cs : List Char) : Except Problem Host :=
  match cs with
  | '[' :: r =>
    match r.reverse with
    | ']' :: inside => readIpv6 inside.reverse
    | _ => .error .badIpv6
  | cs =>
    match (decode? cs).bind asciiDomain with
    | none => .error .badDomain
    | some [] => .error .noHost
    | some name => if endsInNumber name then readIpv4 name else .ok (.domain (String.ofList name))

/-- The text of a host. -/
def Host.text : Host → String
  | domain name => name
  | ipv4 a => s!"{a / 0x1000000}.{a / 0x10000 % 256}.{a / 256 % 256}.{a % 256}"
  | ipv6 groups => "[" ++ ipv6Text groups ++ "]"

end Glasshouse.Url
