/-
Glasshouse.Url.Percent — characters of an address written as the escapes of
their bytes, and read back. Control characters and everything beyond ASCII
are escaped in every part; each part adds characters of its own.
-/
import Glasshouse.Text.Quoted
import Glasshouse.Text.Utf8

namespace Glasshouse.Url

/-- The parts of an address that differ in what they escape. -/
inductive Area where
  | userinfo | path | query | fragment
  deriving DecidableEq, Repr

/-- The printable ASCII characters that a part escapes. -/
def Area.escapes : Area → List Char
  | fragment => [' ', '"', '<', '>', '\x60']
  | path => [' ', '"', '<', '>', '\x60', '#', '?', '\x7b', '\x7d']
  | query => [' ', '"', '#', '<', '>', '\'']
  | userinfo => [' ', '"', '<', '>', '\x60', '#', '?', '\x7b', '\x7d', '/', ':', ';', '=', '@',
      '[', '\\', ']', '^', '|']

/-- Whether a part escapes a character. -/
def Area.mustEscape (a : Area) (c : Char) : Bool :=
  c.toNat < 0x20 || 0x7F ≤ c.toNat || a.escapes.contains c

/-- A byte as an escape. -/
def escapeByte (b : UInt8) : List Char :=
  '%' :: (Text.hex 2 b.toNat).map Char.toUpper

/-- A character in a part. -/
def encodeChar (a : Area) (c : Char) : List Char :=
  if a.mustEscape c then (String.singleton c).toUTF8.toList.flatMap escapeByte else [c]

/-- A text in a part. -/
def encode (a : Area) (cs : List Char) : List Char :=
  cs.flatMap (encodeChar a)

/-- Where nothing has to be escaped a text stays as it is. -/
theorem encode_eq_self {a : Area} {cs : List Char} (h : ∀ c ∈ cs, a.mustEscape c = false) :
    encode a cs = cs := by
  induction cs with
  | nil => rfl
  | cons c r ih =>
    have hc := h c (by simp)
    have hr := ih fun d hd => h d (by simp [hd])
    rw [encode] at hr
    simp [encode, encodeChar, hc, hr]

/-- The value of a hexadecimal digit. -/
def hexDigit? (c : Char) : Option Nat :=
  if c.isDigit then some (c.toNat - 48)
  else if 'a' ≤ c && c ≤ 'f' then some (c.toNat - 87)
  else if 'A' ≤ c && c ≤ 'F' then some (c.toNat - 55)
  else none

/-- The bytes of a text, its escapes read. -/
def decodeBytes : List Char → List UInt8
  | [] => []
  | '%' :: a :: b :: r =>
    match hexDigit? a, hexDigit? b with
    | some x, some y => UInt8.ofNat (x * 16 + y) :: decodeBytes r
    | _, _ => 0x25 :: decodeBytes (a :: b :: r)
  | c :: r => (String.singleton c).toUTF8.toList ++ decodeBytes r
  termination_by cs => cs.length

/-- A text with its escapes read, if the bytes are a text. -/
def decode? (cs : List Char) : Option (List Char) :=
  (String.fromUTF8? ⟨(decodeBytes cs).toArray⟩).map String.toList

/-- A text with its escapes read; bytes that write no character are replaced. -/
def unescape (cs : List Char) : List Char :=
  Text.Utf8.read (decodeBytes cs)

end Glasshouse.Url
