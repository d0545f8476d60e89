/-
Glasshouse.Text.Utf8 — bytes read as the characters that they write. Where
bytes write no character, one replacement stands for as many of them as could
have begun one. Main statement: `read_ascii`, bytes below 128 are their own
characters.
-/

namespace Glasshouse.Text.Utf8

/-- Stands where bytes write no character. -/
def replacement : Char := '\uFFFD'

/-- A character that has begun: how many bytes it still needs, between which
bounds the next of them is, and the code so far. -/
structure Begun where
  more : Nat
  low : Nat
  high : Nat
  code : Nat
  deriving Repr

/-- What a first byte begins. The bounds of the second byte keep out codes that
fewer bytes write, surrogates, and codes beyond the last character. -/
def begin? (b : Nat) : Option Begun :=
  if b < 0x80 then some ⟨0, 0x80, 0xBF, b⟩
  else if b < 0xC2 then none
  else if b < 0xE0 then some ⟨1, 0x80, 0xBF, b - 0xC0⟩
  else if b < 0xF0 then
    some ⟨2, if b == 0xE0 then 0xA0 else 0x80, if b == 0xED then 0x9F else 0xBF, b - 0xE0⟩
  else if b < 0xF5 then
    some ⟨3, if b == 0xF0 then 0x90 else 0x80, if b == 0xF4 then 0x8F else 0xBF, b - 0xF0⟩
  else none

/-- The character that has begun, and the bytes behind it. The first byte that
does not belong to it is left for the next one. -/
def finish : Nat → Begun → List UInt8 → Char × List UInt8
  | 0, s, bs => (Char.ofNat s.code, bs)
  | _ + 1, _, [] => (replacement, [])
  | n + 1, s, b :: r =>
    if s.low ≤ b.toNat && b.toNat ≤ s.high then
      finish n ⟨n, 0x80, 0xBF, s.code * 64 + (b.toNat - 0x80)⟩ r
    else (replacement, b :: r)

theorem finish_length_le (n : Nat) (s : Begun) (bs : List UInt8) :
    (finish n s bs).2.length ≤ bs.length := by
  fun_induction finish n s bs with
  | case1 => exact Nat.le_refl _
  | case2 => exact Nat.le_refl _
  | case3 n s b r h ih => exact Nat.le_succ_of_le ih
  | case4 => exact Nat.le_refl _

/-- The characters that bytes write. -/
def read : List UInt8 → List Char
  | [] => []
  | b :: r =>
    match begin? b.toNat with
    | none => replacement :: read r
    | some s =>
      have := finish_length_le s.more s r
      (finish s.more s r).1 :: read (finish s.more s r).2
  termination_by bs => bs.length

/-- Bytes below 128 are their own characters. -/
theorem read_ascii {bs : List UInt8} (h : ∀ b ∈ bs, b.toNat < 0x80) :
    read bs = bs.map fun b => Char.ofNat b.toNat := by
  induction bs with
  | nil => rw [read]; rfl
  | cons b r ih =>
    have hb : begin? b.toNat = some ⟨0, 0x80, 0xBF, b.toNat⟩ :=
      if_pos (h b List.mem_cons_self)
    rw [read]
    simp [hb, finish, ih fun c hc => h c (List.mem_cons_of_mem b hc)]

end Glasshouse.Text.Utf8
