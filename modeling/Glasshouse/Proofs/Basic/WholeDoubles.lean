/-
Glasshouse.Proofs.Basic.WholeDoubles — the parts that are read out of the bits of a double
are the ones that comparisons go by, so that comparing two whole doubles is
comparing the integers that they stand for. Main statement: `wholeOf_mono`.
-/
import Glasshouse.Number.Double
import Mathlib.Algebra.Group.Nat.Defs

namespace Glasshouse.Number

open Float.Model UnpackedFloat

namespace Double

/-! ## Parts -/

/-- The value that unpacked parts stand for. -/
def ofUnpacked : UnpackedFloat → Double
  | .notANumber => nan
  | .infinity s => infinite (s == .negative)
  | .zero s => finite (s == .negative) 0 (-1074)
  | .finite s m e _ => finite (s == .negative) m e

theorem toNat_unpackMantissa (b : BitVec Format.binary64.numBits) :
    (unpackMantissa b).toNat = b.toNat % 2 ^ 52 := by
  simp [unpackMantissa]

theorem toNat_unpackExponent (b : BitVec Format.binary64.numBits) :
    (unpackExponent b).toNat = b.toNat / 2 ^ 52 % 2048 := by
  simp [unpackExponent, Nat.shiftRight_eq_div_pow]

theorem ofBitVec_unpackSign (b : BitVec Format.binary64.numBits) :
    (Sign.ofBitVec (unpackSign b) == .negative) = (b.toNat / 2 ^ 63 == 1) := by
  have hb : b.toNat < 2 ^ 64 := b.isLt
  have hs : (unpackSign b).toNat = b.toNat / 2 ^ 63 % 2 := by
    show (b.extractLsb' 63 1).toNat = _
    simp [Nat.shiftRight_eq_div_pow]
  have hlt : b.toNat / 2 ^ 63 < 2 := by omega
  unfold Sign.ofBitVec
  simp only [← BitVec.toNat_inj, hs, Nat.mod_eq_of_lt hlt]
  by_cases h : b.toNat / 2 ^ 63 = 0
  · rw [h]
    rfl
  · have h1 : b.toNat / 2 ^ 63 = 1 := by omega
    rw [h1]
    rfl

/-- The leading one of a mantissa is worth `2 ^ 52`. -/
theorem toNat_one_append (f : BitVec 52) : (1#1 ++ f).toNat = f.toNat + 2 ^ 52 := by
  have hf : f.toNat < 2 ^ 52 := f.isLt
  rw [BitVec.toNat_append, Nat.shiftLeft_eq, Nat.mul_comm, ← Nat.two_pow_add_eq_or_of_lt hf,
    Nat.add_comm]
  rfl

/-- The five ways in which the bits of a double are taken apart. -/
theorem unpack_cases (b : BitVec Format.binary64.numBits) :
    (unpackExponent b = -1#11 ∧ unpackMantissa b = 0#52
        ∧ UnpackedFloat.unpack _ b = .infinity (Sign.ofBitVec (unpackSign b)))
      ∨ (unpackExponent b = -1#11 ∧ unpackMantissa b ≠ 0#52
        ∧ UnpackedFloat.unpack _ b = .notANumber)
      ∨ (unpackExponent b = 0#11 ∧ unpackMantissa b = 0#52
        ∧ UnpackedFloat.unpack _ b = .zero (Sign.ofBitVec (unpackSign b)))
      ∨ (unpackExponent b = 0#11 ∧ ∃ h, UnpackedFloat.unpack _ b
        = .finite (Sign.ofBitVec (unpackSign b)) (unpackMantissa b).toNat (-1074) h)
      ∨ (unpackExponent b ≠ -1#11 ∧ unpackExponent b ≠ 0#11 ∧ ∃ h, UnpackedFloat.unpack _ b
        = .finite (Sign.ofBitVec (unpackSign b)) (1#1 ++ unpackMantissa b).toNat
          ((unpackExponent b).toNat - 1075) h) := by
  unfold UnpackedFloat.unpack
  dsimp only
  by_cases hfull : unpackExponent b = -1#11
  · rw [if_pos hfull]
    by_cases hz : unpackMantissa b = 0#52
    · exact .inl ⟨hfull, hz, if_pos hz⟩
    · exact .inr (.inl ⟨hfull, hz, if_neg hz⟩)
  rw [if_neg hfull]
  by_cases hlow : unpackExponent b = 0#11
  · rw [if_pos hlow]
    by_cases hz : unpackMantissa b = 0#52
    · exact .inr (.inr (.inl ⟨hlow, hz, dif_pos hz⟩))
    · have hpos : 0 < (unpackMantissa b).toNat :=
        Nat.pos_of_ne_zero fun h => hz (BitVec.eq_of_toNat_eq h)
      rw [dif_neg hz, hlow]
      exact .inr (.inr (.inr (.inl ⟨rfl, hpos, rfl⟩)))
  · have hpos : 0 < (1#1 ++ unpackMantissa b).toNat := by
      rw [toNat_one_append]
      omega
    rw [if_neg hlow]
    exact .inr (.inr (.inr (.inr ⟨hfull, hlow, hpos, rfl⟩)))

/-- What the bits of a double say, in the parts that the arithmetic of doubles takes
them apart into. -/
theorem ofFloat_of_bits {x : Float} {b : BitVec Format.binary64.numBits}
    (hbits : x.toBits.toNat = b.toNat) :
    ofFloat x = if unpackExponent b = -1#11 then
        if unpackMantissa b = 0#52 then
          .infinite (Sign.ofBitVec (unpackSign b) == .negative) else .nan
      else if unpackExponent b = 0#11 then
        .finite (Sign.ofBitVec (unpackSign b) == .negative) (unpackMantissa b).toNat (-1074)
      else .finite (Sign.ofBitVec (unpackSign b) == .negative) (1#1 ++ unpackMantissa b).toNat
        ((unpackExponent b).toNat - 1075) := by
  have hpower := toNat_unpackExponent b
  have hfraction := toNat_unpackMantissa b
  have hone := toNat_one_append (unpackMantissa b)
  unfold ofFloat
  rw [hbits, ofBitVec_unpackSign, hone]
  simp only [show Nat.pow 2 52 = 2 ^ 52 from rfl, show Nat.pow 2 63 = 2 ^ 63 from rfl, ← hpower,
    ← hfraction, ← BitVec.toNat_inj, beq_iff_eq, show (-1#11).toNat = 2047 from rfl,
    show (0#11).toNat = 0 from rfl, show (0#52).toNat = 0 from rfl]

/-- The bits of a double are taken apart as the arithmetic of doubles does it. -/
theorem ofFloat_eq (x : Float) : ofFloat x = ofUnpacked x.toModel.unpack := by
  rw [ofFloat_of_bits (b := x.toModel.toBits.toBitVec) rfl, Float.Model.unpack]
  rcases unpack_cases x.toModel.toBits.toBitVec with ⟨he, hm, hu⟩ | ⟨he, hm, hu⟩ | ⟨he, hm, hu⟩ |
    ⟨he, _, hu⟩ | ⟨hfull, hlow, _, hu⟩
  · rw [hu, if_pos he, if_pos hm]
    rfl
  · rw [hu, if_pos he, if_neg hm]
    rfl
  · rw [hu, he, hm]
    rfl
  · rw [hu, he]
    rfl
  · rw [hu, if_neg hfull, if_neg hlow]
    rfl

/-- A mantissa and an exponent as the format of doubles has them: all bits of the
mantissa are in use, unless the exponent is the smallest. -/
structure Fits (m : Nat) (e : Int) : Prop where
  upper : m < 2 ^ 53
  lower : -1074 ≤ e
  full : e = -1074 ∨ 2 ^ 52 ≤ m

theorem fits_of_unpack {x : Float} {s : UnpackedFloat.Sign} {m : Nat} {e : Int} {h : 0 < m}
    (hx : x.toModel.unpack = .finite s m e h) : Fits m e := by
  generalize hb : x.toModel.toBits.toBitVec = b
  rw [Float.Model.unpack, hb] at hx
  have hf : (@unpackMantissa Format.binary64 b).toNat < 2 ^ 52 := BitVec.isLt _
  have hone := toNat_one_append (@unpackMantissa Format.binary64 b)
  rcases unpack_cases b with ⟨_, _, hu⟩ | ⟨_, _, hu⟩ | ⟨_, _, hu⟩ | ⟨_, _, hu⟩ | ⟨_, hlow, _, hu⟩ <;>
    cases hu.symm.trans hx
  · exact ⟨by omega, by omega, .inl rfl⟩
  · have hpos : 0 < (@unpackExponent Format.binary64 b).toNat := by
      rwa [BitVec.toNat_pos, BitVec.pos_iff_ne_zero]
    exact ⟨by omega, by omega, .inr (by omega)⟩

/-- The whole part of `m · 2^e`. -/
def floor (m : Nat) (e : Int) : Nat :=
  (scaled m e).1 / (scaled m e).2

@[simp] theorem floor_zero (e : Int) : floor 0 e = 0 := by
  unfold floor scaled
  split <;> simp

theorem floor_of_nonneg {m : Nat} {e : Int} (h : 0 ≤ e) : floor m e = m * 2 ^ e.natAbs := by
  unfold floor scaled
  rw [if_neg (by omega)]
  exact Nat.div_one _

theorem floor_of_neg {m : Nat} {e : Int} (h : e < 0) : floor m e = m / 2 ^ e.natAbs := by
  unfold floor scaled
  rw [if_pos h]
  rfl

theorem floor_le_floor {m₁ m₂ : Nat} (e : Int) (h : m₁ ≤ m₂) : floor m₁ e ≤ floor m₂ e := by
  by_cases he : e < 0
  · rw [floor_of_neg he, floor_of_neg he]
    exact Nat.div_le_div_right h
  · rw [floor_of_nonneg (by omega), floor_of_nonneg (by omega)]
    exact Nat.mul_le_mul_right _ h

/-- A greater exponent decides between mantissas that differ by at most a factor of two. -/
theorem floor_le_of_lt {m₁ m₂ : Nat} {e₁ e₂ : Int} (hm : m₁ ≤ 2 * m₂) (he : e₁ < e₂) :
    floor m₁ e₁ ≤ floor m₂ e₂ := by
  by_cases h₁ : e₁ < 0
  · by_cases h₂ : e₂ < 0
    · obtain ⟨k, hk⟩ : ∃ k, e₁.natAbs = e₂.natAbs + (k + 1) :=
        ⟨e₁.natAbs - e₂.natAbs - 1, by omega⟩
      rw [floor_of_neg h₁, floor_of_neg h₂, hk, Nat.pow_add, Nat.mul_comm,
        ← Nat.div_div_eq_div_mul]
      refine Nat.div_le_div_right (Nat.div_le_of_le_mul ?_)
      calc m₁ ≤ 2 * m₂ := hm
        _ ≤ 2 ^ (k + 1) * m₂ := Nat.mul_le_mul_right _ (by
          rw [Nat.pow_succ]
          exact Nat.le_mul_of_pos_left _ (Nat.two_pow_pos k))
    · obtain ⟨k, hk⟩ : ∃ k, e₁.natAbs = k + 1 := ⟨e₁.natAbs - 1, by omega⟩
      rw [floor_of_neg h₁, floor_of_nonneg (by omega), hk]
      refine Nat.div_le_of_le_mul ?_
      calc m₁ ≤ 2 * m₂ := hm
        _ ≤ 2 ^ (k + 1) * m₂ := Nat.mul_le_mul_right _ (by
          rw [Nat.pow_succ]
          exact Nat.le_mul_of_pos_left _ (Nat.two_pow_pos k))
        _ ≤ 2 ^ (k + 1) * (m₂ * 2 ^ e₂.natAbs) := Nat.mul_le_mul_left _
          (Nat.le_mul_of_pos_right _ (Nat.two_pow_pos _))
  · obtain ⟨k, hk⟩ : ∃ k, e₂.natAbs = e₁.natAbs + (k + 1) :=
      ⟨e₂.natAbs - e₁.natAbs - 1, by omega⟩
    rw [floor_of_nonneg (by omega), floor_of_nonneg (by omega), hk, Nat.pow_add,
      Nat.mul_comm (2 ^ _), ← Nat.mul_assoc]
    refine Nat.mul_le_mul_right _ ?_
    calc m₁ ≤ 2 * m₂ := hm
      _ = m₂ * 2 := Nat.mul_comm ..
      _ ≤ m₂ * 2 ^ (k + 1) := Nat.mul_le_mul_left _ (by
        rw [Nat.pow_succ]
        exact Nat.le_mul_of_pos_left _ (Nat.two_pow_pos k))

/-- Exponents decide, and mantissas between equal exponents. -/
theorem floor_mono {m₁ m₂ : Nat} {e₁ e₂ : Int} (h₁ : Fits m₁ e₁) (h₂ : Fits m₂ e₂)
    (h : e₁ < e₂ ∨ e₁ = e₂ ∧ m₁ ≤ m₂) : floor m₁ e₁ ≤ floor m₂ e₂ := by
  rcases h with he | ⟨rfl, hm⟩
  · have hfull : 2 ^ 52 ≤ m₂ := h₂.full.resolve_left (by have := h₁.lower; omega)
    have hupper := h₁.upper
    exact floor_le_of_lt (by omega) he
  · exact floor_le_floor _ hm

/-- The integer that unpacked parts come to, without a fraction. -/
def truncated : UnpackedFloat → Option Int
  | .zero _ => some 0
  | .finite s m e _ => some (s.apply (floor m e))
  | _ => none

theorem isLE_then_compare {e₁ e₂ : Int} {m₁ m₂ : Nat} :
    ((compare e₁ e₂).then (compare m₁ m₂)).isLE = true ↔ e₁ < e₂ ∨ e₁ = e₂ ∧ m₁ ≤ m₂ := by
  rw [Ordering.isLE_then_iff_or, Int.compare_eq_lt, Int.compare_eq_eq, Nat.isLE_compare]

/-- Unpacked parts are in the order of the integers that they come to. -/
theorem truncated_mono {u v : UnpackedFloat} {m n : Int} (h : u.le v = true)
    (hu : ∀ s k e hk, u = .finite s k e hk → Fits k e)
    (hv : ∀ s k e hk, v = .finite s k e hk → Fits k e)
    (hm : truncated u = some m) (hn : truncated v = some n) : m ≤ n := by
  cases u with
  | notANumber => cases hm
  | infinity => cases hm
  | zero a =>
    cases hm
    cases v with
    | notANumber => cases hn
    | infinity => cases hn
    | zero b =>
      cases hn
      exact Int.le_refl 0
    | finite b l f hl =>
      cases hn
      cases b with
      | negative => cases h
      | positive => exact Int.natCast_nonneg _
  | finite a k e hk =>
    cases hm
    cases v with
    | notANumber => cases hn
    | infinity => cases hn
    | zero b =>
      cases hn
      cases a with
      | negative => exact Int.neg_nonpos_of_nonneg (Int.natCast_nonneg _)
      | positive => cases h
    | finite b l f hl =>
      cases hn
      have hkf := hu a k e hk rfl
      have hlf := hv b l f hl rfl
      cases a with
      | negative =>
        cases b with
        | negative =>
          have hlk : f < e ∨ f = e ∧ l ≤ k := by
            have hswap : ((compare e f).then (compare k l)).swap.isLE = true := h
            rw [Ordering.swap_then, Int.compare_swap, Nat.compare_swap] at hswap
            exact isLE_then_compare.1 hswap
          exact Int.neg_le_neg (Int.ofNat_le.2 (floor_mono hlf hkf hlk))
        | positive =>
          exact Int.le_trans (Int.neg_nonpos_of_nonneg (Int.natCast_nonneg _))
            (Int.natCast_nonneg _)
      | positive =>
        cases b with
        | negative => cases h
        | positive =>
          exact Int.ofNat_le.2 (floor_mono hkf hlf (isLE_then_compare.1 h))

end Double

/-- The integer that a whole double stands for is its floor with its sign. -/
theorem wholeOf_eq_some {x : Float} {n : Int} (h : wholeOf x = some n) :
    ∃ negative m e, Double.ofFloat x = .finite negative m e
      ∧ n = if negative then -(Double.floor m e : Int) else Double.floor m e := by
  unfold wholeOf at h
  split at h
  · rename_i negative m e hx
    dsimp only at h
    split at h
    · cases h
      exact ⟨negative, m, e, hx, rfl⟩
    · cases h
  · cases h

/-- A whole double is what it comes to without a fraction. -/
theorem truncated_of_wholeOf {x : Float} {n : Int} (h : wholeOf x = some n) :
    Double.truncated x.toModel.unpack = some n := by
  obtain ⟨negative, m, e, hx, rfl⟩ := wholeOf_eq_some h
  rw [Double.ofFloat_eq] at hx
  cases hu : x.toModel.unpack with
  | notANumber => rw [hu] at hx; cases hx
  | infinity => rw [hu] at hx; cases hx
  | zero s =>
    rw [hu] at hx
    cases hx
    rw [Double.floor_zero]
    cases s <;> rfl
  | finite s m e hm =>
    rw [hu] at hx
    cases hx
    cases s <;> rfl

/-- Whole doubles are in the order of the integers that they stand for. -/
theorem wholeOf_mono {x y : Float} {m n : Int} (h : x ≤ y) (hx : wholeOf x = some m)
    (hy : wholeOf y = some n) : m ≤ n :=
  Double.truncated_mono (of_decide_eq_true h) (fun _ _ _ _ => Double.fits_of_unpack)
    (fun _ _ _ _ => Double.fits_of_unpack) (truncated_of_wholeOf hx) (truncated_of_wholeOf hy)

end Glasshouse.Number
