/-
Glasshouse.Proofs.Basic.Doubles — the order of doubles. Those that are numbers stand
in a linear order, which is that of a rank: by sign, then by exponent and
mantissa. Comparing them is comparing their ranks (`le_iff_rank`,
`lt_iff_rank`). What counting gives is a number (`isNaN_ofNat`). Ranks are added and
negated as integers are, and the negative and the absolute value of a number have the
negative and the absolute value of its rank (`rank_neg`, `rank_abs`).
-/
import Glasshouse.Proofs.Basic.WholeDoubles
import Mathlib.Algebra.Order.Group.Abs
import Mathlib.Algebra.Order.Group.Int
import Mathlib.Algebra.Order.Monoid.Prod
import Mathlib.Algebra.Ring.Int.Defs
import Mathlib.Data.Int.Order.Basic
import Mathlib.Data.Prod.Lex
import Mathlib.Order.Compare

namespace Glasshouse.Number

open Float.Model UnpackedFloat

namespace Double

/-! ## Ranks -/

/-- Where unpacked parts stand among all others: by sign, then by exponent and mantissa. -/
def place : UnpackedFloat → ℤ ×ₗ ℤ ×ₗ ℤ
  | .infinity .negative => toLex (-2, toLex (0, 0))
  | .finite .negative m e _ => toLex (-1, toLex (-e, -(m : ℤ)))
  | .zero _ => toLex (0, toLex (0, 0))
  | .finite .positive m e _ => toLex (1, toLex (e, (m : ℤ)))
  | .infinity .positive => toLex (2, toLex (0, 0))
  -- what is no number is not compared
  | .notANumber => toLex (0, toLex (0, 0))

theorem compare_parts (k a b c d : ℤ) :
    compare (toLex (k, toLex (a, b))) (toLex (k, toLex (c, d)))
      = (compare a c).then (compare b d) := by
  simp [Prod.Lex.compare_def, compareLex, compareOn]

theorem compare_neg (a b : ℤ) : compare (-a) (-b) = compare b a := by
  rcases lt_trichotomy a b with h | rfl | h
  · rw [compare_gt_iff_gt.2 h, compare_gt_iff_gt.2 (Int.neg_lt_neg h)]
  · rw [compare_eq_iff_eq.2 rfl, compare_eq_iff_eq.2 rfl]
  · rw [compare_lt_iff_lt.2 h, compare_lt_iff_lt.2 (Int.neg_lt_neg h)]

theorem compare_cast (m n : ℕ) : compare (m : ℤ) (n : ℤ) = compare m n := by
  simp only [compare, compareOfLessAndEq, Int.natCast_inj, Int.ofNat_lt]

/-- Numbers are compared by their places. -/
theorem compare_eq {u v : UnpackedFloat} (hu : u ≠ .notANumber) (hv : v ≠ .notANumber) :
    u.compare v = some (compare (place u) (place v)) := by
  rcases u with (_ | _) | _ | _ | ⟨_ | _, m, e, hm⟩ <;>
    rcases v with (_ | _) | _ | _ | ⟨_ | _, n, f, hn⟩ <;>
      -- the signs decide but between two finite numbers of one sign
      first
        | exact absurd rfl hu
        | exact absurd rfl hv
        | rfl
        | skip
  case finite.negative.finite.negative =>
    show some ((compare e f).then (compare m n)).swap
      = some (compare (toLex (-1, toLex (-e, -(m : ℤ)))) (toLex (-1, toLex (-f, -(n : ℤ)))))
    rw [compare_parts, compare_neg, compare_neg, compare_cast, Ordering.swap_then,
      Int.compare_swap, Nat.compare_swap]
  case finite.positive.finite.positive =>
    show some ((compare e f).then (compare m n))
      = some (compare (toLex (1, toLex (e, (m : ℤ)))) (toLex (1, toLex (f, (n : ℤ)))))
    rw [compare_parts, compare_cast]

theorem compare_notANumber (u : UnpackedFloat) :
    u.compare .notANumber = none ∧ UnpackedFloat.notANumber.compare u = none := by
  cases u <;> exact ⟨rfl, rfl⟩

theorem le_iff_place {u v : UnpackedFloat} (hu : u ≠ .notANumber) (hv : v ≠ .notANumber) :
    u.le v = true ↔ place u ≤ place v := by
  rw [UnpackedFloat.le, compare_eq hu hv]
  exact Ordering.isLE_iff_ne_gt.trans compare_le_iff_le

theorem lt_iff_place {u v : UnpackedFloat} (hu : u ≠ .notANumber) (hv : v ≠ .notANumber) :
    u.lt v = true ↔ place u < place v := by
  rw [UnpackedFloat.lt, compare_eq hu hv, beq_iff_eq, Option.some_inj]
  exact compare_lt_iff_lt

end Double

theorem isNaN_eq_false {x : Float} : x.isNaN = false ↔ x.toModel.unpack ≠ .notANumber := by
  show x.toModel.unpack.isNaN = false ↔ _
  cases x.toModel.unpack with
  | notANumber => exact iff_of_false Bool.noConfusion fun h => h rfl
  | _ => exact iff_of_true rfl UnpackedFloat.noConfusion

/-- Where a double stands among all others. -/
def rank (x : Float) : ℤ ×ₗ ℤ ×ₗ ℤ := Double.place x.toModel.unpack

/-- Numbers are in the order of their ranks. -/
theorem le_iff_rank {x y : Float} (hx : x.isNaN = false) (hy : y.isNaN = false) :
    x ≤ y ↔ rank x ≤ rank y :=
  decide_eq_true_iff.trans (Double.le_iff_place (isNaN_eq_false.1 hx) (isNaN_eq_false.1 hy))

theorem lt_iff_rank {x y : Float} (hx : x.isNaN = false) (hy : y.isNaN = false) :
    x < y ↔ rank x < rank y :=
  decide_eq_true_iff.trans (Double.lt_iff_place (isNaN_eq_false.1 hx) (isNaN_eq_false.1 hy))

/-- What is compared is a number. -/
theorem numbers_of_le {x y : Float} (h : x ≤ y) : x.isNaN = false ∧ y.isNaN = false := by
  have le : x.toModel.unpack.le y.toModel.unpack = true := of_decide_eq_true h
  rw [isNaN_eq_false, isNaN_eq_false]
  refine ⟨fun hx => ?_, fun hy => ?_⟩
  · rw [UnpackedFloat.le, hx, (Double.compare_notANumber _).2] at le
    cases le
  · rw [UnpackedFloat.le, hy, (Double.compare_notANumber _).1] at le
    cases le

theorem numbers_of_lt {x y : Float} (h : x < y) : x.isNaN = false ∧ y.isNaN = false := by
  have lt : x.toModel.unpack.lt y.toModel.unpack = true := of_decide_eq_true h
  rw [isNaN_eq_false, isNaN_eq_false]
  refine ⟨fun hx => ?_, fun hy => ?_⟩
  · rw [UnpackedFloat.lt, hx, (Double.compare_notANumber _).2] at lt
    cases lt
  · rw [UnpackedFloat.lt, hy, (Double.compare_notANumber _).1] at lt
    cases lt

/-! ## Counts -/

namespace Double

theorem toNat_packComponents (s : Sign) (e : BitVec 11) (m : BitVec 52) :
    (packComponents Format.binary64 s e m).toNat
      = (s.toBitVec.toNat * 2 ^ 11 + e.toNat) * 2 ^ 52 + m.toNat := by
  show ((s.toBitVec ++ e) ++ m).toNat = _
  rw [BitVec.toNat_append, Nat.shiftLeft_eq, Nat.mul_comm _ (2 ^ 52),
    ← Nat.two_pow_add_eq_or_of_lt m.isLt, BitVec.toNat_append, Nat.shiftLeft_eq,
    Nat.mul_comm _ (2 ^ 11), ← Nat.two_pow_add_eq_or_of_lt e.isLt, Nat.mul_comm (2 ^ 52),
    Nat.mul_comm (2 ^ 11)]

@[simp] theorem unpackExponent_packComponents (s : Sign) (e : BitVec 11) (m : BitVec 52) :
    unpackExponent (packComponents Format.binary64 s e m) = e := by
  have he : e.toNat < 2 ^ 11 := e.isLt
  have hm : m.toNat < 2 ^ 52 := m.isLt
  refine BitVec.eq_of_toNat_eq ?_
  rw [toNat_unpackExponent, toNat_packComponents]
  omega

@[simp] theorem unpackMantissa_packComponents (s : Sign) (e : BitVec 11) (m : BitVec 52) :
    unpackMantissa (packComponents Format.binary64 s e m) = m := by
  have hm : m.toNat < 2 ^ 52 := m.isLt
  refine BitVec.eq_of_toNat_eq ?_
  rw [toNat_unpackMantissa, toNat_packComponents]
  omega

/-- What is packed as a number is unpacked as one. -/
theorem unpack_pack_ne {u : UnpackedFloat} (hu : u ≠ .notANumber) :
    (Float.Model.pack u).unpack ≠ .notANumber := by
  intro h
  have full : unpackExponent (UnpackedFloat.pack Format.binary64 u) = -1#11
      ∧ unpackMantissa (UnpackedFloat.pack Format.binary64 u) ≠ 0#52 := by
    rcases unpack_cases (UnpackedFloat.pack Format.binary64 u) with ⟨_, _, k⟩ | ⟨he, hm, _⟩ |
      ⟨_, _, k⟩ | ⟨_, _, k⟩ | ⟨_, _, _, k⟩
    · cases h.symm.trans k
    · exact ⟨he, hm⟩
    · cases h.symm.trans k
    · cases h.symm.trans k
    · cases h.symm.trans k
  cases u with
  | notANumber => exact hu rfl
  | infinity s => exact full.2 (unpackMantissa_packComponents ..)
  | zero s => exact absurd ((unpackExponent_packComponents ..).symm.trans full.1) (by decide)
  | finite s m e hm =>
    unfold UnpackedFloat.pack at full
    dsimp only at full
    split at full
    · exact full.2 (unpackMantissa_packComponents ..)
    · rename_i hlow
      split at full
      · have hexp := congrArg BitVec.toNat ((unpackExponent_packComponents ..).symm.trans full.1)
        have hlt := Nat.lt_of_not_le hlow
        rw [BitVec.toNat_ofNat, Nat.mod_eq_of_lt (Nat.lt_of_succ_lt hlt),
          show (-1#11).toNat = 2047 from rfl] at hexp
        rw [hexp] at hlt
        exact absurd hlt (by decide)
      · exact absurd ((unpackExponent_packComponents ..).symm.trans full.1) (by decide)

theorem dite_ne {α : Type} {p : Prop} [Decidable p] {a : p → α} {b : ¬ p → α} {c : α}
    (ha : ∀ h, a h ≠ c) (hb : ∀ h, b h ≠ c) : dite p a b ≠ c := by
  by_cases h : p
  · rw [dif_pos h]
    exact ha h
  · rw [dif_neg h]
    exact hb h

theorem roundWithAccuracy_ne (spec : Format) (s : Sign) (m : Nat) (e : Int) (a : Accuracy) :
    roundWithAccuracy spec s m e a ≠ .notANumber :=
  dite_ne (fun _ => UnpackedFloat.noConfusion) fun _ => UnpackedFloat.noConfusion

theorem ofNat_ne (spec : Format) (n : Nat) : UnpackedFloat.ofNat spec n ≠ .notANumber := by
  unfold UnpackedFloat.ofNat UnpackedFloat.ofInt UnpackedFloat.normalize
  split
  · exact roundWithAccuracy_ne _ _ _ _ _
  · exact UnpackedFloat.noConfusion
  · exact roundWithAccuracy_ne _ _ _ _ _

/-- A number times a finite number other than zero is a number. -/
theorem mul_finite_ne {u : UnpackedFloat} (spec : Format) (hu : u ≠ .notANumber) (s : Sign)
    (m : Nat) (e : Int) (hm : 0 < m) :
    UnpackedFloat.mul spec u (.finite s m e hm) ≠ .notANumber := by
  cases u with
  | notANumber => exact absurd rfl hu
  | infinity => exact UnpackedFloat.noConfusion
  | zero => exact UnpackedFloat.noConfusion
  | finite => exact roundWithAccuracy_ne _ _ _ _ _

theorem ofScientific_ne (n : Nat) :
    UnpackedFloat.ofScientific Format.binary64 n 0 ≠ .notANumber := by
  have large : ¬ (0 : Int) > 2 ^ Format.binary64.exponentBits := by decide
  have small : ¬ (0 : Int) < -(2 ^ Format.binary64.exponentBits + (n.log2 : Int)) := by
    show ¬ (0 : Int) < -(2 ^ 11 + (n.log2 : Int))
    omega
  unfold UnpackedFloat.ofScientific
  by_cases h : n = 0
  · rw [dif_pos h]
    exact UnpackedFloat.noConfusion
  · rw [dif_neg h, if_neg large, if_neg small, if_pos (Int.le_refl 0)]
    exact mul_finite_ne _ UnpackedFloat.noConfusion _ _ _ _

end Double

/-- What counts is a number. -/
theorem isNaN_ofNat (n : Nat) : (Float.ofNat n).isNaN = false := by
  rw [isNaN_eq_false]
  show (Float.ofScientific n false 0).toModel.unpack ≠ _
  unfold Float.ofScientific
  split
  · obtain ⟨s, m, e, hm, one⟩ : ∃ s m e hm,
        Float.exactlyRepresentablePowersOfTen[0].toModel.unpack = .finite s m e hm :=
      ⟨_, _, _, _, rfl⟩
    have count : n.toUInt64.toFloat.toModel.unpack ≠ .notANumber :=
      Double.unpack_pack_ne (Double.ofNat_ne _ _)
    refine Double.unpack_pack_ne ?_
    rw [one]
    exact Double.mul_finite_ne _ count s m e hm
  · exact Double.unpack_pack_ne (Double.ofScientific_ne n)

/-! ## Signs -/

namespace Double

theorem ofBitVec_unpackSign_packComponents (s : Sign) (e : BitVec 11) (m : BitVec 52) :
    Sign.ofBitVec (unpackSign (packComponents Format.binary64 s e m)) = s := by
  have he : e.toNat < 2 ^ 11 := e.isLt
  have hm : m.toNat < 2 ^ 52 := m.isLt
  have hsign : unpackSign (packComponents Format.binary64 s e m) = s.toBitVec := by
    have hs : s.toBitVec.toNat < 2 := s.toBitVec.isLt
    refine BitVec.eq_of_toNat_eq ?_
    show (BitVec.extractLsb' 63 1 _).toNat = _
    rw [BitVec.extractLsb'_toNat, toNat_packComponents, Nat.shiftRight_eq_div_pow]
    omega
  rw [hsign]
  cases s <;> rfl

/-- Parts that are packed without loss. -/
def Packs : UnpackedFloat → Prop
  | .notANumber => False
  | .finite _ m e _ => Fits m e ∧ e ≤ 971
  | _ => True

theorem packs_unpack {x : Float} (hx : x.toModel.unpack ≠ .notANumber) :
    Packs x.toModel.unpack := by
  cases hu : x.toModel.unpack with
  | notANumber => exact hx hu
  | infinity => trivial
  | zero => trivial
  | finite s m e hm =>
    refine ⟨fits_of_unpack hu, ?_⟩
    rw [Float.Model.unpack] at hu
    rcases unpack_cases x.toModel.toBits.toBitVec with ⟨_, _, k⟩ | ⟨_, _, k⟩ | ⟨_, _, k⟩ |
      ⟨_, _, k⟩ | ⟨hfull, _, _, k⟩ <;> cases k.symm.trans hu
    · decide
    · have hlt := BitVec.isLt (@unpackExponent Format.binary64 x.toModel.toBits.toBitVec)
      have hne : (@unpackExponent Format.binary64 x.toModel.toBits.toBitVec).toNat ≠ 2047 :=
        fun h => hfull (BitVec.eq_of_toNat_eq h)
      have : (2 : Nat) ^ Format.binary64.exponentBits = 2048 := rfl
      omega

/-- What packed components are unpacked to, where they are those of a finite number. -/
theorem unpack_packComponents (s : Sign) {E : BitVec 11} {M : BitVec 52} {m : ℕ} {e : ℤ}
    (hm : 0 < m) (full : E ≠ -1#11)
    (parts : E = 0#11 ∧ m = M.toNat ∧ e = -1074
      ∨ E ≠ 0#11 ∧ m = M.toNat + 2 ^ 52 ∧ e = E.toNat - 1075) :
    UnpackedFloat.unpack _ (packComponents Format.binary64 s E M) = .finite s m e hm := by
  have hexp := unpackExponent_packComponents s E M
  have hman := unpackMantissa_packComponents s E M
  have hsign := ofBitVec_unpackSign_packComponents s E M
  rcases unpack_cases (packComponents Format.binary64 s E M) with ⟨he, _⟩ | ⟨he, _⟩ |
    ⟨he, hz, _⟩ | ⟨he, _, k⟩ | ⟨_, he, _, k⟩
  · exact absurd (hexp.symm.trans he) full
  · exact absurd (hexp.symm.trans he) full
  · rcases parts with ⟨_, rfl, _⟩ | ⟨hlow, _⟩
    · rw [hman.symm.trans hz] at hm
      exact absurd hm (by decide)
    · exact absurd (hexp.symm.trans he) hlow
  · obtain ⟨_, rfl, rfl⟩ := parts.resolve_right fun h => h.1 (hexp.symm.trans he)
    rw [k, UnpackedFloat.finite.injEq]
    exact ⟨hsign, congrArg BitVec.toNat hman, rfl⟩
  · obtain ⟨_, rfl, rfl⟩ := parts.resolve_left fun h => he (hexp.trans h.1)
    rw [k, UnpackedFloat.finite.injEq, toNat_one_append, hman, hexp]
    exact ⟨hsign, rfl, rfl⟩

/-- What a finite number that is not too large is packed to. -/
theorem pack_finite (s : Sign) {m : ℕ} {e : ℤ} (hm : 0 < m) (high : e ≤ 971) :
    UnpackedFloat.pack Format.binary64 (.finite s m e hm)
      = if m.log2 + 1 = Format.binary64.mantissaBits
        then packComponents Format.binary64 s (.ofNat 11 (e + 1075).toNat) (.ofNat 52 m)
        else packComponents Format.binary64 s 0#11 (.ofNat 52 m) := by
  have hexp : (e + (Format.binary64.exponentBias : ℕ)
      + (Format.binary64.mantissaBitsWithoutImplicit : ℕ)).toNat = (e + 1075).toNat := by
    show (e + 1023 + 52).toNat = _
    omega
  unfold UnpackedFloat.pack
  dsimp only
  rw [hexp, if_neg (show ¬ 2 ^ 11 ≤ (e + 1075).toNat + 1 by omega)]

/-- What is packed without loss is unpacked again. -/
theorem unpack_pack {u : UnpackedFloat} (h : Packs u) : (Float.Model.pack u).unpack = u := by
  show UnpackedFloat.unpack _ (UnpackedFloat.pack Format.binary64 u) = u
  cases u with
  | notANumber => exact h.elim
  | infinity s => cases s <;> rfl
  | zero s => cases s <;> rfl
  | finite s m e hm =>
    obtain ⟨⟨upper, lower, full⟩, high⟩ := h
    rw [pack_finite s hm high]
    by_cases hlog : m.log2 + 1 = Format.binary64.mantissaBits
    · have hbits : 2 ^ 52 ≤ m := (Nat.le_log2 hm.ne').1 (Nat.le_of_eq (Nat.succ.inj hlog).symm)
      have hE : (BitVec.ofNat 11 (e + 1075).toNat).toNat = (e + 1075).toNat :=
        Nat.mod_eq_of_lt (by omega)
      have hM : (BitVec.ofNat 52 m).toNat = m - 2 ^ 52 := by
        rw [BitVec.toNat_ofNat]
        omega
      have apart {b : BitVec 11} (hb : b.toNat ≠ (e + 1075).toNat) :
          BitVec.ofNat 11 (e + 1075).toNat ≠ b := fun h => hb (by rw [← h, hE])
      rw [if_pos hlog]
      refine unpack_packComponents s hm (apart (show 2047 ≠ _ by omega))
        (.inr ⟨apart (show 0 ≠ _ by omega), ?_, ?_⟩)
      · rw [hM]
        omega
      · rw [hE]
        omega
    · have hbits : m < 2 ^ 52 := by
        by_contra hge
        have hle := (Nat.le_log2 hm.ne').2 (Nat.le_of_not_lt hge)
        have hlt := (Nat.log2_lt hm.ne').2 upper
        exact hlog (show m.log2 + 1 = 53 by omega)
      have hM : (BitVec.ofNat 52 m).toNat = m := Nat.mod_eq_of_lt hbits
      rw [if_neg hlog]
      exact unpack_packComponents s hm (by decide) (.inl ⟨rfl, hM.symm, by omega⟩)

theorem place_neg (u : UnpackedFloat) : place u.neg = -place u := by
  rcases u with (_ | _) | _ | _ | ⟨_ | _, m, e, hm⟩
  case finite.negative =>
    show toLex (1, toLex (e, (m : ℤ))) = toLex (- -1, toLex (- -e, - -(m : ℤ)))
    rw [neg_neg, neg_neg, neg_neg]
  all_goals rfl

/-- A number without its sign is the number or its negative, whichever is not below zero. -/
theorem abs_cases (u : UnpackedFloat) :
    place u.abs = place u ∧ 0 ≤ place u ∨ place u.abs = place u.neg ∧ place u ≤ 0 := by
  have above {k : ℤ} (hk : 0 < k) (p : ℤ ×ₗ ℤ) : (0 : ℤ ×ₗ ℤ ×ₗ ℤ) ≤ toLex (k, p) :=
    Prod.Lex.toLex_le_toLex.2 (.inl hk)
  have below {k : ℤ} (hk : k < 0) (p : ℤ ×ₗ ℤ) : toLex (k, p) ≤ (0 : ℤ ×ₗ ℤ ×ₗ ℤ) :=
    Prod.Lex.toLex_le_toLex.2 (.inl hk)
  rcases u with (_ | _) | _ | _ | ⟨_ | _, m, e, hm⟩
  case infinity.negative => exact .inr ⟨rfl, below (by decide) _⟩
  case infinity.positive => exact .inl ⟨rfl, above (by decide) _⟩
  case finite.negative => exact .inr ⟨rfl, below (by decide) _⟩
  case finite.positive => exact .inl ⟨rfl, above (by decide) _⟩
  all_goals exact .inl ⟨rfl, le_refl _⟩

theorem place_abs (u : UnpackedFloat) : place u.abs = |place u| := by
  rcases abs_cases u with ⟨h, nonneg⟩ | ⟨h, nonpos⟩
  · rw [h, abs_of_nonneg nonneg]
  · rw [h, place_neg, abs_of_nonpos nonpos]

theorem Packs.neg {u : UnpackedFloat} (h : Packs u) : Packs u.neg := by
  cases u <;> exact h

theorem Packs.abs {u : UnpackedFloat} (h : Packs u) : Packs u.abs := by
  cases u <;> exact h

theorem Packs.ne {u : UnpackedFloat} (h : Packs u) : u ≠ .notANumber := by
  rintro rfl
  exact h

end Double

/-- A number taken negatively is a number, and stands on the other side of zero. -/
theorem rank_neg {x : Float} (hx : x.isNaN = false) :
    (-x).isNaN = false ∧ rank (-x) = -rank x := by
  have packs := (Double.packs_unpack (isNaN_eq_false.1 hx)).neg
  have unpacked : (-x).toModel.unpack = x.toModel.unpack.neg := Double.unpack_pack packs
  rw [isNaN_eq_false, rank, unpacked]
  exact ⟨packs.ne, Double.place_neg _⟩

/-- A number without its sign is a number, and stands as far from zero. -/
theorem rank_abs {x : Float} (hx : x.isNaN = false) :
    x.abs.isNaN = false ∧ rank x.abs = |rank x| := by
  have packs := (Double.packs_unpack (isNaN_eq_false.1 hx)).abs
  have unpacked : x.abs.toModel.unpack = x.toModel.unpack.abs := Double.unpack_pack packs
  rw [isNaN_eq_false, rank, unpacked]
  exact ⟨packs.ne, Double.place_abs _⟩

/-- Only a number has an absolute value. -/
theorem isNaN_of_abs {x : Float} (h : x.abs.isNaN = false) : x.isNaN = false := by
  rw [isNaN_eq_false] at h ⊢
  intro hx
  have unpacked : x.abs.toModel.unpack = (Float.Model.pack x.toModel.unpack.abs).unpack := rfl
  rw [unpacked, hx] at h
  exact h rfl

end Glasshouse.Number
