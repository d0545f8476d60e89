/-
Glasshouse.Proofs.Url.Numerals — the numerals in an address. The digits of a number
in a base up to sixteen have that number as their value, whichever of the
readers of an address takes them. Main statements: `baseValue_toDigits`,
`digitsValue_toDigits`.
-/
import Glasshouse.Url.Host
import Mathlib.Algebra.Group.Nat.Defs
import Mathlib.Data.Nat.Init

namespace Glasshouse.Url

theorem hexDigit_digitChar {d : Nat} (h : d < 16) : hexDigit? d.digitChar = some d := by
  have all : ∀ d < 16, hexDigit? d.digitChar = some d := by decide +kernel
  exact all d h

/-- The digits of a number are digits of its base. -/
theorem digit_of_mem_toDigits {b n : Nat} (hb : 1 < b) {c : Char} (h : c ∈ Nat.toDigits b n) :
    ∃ d < b, c = d.digitChar := by
  induction n using Nat.strong_induction_on with
  | _ n ih =>
    rw [Nat.toDigits_eq_if hb] at h
    split at h
    · rename_i hlt
      exact ⟨n, hlt, List.mem_singleton.1 h⟩
    · rename_i hle
      rcases List.mem_append.1 h with h | h
      · exact ih (n / b) (Nat.div_lt_self (by omega) hb) h
      · exact ⟨n % b, Nat.mod_lt n (by omega), List.mem_singleton.1 h⟩

/-- The digits of a number in a base are read as that number. -/
theorem baseValue_toDigits {b : Nat} (hb : 1 < b) (hle : b ≤ 16) (n : Nat) :
    baseValue b (Nat.toDigits b n) = n := by
  induction n using Nat.strong_induction_on with
  | _ n ih =>
    rw [Nat.toDigits_eq_if hb]
    split
    · rename_i hlt
      show 0 * b + (hexDigit? n.digitChar).getD 0 = n
      rw [hexDigit_digitChar (by omega)]
      exact (congrArg (· + n) (Nat.zero_mul b)).trans (Nat.zero_add n)
    · rename_i hlt
      have hquotient := ih (n / b) (Nat.div_lt_self (by omega) hb)
      have hmod : n % b < b := Nat.mod_lt n (by omega)
      unfold baseValue at hquotient ⊢
      rw [List.foldl_append, hquotient]
      show n / b * b + (hexDigit? (n % b).digitChar).getD 0 = n
      rw [hexDigit_digitChar (by omega)]
      exact Nat.div_add_mod' n b

theorem digitsValue_toDigits (n : Nat) : Number.digitsValue (Nat.toDigits 10 n) = n :=
  (Nat.ofDigitChars_eq_foldl (b := 10)).symm.trans Nat.ofDigitChars_ten_toDigits

/-- Only zero is written with a leading zero. -/
theorem toDigits_of_head_zero {b n : Nat} (hb : 1 < b) (h : (Nat.toDigits b n).head? = some '0') :
    n = 0 := by
  induction n using Nat.strong_induction_on with
  | _ n ih =>
    rw [Nat.toDigits_eq_if hb] at h
    split at h
    · exact Nat.digitChar_eq_zero.1 (Option.some.inj h)
    · rename_i hle
      obtain ⟨c, cs, hcs⟩ := List.exists_cons_of_ne_nil (Nat.toDigits_ne_nil (n := n / b) (b := b))
      rw [hcs, List.cons_append, List.head?_cons] at h
      rw [← List.head?_cons (a := c) (l := cs), ← hcs] at h
      have hzero := ih (n / b) (Nat.div_lt_self (by omega) hb) h
      rw [Nat.div_eq_zero_iff] at hzero
      omega

end Glasshouse.Url
