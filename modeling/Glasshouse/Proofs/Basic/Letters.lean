/-
Glasshouse.Proofs.Basic.Letters — texts that differ in the case of ASCII letters or in
the blanks around them. Upper case, lower case and the removal of blanks do
not see such differences: an ASCII letter has the same images as its other
form, and the two are cased, not looked through and not blank alike. Main
statements: `Text.Recased.upper_eq`, `Text.Recased.lower_trim_eq`,
`Text.Respaced.trim_eq`.
-/
import Glasshouse.Proofs.Url.Hosts
import Glasshouse.Proofs.Doc.Reading
import Glasshouse.Text.Blank
import Mathlib.Data.List.TakeWhile

namespace Glasshouse.Text

open Url (toLower_of_not_capital)

/-- Two texts that differ in the case of ASCII letters only. -/
def Recased (s t : String) : Prop :=
  s.toList.map Char.toLower = t.toList.map Char.toLower

/-- Two texts that differ in the blanks around them only. -/
def Respaced (s t : String) : Prop :=
  ∃ core a b a' b' : List Char, (∀ c ∈ a ++ b ++ a' ++ b', isBlank c = true)
    ∧ s.toList = a ++ core ++ b ∧ t.toList = a' ++ core ++ b'

/-! ## Characters -/

/-- What the capital letters of ASCII share with their small forms does not see the case of
any character: no other changes. -/
theorem apply_toLower {α : Type} {f : Char → α}
    (h : ∀ n < 91, 65 ≤ n → f (Char.ofNat n).toLower = f (Char.ofNat n)) (c : Char) :
    f c.toLower = f c := by
  by_cases hc : 65 ≤ c.toNat ∧ c.toNat < 91
  · have hcapital := h c.toNat hc.2 hc.1
    rwa [Char.ofNat_toNat] at hcapital
  · rw [toLower_of_not_capital (by omega)]

/-- What upper case, lower case and the removal of blanks read of a character. -/
structure Aspects where
  blank : Bool
  upper : List Char
  lower : List Char
  sigma : Bool
  ignorable : Bool
  cased : Bool
  deriving DecidableEq

def aspects (c : Char) : Aspects where
  blank := isBlank c
  upper := upperChar c
  lower := lowerChar c
  sigma := c.toNat == 0x3A3
  ignorable := caseIgnorableRanges.contains c.toNat
  cased := casedRanges.contains c.toNat

theorem aspects_toLower (c : Char) : aspects c.toLower = aspects c :=
  apply_toLower (by decide +kernel) c

theorem isBlank_toLower (c : Char) : isBlank c.toLower = isBlank c :=
  congrArg Aspects.blank (aspects_toLower c)

theorem upperChar_toLower (c : Char) : upperChar c.toLower = upperChar c :=
  congrArg Aspects.upper (aspects_toLower c)

theorem lowerChar_toLower (c : Char) : lowerChar c.toLower = lowerChar c :=
  congrArg Aspects.lower (aspects_toLower c)

theorem isSigma_toLower (c : Char) : (c.toLower.toNat == 0x3A3) = (c.toNat == 0x3A3) :=
  congrArg Aspects.sigma (aspects_toLower c)

theorem isIgnorable_toLower (c : Char) :
    caseIgnorableRanges.contains c.toLower.toNat = caseIgnorableRanges.contains c.toNat :=
  congrArg Aspects.ignorable (aspects_toLower c)

theorem isCased_toLower (c : Char) :
    casedRanges.contains c.toLower.toNat = casedRanges.contains c.toNat :=
  congrArg Aspects.cased (aspects_toLower c)

/-! ## Lists of characters -/

theorem stripBy_map_toLower (cs : List Char) :
    stripBy isBlank (cs.map Char.toLower) = (stripBy isBlank cs).map Char.toLower := by
  have hblank : isBlank ∘ Char.toLower = isBlank := funext isBlank_toLower
  simp only [stripBy, List.dropWhile_map, hblank, ← List.map_reverse]

theorem flatMap_upperChar_map_toLower (cs : List Char) :
    (cs.map Char.toLower).flatMap upperChar = cs.flatMap upperChar := by
  simp only [List.flatMap_map, upperChar_toLower]

theorem nextIsCased_map_toLower (cs : List Char) :
    nextIsCased (cs.map Char.toLower) = nextIsCased cs := by
  induction cs with
  | nil => rfl
  | cons c cs ih =>
    simp only [List.map_cons, nextIsCased, isIgnorable_toLower, isCased_toLower, ih]

theorem lowerFrom_map_toLower (before cs : List Char) :
    lowerFrom (before.map Char.toLower) (cs.map Char.toLower) = lowerFrom before cs := by
  induction cs generalizing before with
  | nil => rfl
  | cons c cs ih =>
    have hrest := ih (c :: before)
    rw [List.map_cons] at hrest
    simp only [List.map_cons, lowerFrom, isSigma_toLower, lowerChar_toLower,
      nextIsCased_map_toLower, hrest]

/-! ## Texts -/

namespace Recased

variable {s t : String}

theorem trim (h : Recased s t) : Recased (Text.trim s) (Text.trim t) := by
  unfold Recased at h ⊢
  simp only [Text.trim, String.toList_ofList, ← stripBy_map_toLower, h]

/-- Upper case does not see the case of ASCII letters. -/
theorem upper_eq (h : Recased s t) : upper s = upper t := by
  unfold upper
  rw [← flatMap_upperChar_map_toLower s.toList, h, flatMap_upperChar_map_toLower]

/-- Lower case does not see the case of ASCII letters. -/
theorem lower_eq (h : Recased s t) : lower s = lower t := by
  have hlower := lowerFrom_map_toLower []
  simp only [List.map_nil] at hlower
  unfold lower
  rw [← hlower s.toList, h, hlower]

theorem lower_trim_eq (h : Recased s t) : lower (Text.trim s) = lower (Text.trim t) :=
  h.trim.lower_eq

/-- A text without letters has no other case. -/
theorem eq_of_caseless (h : Recased s t) (ht : ∀ c ∈ t.toList, c.toNat < 65) : s = t := by
  have small : ∀ c : Char, c.toLower.toNat < 65 → c.toLower = c := by
    intro c hc
    by_contra hne
    have hcapital : 65 ≤ c.toNat ∧ c.toNat ≤ 90 := by
      by_contra hcapital
      exact hne (toLower_of_not_capital (by omega))
    have himages : ∀ n < 91, 65 ≤ n → 65 ≤ (Char.ofNat n).toLower.toNat := by decide +kernel
    have himage := himages c.toNat (by omega) hcapital.1
    rw [Char.ofNat_toNat] at himage
    omega
  have htlow : t.toList.map Char.toLower = t.toList :=
    map_eq_self_iff.2 fun c hc => toLower_of_not_capital (.inl (ht c hc))
  have hslow : s.toList.map Char.toLower = s.toList := by
    refine map_eq_self_iff.2 fun c hc => small c (ht c.toLower ?_)
    rw [← htlow, ← h]
    exact List.mem_map_of_mem hc
  exact String.toList_inj.1 (by rw [← hslow, h, htlow])

end Recased

/-- Blanks around characters are removed. -/
theorem stripBy_append {p : Char → Bool} {a b : List Char} (ha : ∀ c ∈ a, p c = true)
    (hb : ∀ c ∈ b, p c = true) (cs : List Char) : stripBy p (a ++ cs ++ b) = stripBy p cs := by
  have hright : ∀ ds : List Char, (ds ++ b).reverse.dropWhile p = ds.reverse.dropWhile p := by
    intro ds
    rw [List.reverse_append, List.dropWhile_append_of_pos]
    simpa using hb
  unfold stripBy
  rw [List.append_assoc, List.dropWhile_append_of_pos ha, List.dropWhile_append]
  split
  · rename_i hempty
    rw [List.isEmpty_iff.1 hempty, List.dropWhile_eq_nil_iff.2 hb]
  · rw [hright]

/-- The removal of blanks does not see which there were. -/
theorem Respaced.trim_eq {s t : String} (h : Respaced s t) : trim s = trim t := by
  obtain ⟨core, a, b, a', b', hblank, hs, ht⟩ := h
  simp only [List.mem_append] at hblank
  unfold trim
  rw [hs, ht, stripBy_append (by grind) (by grind), stripBy_append (by grind) (by grind)]

end Glasshouse.Text
