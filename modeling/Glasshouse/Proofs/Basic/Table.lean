/-
Glasshouse.Proofs.Basic.Table — tables into which pairs are put one after the other. What is put
last counts (`Table.get?_fill`), and putting the same pairs a second time changes nothing
(`Table.fill_fill`).
-/
import Glasshouse.Table
import Mathlib.Data.List.Nodup

namespace Glasshouse

namespace Table

variable {κ α : Type} [DecidableEq κ]

/-! ## Values put one after the other -/

/-- A value that is there already. -/
theorem put_self {t : Table κ α} {k : κ} {a : α} (h : t.get? k = some a) : t.put k a = t := by
  induction t with
  | nil => cases h
  | cons p t ih =>
    unfold get? at h
    unfold put
    split at h
    · rename_i hp
      cases h
      rw [if_pos hp]
    · rename_i hp
      rw [if_neg hp, ih h]

theorem put_put (t : Table κ α) (k : κ) (a b : α) : (t.put k a).put k b = t.put k b := by
  induction t with
  | nil => simp [put]
  | cons p t ih => by_cases hp : p.1 = k <;> simp [put, hp, ih]

/-- A key that is new comes last. -/
theorem put_of_not_mem {t : Table κ α} {k : κ} (h : k ∉ t.keys) (a : α) :
    t.put k a = t ++ [(k, a)] := by
  induction t with
  | nil => rfl
  | cons p t ih =>
    obtain ⟨hp, ht⟩ := not_or.1 fun hk => h (List.mem_cons.2 hk)
    rw [put, if_neg (Ne.symm hp), ih ht]
    rfl

/-- Values of two keys, of which the one is in the table already. -/
theorem put_comm {t : Table κ α} {k l : κ} (hk : k ∈ t.keys) (hne : k ≠ l) (a b : α) :
    (t.put k a).put l b = (t.put l b).put k a := by
  induction t with
  | nil => cases hk
  | cons p t ih =>
    by_cases hp : p.1 = k
    · simp [put, hp, hne]
    · have ht : k ∈ keys t := (List.mem_cons.1 hk).resolve_left (Ne.symm hp)
      by_cases hl : p.1 = l
      · simp [put, hl, hne.symm]
      · simp [put, hp, hl, ih ht]

/-! ## Tables filled with pairs -/

/-- Pairs put into a table one after the other. -/
def fill (t : Table κ α) (ps : List (κ × α)) : Table κ α :=
  ps.foldl (fun t p => t.put p.1 p.2) t

/-- What a table shows of a key is what was put there last. -/
theorem get?_fill (t : Table κ α) (ps : List (κ × α)) (k : κ) : (t.fill ps).get? k
    = ((ps.filter fun p => decide (p.1 = k)).getLast?.map (·.2)).or (t.get? k) := by
  induction ps generalizing t with
  | nil => rfl
  | cons p ps ih =>
    have hstep : (t.fill (p :: ps)).get? k = _ := ih (t.put p.1 p.2)
    rw [hstep, get?_put]
    by_cases hp : p.1 = k
    · rw [List.filter_cons_of_pos (by simpa using hp), if_pos hp]
      cases hrest : ps.filter (fun p => decide (p.1 = k)) with
      | nil => simp
      | cons q qs => simp [List.getLast?_cons]
    · rw [List.filter_cons_of_neg (by simpa using hp), if_neg hp]

theorem keys_put (t : Table κ α) (k : κ) (a : α) :
    (t.put k a).keys = if k ∈ t.keys then t.keys else t.keys ++ [k] := by
  induction t with
  | nil => simp [put, keys]
  | cons p t ih =>
    unfold keys at ih ⊢
    by_cases hp : p.1 = k
    · simp [put, hp]
    · have hne : k ≠ p.1 := fun h => hp h.symm
      by_cases ht : k ∈ t.map (·.1)
      · simp [put, hp, hne, ht, ih]
      · simp [put, hp, hne, ht, ih]

/-- The keys of a table that was filled: each once, those that it had and those of the pairs. -/
theorem keys_fill {t : Table κ α} (nodup : t.keys.Nodup) (ps : List (κ × α)) :
    (t.fill ps).keys.Nodup ∧ ∀ k, k ∈ (t.fill ps).keys ↔ k ∈ t.keys ∨ k ∈ ps.map (·.1) := by
  induction ps generalizing t with
  | nil => exact ⟨nodup, fun k => by simp [fill]⟩
  | cons p ps ih =>
    have hput : (t.put p.1 p.2).keys.Nodup ∧
        ∀ k, k ∈ (t.put p.1 p.2).keys ↔ k ∈ t.keys ∨ k = p.1 := by
      rw [keys_put]
      by_cases hp : p.1 ∈ t.keys
      · rw [if_pos hp]
        exact ⟨nodup, fun k => ⟨.inl, fun h => h.elim id fun hk => hk ▸ hp⟩⟩
      · rw [if_neg hp]
        exact ⟨List.nodup_append.2 ⟨nodup, List.nodup_singleton _, by
          rintro a ha b hb rfl
          exact hp (List.mem_singleton.1 hb ▸ ha)⟩, fun k => by simp⟩
    obtain ⟨hnodup, hkeys⟩ := ih hput.1
    refine ⟨hnodup, fun k => (hkeys k).trans ?_⟩
    rw [hput.2, List.map_cons, List.mem_cons, or_assoc]

/-- A value that pairs put later replace is never seen. -/
theorem fill_put {t : Table κ α} {ps : List (κ × α)} {k : κ} (hk : k ∈ t.keys)
    (later : k ∈ ps.map (·.1)) (a : α) : (t.put k a).fill ps = t.fill ps := by
  induction ps generalizing t with
  | nil => cases later
  | cons p ps ih =>
    show ((t.put k a).put p.1 p.2).fill ps = (t.put p.1 p.2).fill ps
    by_cases hp : k = p.1
    · rw [hp, put_put]
    · have hput : k ∈ (t.put p.1 p.2).keys := by
        rw [keys_put]
        split
        · exact hk
        · exact List.mem_append_left _ hk
      rw [put_comm hk hp]
      exact ih hput ((List.mem_cons.1 later).resolve_left hp)

/-- Pairs that were put before are put again without a change. -/
theorem fill_fill (t : Table κ α) (ps : List (κ × α)) : (t.fill ps).fill ps = t.fill ps := by
  induction ps generalizing t with
  | nil => rfl
  | cons p ps ih =>
    show ((((t.put p.1 p.2).fill ps).put p.1 p.2).fill ps) = (t.put p.1 p.2).fill ps
    have here : ((t.put p.1 p.2).fill ps).get? p.1
        = ((ps.filter fun q => decide (q.1 = p.1)).getLast?.map (·.2)).or (some p.2) := by
      rw [get?_fill, get?_put, if_pos rfl]
    by_cases later : p.1 ∈ ps.map (·.1)
    · have hkey : p.1 ∈ ((t.put p.1 p.2).fill ps).keys := by
        refine Decidable.of_not_not fun hno => ?_
        rw [(get?_eq_none_iff _ _).2 hno] at here
        simp at here
      rw [fill_put hkey later, ih]
    · -- no later pair has the key, so that the value of this one is there
      have none : ps.filter (fun q => decide (q.1 = p.1)) = [] := by
        refine List.filter_eq_nil_iff.2 fun q hq hkey => later ?_
        exact of_decide_eq_true hkey ▸ List.mem_map_of_mem hq
      rw [none] at here
      rw [put_self here, ih]

end Table

end Glasshouse
