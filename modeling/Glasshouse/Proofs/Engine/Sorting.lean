/-
Glasshouse.Proofs.Engine.Sorting — the two ways in which rules are sorted: in lists by
priority and number, in a tick by priority and remembered place. Both compare any
two rules and go on from one to the next, so that sorting gives what putting one
rule after the other into its place gives (`mergeSort_eq_insertionSort`), which can
be carried out on closed lists. Remembered places stand for the list that they were taken
from (`RuleOrder.before_iff`).
-/
import Glasshouse.Rule.Order
import Glasshouse.Store.Rules
import Mathlib.Data.List.Sort

namespace Glasshouse

namespace Sorting

variable {α : Type} {le : α → α → Bool}

theorem orderedInsert_append {a : α} {front back : List α} (behind : ∀ b ∈ front, (!le a b) = true)
    (before : ∀ b ∈ back, le a b = true) :
    (front ++ back).orderedInsert (fun a b => le a b = true) a = front ++ a :: back := by
  induction front with
  | nil =>
    cases back with
    | nil => rfl
    | cons b back => simp [before b (List.mem_cons_self ..)]
  | cons b front ih =>
    have hb : le a b = false := by simpa using behind b (List.mem_cons_self ..)
    simp only [List.cons_append, List.orderedInsert, hb, Bool.false_eq_true, if_false,
      ih fun c hc => behind c (List.mem_cons_of_mem _ hc)]

/-- Sorting by a total preorder, in which elements may be level, puts one element after the
other into its place. -/
theorem mergeSort_eq_insertionSort
    (trans : ∀ a b c, le a b = true → le b c = true → le a c = true)
    (total : ∀ a b, (le a b || le b a) = true) (l : List α) :
    l.mergeSort le = l.insertionSort fun a b => le a b = true := by
  induction l with
  | nil => exact List.mergeSort_nil
  | cons a l ih =>
    obtain ⟨front, back, hcons, hl, behind⟩ := List.mergeSort_cons trans total a l
    have hsorted := List.pairwise_mergeSort trans total (a :: l)
    rw [hcons, List.pairwise_append, List.pairwise_cons] at hsorted
    rw [List.insertionSort_cons, ← ih, hl, hcons, orderedInsert_append behind hsorted.2.1.1]

end Sorting

namespace RuleRow

theorem before_trans (a b c : RuleRow) (h : a.before b = true) (k : b.before c = true) :
    a.before c = true := by
  simp only [before, Bool.or_eq_true, decide_eq_true_eq, Bool.and_eq_true, beq_iff_eq] at h k ⊢
  omega

theorem before_total (a b : RuleRow) : (a.before b || b.before a) = true := by
  simp only [before, Bool.or_eq_true, decide_eq_true_eq, Bool.and_eq_true, beq_iff_eq]
  omega

end RuleRow

theorem Store.enabledRules_eq (s : Store) :
    s.enabledRules
      = (s.rules.insertionSort fun a b => a.before b = true).filter (·.enabled) := by
  rw [enabledRules, allRules,
    Sorting.mergeSort_eq_insertionSort RuleRow.before_trans RuleRow.before_total]

namespace RuleOrder

variable (o : RuleOrder) (count : Nat)

theorem before_trans (a b c : Rule)
    (h : o.before count (a.id, a.priority) (b.id, b.priority) = true)
    (k : o.before count (b.id, b.priority) (c.id, c.priority) = true) :
    o.before count (a.id, a.priority) (c.id, c.priority) = true := by
  simp only [before, Bool.or_eq_true, decide_eq_true_eq, Bool.and_eq_true, beq_iff_eq] at h k ⊢
  omega

theorem before_total (a b : Rule) :
    (o.before count (a.id, a.priority) (b.id, b.priority)
      || o.before count (b.id, b.priority) (a.id, a.priority)) = true := by
  simp only [before, Bool.or_eq_true, decide_eq_true_eq, Bool.and_eq_true, beq_iff_eq]
  omega

theorem sort_eq (rules : List Rule) :
    o.sort rules =
      let sorted := rules.insertionSort fun a b =>
        o.before rules.length (a.id, a.priority) (b.id, b.priority) = true
      (sorted, ⟨placesOf (sorted.map (·.id))⟩) := by
  have h : (rules.mergeSort fun a b =>
      o.before rules.length (a.id, a.priority) (b.id, b.priority)) = rules.insertionSort _ :=
    Sorting.mergeSort_eq_insertionSort (o.before_trans _) (o.before_total _) rules
  rw [← h]
  rfl

/-- A list is in order already exactly if no two of its rules are the wrong way round. -/
theorem sort_eq_self_iff (rules : List Rule) :
    (o.sort rules).1 = rules ↔ rules.Pairwise fun a b =>
      o.before rules.length (a.id, a.priority) (b.id, b.priority) = true := by
  show rules.mergeSort (fun a b : Rule =>
    o.before rules.length (a.id, a.priority) (b.id, b.priority)) = rules ↔ _
  constructor
  · intro h
    have hsorted : (rules.mergeSort fun a b =>
        o.before rules.length (a.id, a.priority) (b.id, b.priority)).Pairwise _ :=
      List.pairwise_mergeSort (o.before_trans _) (o.before_total _) rules
    rwa [h] at hsorted
  · exact List.mergeSort_of_pairwise

/-! ## Remembered places -/

theorem foldl_put_zipIdx (ids : List Int) (k : Nat) (t : Table Int Nat)
    (new : ∀ id ∈ ids, id ∉ t.keys) (nodup : ids.Nodup) :
    (ids.zipIdx k).foldl (fun t p => t.put p.1 p.2) t = t ++ ids.zipIdx k := by
  induction ids generalizing k t with
  | nil => simp
  | cons id ids ih =>
    obtain ⟨hid, hids⟩ := List.nodup_cons.1 nodup
    have hput : t.put id k = t ++ [(id, k)] := by
      have hnew := new id (List.mem_cons_self ..)
      clear new
      induction t with
      | nil => rfl
      | cons p t ih =>
        rw [Table.keys, List.map_cons, List.mem_cons, not_or] at hnew
        simp only [Table.put, if_neg (Ne.symm hnew.1), List.cons_append, ih hnew.2]
    have hrest : ∀ j ∈ ids, j ∉ (t ++ [(id, k)]).keys := by
      intro j hj hmem
      rw [Table.keys, List.map_append, List.mem_append] at hmem
      rcases hmem with hmem | hmem
      · exact new j (List.mem_cons_of_mem _ hj) hmem
      · have hjd : j = id := List.mem_singleton.1 hmem
        exact hid (hjd ▸ hj)
    simp only [List.zipIdx_cons, List.foldl_cons, hput, ih (k + 1) _ hrest hids, List.append_assoc,
      List.singleton_append]

theorem placesOf_eq {ids : List Int} (nodup : ids.Nodup) : placesOf ids = ids.zipIdx :=
  foldl_put_zipIdx ids 0 [] (fun _ _ => List.not_mem_nil) nodup

theorem get?_zipIdx (ids : List Int) (k : Nat) (id : Int) :
    Table.get? (ids.zipIdx k) id = if id ∈ ids then some (k + ids.idxOf id) else none := by
  induction ids generalizing k with
  | nil => simp
  | cons j ids ih =>
    rw [List.zipIdx_cons, Table.get?]
    by_cases h : j = id
    · simp [h]
    · have hne : ¬ id = j := fun hid => h hid.symm
      simp only [if_neg h, ih, List.mem_cons, hne, false_or, List.idxOf_cons_ne ids h]
      split
      · exact congrArg some (by omega)
      · rfl

/-- Of two identities the first has no later place exactly if it stands no later in the
list that is remembered; what is not in the list stands behind it. -/
theorem place_le_iff {ids : List Int} (nodup : ids.Nodup) (count : Nat) (a b : Int) :
    place ⟨placesOf ids⟩ count a ≤ place ⟨placesOf ids⟩ count b ↔ ids.idxOf a ≤ ids.idxOf b := by
  have hplace : ∀ id, place ⟨placesOf ids⟩ count id
      = if id ∈ ids then ids.idxOf id else ids.length + count := by
    intro id
    unfold place
    simp only [placesOf_eq nodup, get?_zipIdx, List.length_zipIdx, Nat.zero_add]
    split
    · rfl
    · rfl
  have hin : ∀ id ∈ ids, ids.idxOf id < ids.length := fun _ => List.idxOf_lt_length_of_mem
  have hout : ∀ id ∉ ids, ids.idxOf id = ids.length := fun _ => List.idxOf_eq_length
  rw [hplace, hplace]
  by_cases ha : a ∈ ids
  · by_cases hb : b ∈ ids
    · rw [if_pos ha, if_pos hb]
    · have hlt := hin a ha
      rw [if_pos ha, if_neg hb, hout b hb]
      omega
  · by_cases hb : b ∈ ids
    · have hlt := hin b hb
      rw [if_neg ha, if_pos hb, hout a ha]
      omega
    · rw [if_neg ha, if_neg hb, hout a ha, hout b hb]
      omega

/-- What a remembered list says about two rules of it or beside it. -/
theorem before_iff {ids : List Int} (nodup : ids.Nodup) (count : Nat) (a b : Int × Int) :
    before ⟨placesOf ids⟩ count a b = true ↔
      a.2 < b.2 ∨ a.2 = b.2 ∧ ids.idxOf a.1 ≤ ids.idxOf b.1 := by
  simp only [before, Bool.or_eq_true, decide_eq_true_eq, Bool.and_eq_true, beq_iff_eq,
    place_le_iff nodup]

end RuleOrder

end Glasshouse
