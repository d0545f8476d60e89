/-
Glasshouse.Proofs.Engine.RuleOrder — the order of rules when lists of them are put in order one
after the other. What is remembered of a list is exactly the order in which it came out
(`RuleOrder.remembers_sorts`), so that a sort compares rules by priority and by where they stood
the last time. Main statement: `ties_keep_order`.

Side condition of the main statement. Within each list the rules have different numbers,
as rows of one table do. Priorities may change from one list to the next.
-/
import Glasshouse.Proofs.Engine.Sorting

namespace Glasshouse

/-! ## Two elements of a list, one before the other -/

namespace Sorting

variable {α : Type}

/-- Of two elements that may stand only one way round, the one comes before the other. -/
theorem pair_sublist_of_pairwise {R : α → α → Prop} {l : List α} {a b : α} (h : l.Pairwise R)
    (ha : a ∈ l) (hb : b ∈ l) (hab : a ≠ b) (hnot : ¬ R b a) : [a, b].Sublist l := by
  induction l with
  | nil => cases ha
  | cons c l ih =>
    obtain ⟨hc, hl⟩ := List.pairwise_cons.1 h
    rcases List.mem_cons.1 ha with rfl | hal
    · have hbl := (List.mem_cons.1 hb).resolve_left (Ne.symm hab)
      exact (List.singleton_sublist.2 hbl).cons_cons a
    · rcases List.mem_cons.1 hb with rfl | hbl
      · exact absurd (hc a hal) hnot
      · exact (ih hl hal hbl).cons c

variable [BEq α] [LawfulBEq α]

theorem idxOf_lt_of_pair_sublist {l : List α} (nodup : l.Nodup) {a b : α}
    (h : [a, b].Sublist l) : l.idxOf a < l.idxOf b := by
  induction l with
  | nil => cases h
  | cons c l ih =>
    obtain ⟨hc, hl⟩ := List.nodup_cons.1 nodup
    cases h with
    | cons _ h =>
      have ha : c ≠ a := fun hca => hc (hca ▸ h.subset List.mem_cons_self)
      have hb : c ≠ b := fun hcb => hc (hcb ▸ h.subset (by simp))
      rw [List.idxOf_cons_ne l ha, List.idxOf_cons_ne l hb]
      exact Nat.succ_lt_succ (ih hl h)
    | cons_cons _ h =>
      have hb : a ≠ b := fun hab => hc (hab ▸ List.singleton_sublist.1 h)
      rw [List.idxOf_cons_self, List.idxOf_cons_ne l hb]
      exact Nat.succ_pos _

theorem pairwise_idxOf {l : List α} (nodup : l.Nodup) :
    l.Pairwise fun a b => l.idxOf a < l.idxOf b :=
  List.pairwise_iff_forall_sublist.2 (idxOf_lt_of_pair_sublist nodup)

end Sorting

/-! ## Lists of rules put in order one after the other -/

namespace RuleOrder

/-- Lists of rules put in order one after the other: how the last of them came out, and what
is remembered then. -/
def sorts (calls : List (List Rule)) : List Rule × RuleOrder :=
  calls.foldl (fun last rules => last.2.sort rules) ([], {})

/-- The numbers of rules in the order in which they stand. -/
def ids (rules : List Rule) : List Int := rules.map (·.id)

/-- A rule stands before another one, as far as their numbers tell. -/
def Precedes (rules : List Rule) (a b : Rule) : Prop := [a.id, b.id].Sublist (ids rules)

variable {calls : List (List Rule)} {rules : List Rule} {before : List Int} {a b : Rule}

/-- The rules themselves stand as their numbers tell. -/
theorem Precedes.of_ids (given : Precedes rules a b) (distinct : (ids rules).Nodup)
    (ha : a ∈ rules) (hb : b ∈ rules) : [a, b].Sublist rules := by
  obtain ⟨l, hl, heq⟩ := List.sublist_map_iff.1 given
  obtain ⟨c, _, rfl, hc, heq⟩ := List.map_eq_cons_iff.1 heq.symm
  obtain ⟨d, _, rfl, hd, heq⟩ := List.map_eq_cons_iff.1 heq
  obtain rfl := List.map_eq_nil_iff.1 heq
  have hca : c = a := List.inj_on_of_nodup_map distinct (hl.subset (by simp)) ha hc
  have hdb : d = b := List.inj_on_of_nodup_map distinct (hl.subset (by simp)) hb hd
  rwa [hca, hdb] at hl

theorem sorts_append (calls : List (List Rule)) (rules : List Rule) :
    sorts (calls ++ [rules]) = (sorts calls).2.sort rules :=
  List.foldl_concat ..

theorem ids_sort (o : RuleOrder) (rules : List Rule) :
    (ids (o.sort rules).1).Perm (ids rules) :=
  (o.sortBy_perm ..).map _

/-- What is remembered is the order in which the last list came out, and no rule was in it
twice. -/
structure Remembers (last : List Rule × RuleOrder) : Prop where
  distinct : (ids last.1).Nodup
  places : last.2 = ⟨placesOf (ids last.1)⟩

theorem remembers_sort (o : RuleOrder) (distinct : (ids rules).Nodup) :
    Remembers (o.sort rules) :=
  ⟨(ids_sort o rules).nodup_iff.2 distinct, rfl⟩

theorem remembers_sorts (distinct : ∀ rules ∈ calls, (ids rules).Nodup) :
    Remembers (sorts calls) := by
  have hfold : ∀ (calls : List (List Rule)) (last : List Rule × RuleOrder), Remembers last →
      (∀ rules ∈ calls, (ids rules).Nodup) →
      Remembers (calls.foldl (fun last rules => last.2.sort rules) last) := by
    intro calls
    induction calls with
    | nil => exact fun last h _ => h
    | cons rules calls ih =>
      intro last _ hcalls
      obtain ⟨hrules, hcalls⟩ := List.forall_mem_cons.1 hcalls
      exact ih _ (remembers_sort _ hrules) hcalls
  exact hfold calls _ ⟨List.nodup_nil, rfl⟩ distinct

/-! ## One list put in order -/

/-- A list comes out by priority, and in the order remembered among equal priorities. -/
theorem sort_pairwise (remembered : before.Nodup) (rules : List Rule) :
    (sort ⟨placesOf before⟩ rules).1.Pairwise fun a b => a.priority < b.priority ∨
      a.priority = b.priority ∧ before.idxOf a.id ≤ before.idxOf b.id := by
  have hsorted : (sort ⟨placesOf before⟩ rules).1.Pairwise _ :=
    List.pairwise_mergeSort (before_trans _ _) (before_total _ _) rules
  exact hsorted.imp (before_iff remembered _ _ _).1

/-- Of two rules of equal priority, the one that stood earlier the last time comes first. -/
theorem precedes_of_idxOf_lt (remembered : before.Nodup) (ha : a ∈ rules) (hb : b ∈ rules)
    (tie : a.priority = b.priority) (earlier : before.idxOf a.id < before.idxOf b.id) :
    Precedes (sort ⟨placesOf before⟩ rules).1 a b := by
  have hperm : (sort ⟨placesOf before⟩ rules).1.Perm rules := sortBy_perm ..
  have hpair := Sorting.pair_sublist_of_pairwise (sort_pairwise remembered rules)
    (hperm.mem_iff.2 ha) (hperm.mem_iff.2 hb) (by rintro rfl; omega) (by omega)
  exact hpair.map _

/-- Two rules of equal priority that the last list did not tell apart stay as they are. -/
theorem precedes_of_idxOf_eq (remembered : before.Nodup) (distinct : (ids rules).Nodup)
    (ha : a ∈ rules) (hb : b ∈ rules) (tie : a.priority = b.priority)
    (level : before.idxOf a.id = before.idxOf b.id) (given : Precedes rules a b) :
    Precedes (sort ⟨placesOf before⟩ rules).1 a b := by
  have hbefore := (before_iff remembered rules.length (a.id, a.priority) (b.id, b.priority)).2
    (.inr ⟨tie, Nat.le_of_eq level⟩)
  have hpair := List.pair_sublist_mergeSort (before_trans _ _) (before_total _ _) hbefore
    (given.of_ids distinct ha hb)
  exact hpair.map _

/-- A list that has come out of a sort comes out again as it is, however its rules are handed
in. -/
theorem ids_sort_again (remembered : before.Nodup) (distinct : (ids rules).Nodup)
    {again : List Rule}
    (same : (again.map fun r => (r.id, r.priority)).Perm (rules.map fun r => (r.id, r.priority))) :
    let once := (sort ⟨placesOf before⟩ rules).1
    ids (sort ⟨placesOf (ids once)⟩ again).1 = ids once := by
  intro once
  have honce : (ids once).Nodup := (ids_sort _ rules).nodup_iff.2 distinct
  -- both lists stand by priority, and then by place in the first
  have hfirst : (once.map fun r => (r.id, r.priority)).Pairwise fun p q =>
      p.2 < q.2 ∨ p.2 = q.2 ∧ (ids once).idxOf p.1 ≤ (ids once).idxOf q.1 := by
    have hplaces : once.Pairwise fun a b => (ids once).idxOf a.id < (ids once).idxOf b.id := by
      have hplaces := Sorting.pairwise_idxOf honce
      rwa [ids, List.pairwise_map] at hplaces
    refine List.pairwise_map.2 (((sort_pairwise remembered rules).and hplaces).imp ?_)
    intro a b hab
    simp only
    omega
  have hsecond : ((sort ⟨placesOf (ids once)⟩ again).1.map fun r => (r.id, r.priority)).Pairwise
      fun p q => p.2 < q.2 ∨ p.2 = q.2 ∧ (ids once).idxOf p.1 ≤ (ids once).idxOf q.1 :=
    List.pairwise_map.2 (sort_pairwise honce again)
  have hperm : ((sort ⟨placesOf (ids once)⟩ again).1.map fun r => (r.id, r.priority)).Perm
      (once.map fun r => (r.id, r.priority)) :=
    ((sortBy_perm ..).map _).trans (same.trans ((sortBy_perm ..).map _).symm)
  have heq := List.Perm.eq_of_pairwise (fun p q hp hq hpq hqp => ?_) hsecond hfirst hperm
  · have hids := congrArg (List.map Prod.fst) heq
    rwa [List.map_map, List.map_map] at hids
  · have hin : p.1 ∈ ids once := by
      obtain ⟨r, hr, rfl⟩ := List.mem_map.1 (hperm.mem_iff.1 hp)
      exact List.mem_map_of_mem hr
    have hplace : (ids once).idxOf p.1 = (ids once).idxOf q.1 := by omega
    exact Prod.ext ((List.idxOf_inj hin).1 hplace) (by omega)

/-- **Ties keep their order.** Whatever lists of rules have been put in order before, the next
one comes out as a permutation by priority. Of two rules of equal priority that were both in the
last list, the one that came first then comes first; one that was in the last list comes before
one that was not; and two that were not in it stay as they are given. The same rules with the
same priorities, handed in again in any order, come out as before. -/
theorem ties_keep_order (calls : List (List Rule)) (rules : List Rule)
    (distinct : ∀ list ∈ calls ++ [rules], (ids list).Nodup) :
    let last := (sorts calls).1
    let sorted := (sorts (calls ++ [rules])).1
    sorted.Perm rules ∧ sorted.Pairwise (·.priority ≤ ·.priority) ∧
      (∀ a ∈ rules, ∀ b ∈ rules, a.priority = b.priority →
        (Precedes last a b → Precedes sorted a b) ∧
        (a.id ∈ ids last → b.id ∉ ids last → Precedes sorted a b) ∧
        (a.id ∉ ids last → b.id ∉ ids last → Precedes rules a b → Precedes sorted a b)) ∧
      ∀ again : List Rule, (again.map fun r => (r.id, r.priority)).Perm
          (rules.map fun r => (r.id, r.priority)) →
        ids (sorts (calls ++ [rules, again])).1 = ids sorted := by
  intro last sorted
  obtain ⟨hlast, hplaces⟩ := remembers_sorts fun list h => distinct list (List.mem_append_left _ h)
  have hrules : (ids rules).Nodup := distinct rules (by simp)
  have hsorted : sorted = (sort ⟨placesOf (ids last)⟩ rules).1 := by
    rw [show sorted = (sorts (calls ++ [rules])).1 from rfl, sorts_append, hplaces]
  refine ⟨hsorted ▸ sortBy_perm .., ?_, fun a ha b hb tie => ⟨fun h => ?_, fun hin hout => ?_,
    fun hnone hout h => ?_⟩, fun again same => ?_⟩
  · rw [hsorted]
    exact (sort_pairwise hlast rules).imp fun h => by omega
  · rw [hsorted]
    exact precedes_of_idxOf_lt hlast ha hb tie (Sorting.idxOf_lt_of_pair_sublist hlast h)
  · rw [hsorted]
    refine precedes_of_idxOf_lt hlast ha hb tie ?_
    rw [List.idxOf_eq_length hout]
    exact List.idxOf_lt_length_of_mem hin
  · rw [hsorted]
    refine precedes_of_idxOf_eq hlast hrules ha hb tie ?_ h
    rw [List.idxOf_eq_length hnone, List.idxOf_eq_length hout]
  · have hagain := ids_sort_again hlast hrules same
    rw [show calls ++ [rules, again] = (calls ++ [rules]) ++ [again] by simp, sorts_append,
      sorts_append, hplaces]
    rw [hsorted]
    exact hagain

end RuleOrder

/-- A rule that asks for nothing and does nothing. -/
def Rule.idle (id : Int) : Rule := { name := "vent", conditions := .all [], id := id }

namespace RuleOrder

/-- Rules 5 and 2 have been put in order; now there is a rule 7, and rule 2 is handed in first. -/
theorem ties_keep_order_newcomer :
    (∀ list ∈ [[.idle 5, .idle 2]] ++ [[Rule.idle 2, .idle 7, .idle 5]], (ids list).Nodup) ∧
      ids (sorts [[.idle 5, .idle 2]]).1 = [5, 2] ∧
      Precedes (sorts [[.idle 5, .idle 2], [.idle 2, .idle 7, .idle 5]]).1 (.idle 5) (.idle 2) ∧
      Precedes (sorts [[.idle 5, .idle 2], [.idle 2, .idle 7, .idle 5]]).1 (.idle 2) (.idle 7) := by
  have hdistinct : ∀ list ∈ [[.idle 5, .idle 2]] ++ [[Rule.idle 2, .idle 7, .idle 5]],
      (ids list).Nodup := by decide
  have hlast : ids (sorts [[.idle 5, .idle 2]]).1 = [5, 2] := by
    show ids (sort {} [.idle 5, .idle 2]).1 = [5, 2]
    rw [sort_eq]
    decide
  obtain ⟨-, -, hties, -⟩ :=
    ties_keep_order [[.idle 5, .idle 2]] [.idle 2, .idle 7, .idle 5] hdistinct
  have hkept := hties (.idle 5) (by simp) (.idle 2) (by simp) rfl
  have hnew := hties (.idle 2) (by simp) (.idle 7) (by simp) rfl
  refine ⟨hdistinct, hlast, hkept.1 ?_, hnew.2.1 ?_ ?_⟩
  · rw [Precedes, hlast]
    decide
  · rw [hlast]
    decide
  · rw [hlast]
    decide

end RuleOrder

end Glasshouse
