/-
Glasshouse.Proofs.Condition.Weekday — the weekdays of a test of the local time as they
are read: ascending, each once, 0 to 6, whether they came as names, integers,
truth values or doubles. Such weekdays, written as integers, are read as
themselves. Main statements: `isWeek_of_readDays`, `readDays_ofList`.
-/
import Glasshouse.Proofs.Rule.Faults
import Glasshouse.Proofs.Doc.Reading
import Glasshouse.Proofs.Basic.WholeDoubles

namespace Glasshouse

open Schema

/-- Days of the week, ascending and each once. -/
def IsWeek (ns : List Nat) : Prop :=
  ns.Pairwise (· < ·) ∧ ∀ n ∈ ns, n ≤ 6

/-! ## Single days -/

theorem checkDays_eq_ok {ds : List Doc} {u : Unit} :
    checkDays ds = .ok u ↔ ∀ d ∈ ds, isWeekNumber d = .ok true := by
  induction ds with
  | nil => simp [checkDays]
  | cons d ds ih =>
    unfold checkDays
    split
    · rename_i e he
      simp [he]
    · rename_i hd
      simp [hd, Checked.flaw]
    · rename_i hd
      simp [hd, ih]

theorem wholeOf_of_integer {x : Float} {n : Int} (h : integer (.num x) = .ok n) :
    Number.wholeOf x = some n := by
  unfold integer at h
  dsimp only at h
  split at h
  · cases h
  · split at h
    · cases h
    · rename_i m hm
      split at h
      · cases h
        exact hm
      · cases h

/-- A number of the week that is read as an integer is that integer as a key, and
lies in the week. -/
theorem key_of_integer {d : Doc} {n : Int} (h : isWeekNumber d = .ok true)
    (hn : integer d = .ok n) : ∃ a, d = .atom a ∧ a.keyNumber? = some (.inl n) ∧ 0 ≤ n ∧ n ≤ 6 := by
  match d, h with
  | .int k, h =>
    cases hn
    simp only [isWeekNumber, Except.ok.injEq, Bool.and_eq_true, decide_eq_true_eq] at h
    exact ⟨_, rfl, rfl, h⟩
  | .bool b, _ =>
    cases hn
    exact ⟨_, rfl, rfl, by cases b <;> decide⟩
  | .num x, h =>
    simp only [isWeekNumber, Except.ok.injEq, Bool.and_eq_true, decide_eq_true_eq] at h
    have hwhole := wholeOf_of_integer hn
    refine ⟨.num x, rfl, by simp only [Atom.keyNumber?, hwhole], ?_, ?_⟩
    · exact Number.wholeOf_mono h.1 (by decide +kernel) hwhole
    · exact Number.wholeOf_mono h.2 hwhole (by decide +kernel)

/-- Whole numbers are the same key if they are equal. -/
theorem sameKey_of_keyNumber {a b : Atom} {m n : Int} (ha : a.keyNumber? = some (.inl m))
    (hb : b.keyNumber? = some (.inl n)) : a.sameKey b = (m == n) := by
  cases a with
  | null | str _ | day _ | moment _ | bytes _ | endless => cases ha
  | bool _ | int _ | num _ =>
    unfold Atom.sameKey
    rw [ha, hb]

/-! ## Lists of days -/

/-- Days none of which is the same key as one before it. -/
def Distinct (ds : List Doc) : Prop :=
  ds.Pairwise fun d e => ∀ a b, d = .atom a → e = .atom b → a.sameKey b = false

theorem distinctDays_sublist (ds : List Doc) : (distinctDays ds).Sublist ds := by
  fun_induction distinctDays ds with
  | case1 => exact .slnil
  | case2 a r rest ih => exact .cons_cons _ (List.filter_sublist.trans ih)
  | case3 d r _ ih => exact .cons_cons _ ih

theorem distinct_distinctDays (ds : List Doc) : Distinct (distinctDays ds) := by
  fun_induction distinctDays ds with
  | case1 => exact .nil
  | case2 a r rest ih =>
    refine .cons (fun e he b c hb hc => ?_) (ih.filter _)
    subst hc
    cases hb
    simpa using (List.mem_filter.1 he).2
  | case3 d r hd ih =>
    exact .cons (fun e _ a b ha _ => absurd ha (hd a)) ih

/-- The integer that a day is read as. -/
def dayValue (d : Doc) : Int :=
  match integer d with
  | .ok n => n
  | _ => 0

theorem dayValue_of_integer {d : Doc} {n : Int} (h : integer d = .ok n) : dayValue d = n := by
  simp only [dayValue, h]

/-- Days that are read side by side are read as their values. -/
theorem each_integer_eq_ok {ds : List Doc} {ns : List Int} {i : Nat}
    (h : Checked.each integer i ds = .ok ns) :
    ns = ds.map dayValue ∧ ∀ d ∈ ds, integer d = .ok (dayValue d) := by
  replace h := Checked.each_eq_ok.1 h
  induction h with
  | nil => exact ⟨rfl, nofun⟩
  | cons hd _ ih =>
    rename_i d n ds ns _
    obtain ⟨rfl, hall⟩ := ih
    have hn := dayValue_of_integer hd
    refine ⟨by rw [List.map_cons, hn], fun e he => ?_⟩
    rcases List.mem_cons.1 he with rfl | he
    · rw [hn, hd]
    · exact hall e he

/-- Distinct days of the week that can be read have distinct values. -/
theorem nodup_dayValue {ds : List Doc} (hdistinct : Distinct ds)
    (hweek : ∀ d ∈ ds, isWeekNumber d = .ok true)
    (hread : ∀ d ∈ ds, integer d = .ok (dayValue d)) : (ds.map dayValue).Nodup := by
  refine List.pairwise_map.2 (hdistinct.imp_of_mem ?_)
  intro d e hd he hne hvalue
  obtain ⟨a, rfl, ha, -⟩ := key_of_integer (hweek d hd) (hread d hd)
  obtain ⟨b, rfl, hb, -⟩ := key_of_integer (hweek e he) (hread e he)
  have hsame := hne a b rfl rfl
  rw [sameKey_of_keyNumber ha hb, hvalue, beq_self_eq_true] at hsame
  cases hsame

/-! ## Sets of days -/

theorem pairwise_lt_of_nodup {ns : List Nat} (h : ns.Nodup) :
    (ns.mergeSort (· ≤ ·)).Pairwise (· < ·) := by
  have hsorted := @List.pairwise_mergeSort _ (fun m n : Nat => decide (m ≤ n))
    (fun a b c => by simpa using Nat.le_trans) (fun a b => by simpa using Nat.le_total a b) ns
  have hnodup : (ns.mergeSort (· ≤ ·)).Nodup := (List.mergeSort_perm ns _).nodup_iff.2 h
  refine (hsorted.and hnodup).imp ?_
  rintro a b ⟨hle, hne⟩
  exact Nat.lt_of_le_of_ne (of_decide_eq_true hle) hne

/-- The weekdays that are read ascend, each comes once, and all of them lie in the week. -/
theorem isWeek_of_readDays {d : Doc} {ns : List Nat} (h : readDays d = .ok (some ns)) :
    IsWeek ns := by
  unfold readDays at h
  split at h
  · cases h
  · split at h
    · cases h
    · obtain ⟨ds, -, h⟩ := Checked.andThen_eq_ok.1 h
      obtain ⟨_, hcheck, h⟩ := Checked.andThen_eq_ok.1 h
      obtain ⟨is, his, h⟩ := Checked.map_eq_ok.1 h
      cases h
      have hperm := List.mergeSort_perm (distinctDays ds) fun a b => dayRank a ≤ dayRank b
      obtain ⟨rfl, hread⟩ := each_integer_eq_ok his
      have hread : ∀ d ∈ distinctDays ds, integer d = .ok (dayValue d) :=
        fun d hd => hread d (hperm.mem_iff.2 hd)
      have hweek : ∀ d ∈ distinctDays ds, isWeekNumber d = .ok true :=
        fun d hd => checkDays_eq_ok.1 hcheck d ((distinctDays_sublist ds).subset hd)
      have hbound : ∀ d ∈ distinctDays ds, 0 ≤ dayValue d ∧ dayValue d ≤ 6 := by
        intro d hd
        obtain ⟨_, _, _, hd⟩ := key_of_integer (hweek d hd) (hread d hd)
        exact hd
      have hnodup : ((distinctDays ds).map fun d => (dayValue d).toNat).Nodup := by
        refine List.pairwise_map.2 ((List.pairwise_map.1 (nodup_dayValue
          (distinct_distinctDays ds) hweek hread)).imp_of_mem ?_)
        intro d e hd he hne heq
        have hd := hbound d hd
        have he := hbound e he
        omega
      constructor
      · refine pairwise_lt_of_nodup ?_
        rw [List.map_map]
        exact ((hperm.map _).nodup_iff).2 hnodup
      · intro n hn
        rw [(List.mergeSort_perm _ _).mem_iff, List.map_map] at hn
        obtain ⟨d, hd, rfl⟩ := List.mem_map.1 hn
        have hd := hbound d (hperm.mem_iff.1 hd)
        show (dayValue d).toNat ≤ 6
        omega

theorem nameDays_map_nat (ns : List Nat) : nameDays (ns.map .nat) = .ok (ns.map .nat) := by
  induction ns with
  | nil => rfl
  | cons n ns ih =>
    show (nameDays (ns.map .nat)).map _ = _
    rw [ih]
    rfl

theorem distinctDays_map_nat {ns : List Nat} (h : ns.Nodup) :
    distinctDays (ns.map .nat) = ns.map .nat := by
  induction ns with
  | nil => rfl
  | cons n ns ih =>
    obtain ⟨hn, hns⟩ := List.nodup_cons.1 h
    show Doc.nat n :: (distinctDays (ns.map .nat)).filter _ = _
    rw [ih hns, List.map_cons, List.cons.injEq, List.filter_eq_self]
    refine ⟨rfl, fun d hd => ?_⟩
    obtain ⟨m, hm, rfl⟩ := List.mem_map.1 hd
    have hne : n ≠ m := fun heq => hn (heq ▸ hm)
    simpa [Doc.nat, Atom.sameKey, Atom.keyNumber?, Int.ofNat_inj] using hne

/-- Ascending weekdays, written as integers, are read as themselves. -/
theorem readDays_ofList {ns : List Nat} (h : IsWeek ns) :
    readDays (.ofList .nat ns) = .ok (some ns) := by
  obtain ⟨hsorted, hbound⟩ := h
  have hcheck : checkDays (ns.map .nat) = .ok () := by
    refine checkDays_eq_ok.2 fun d hd => ?_
    obtain ⟨n, hn, rfl⟩ := List.mem_map.1 hd
    have hn := hbound n hn
    simp only [Doc.nat, isWeekNumber, Except.ok.injEq, Bool.and_eq_true, decide_eq_true_eq]
    omega
  have hordered : ((ns.map Doc.nat).mergeSort fun a b => dayRank a ≤ dayRank b) = ns.map .nat := by
    refine List.mergeSort_of_pairwise (List.pairwise_map.2 (hsorted.imp ?_))
    intro m n hmn
    exact decide_eq_true (Nat.le_of_lt hmn)
  have hread : Checked.each integer 0 (ns.map Doc.nat) = .ok (ns.map Int.ofNat) := by
    rw [Checked.each_eq_ok, List.forall₂_map_left_iff, List.forall₂_map_right_iff]
    exact List.forall₂_same.2 fun n _ => rfl
  show (nameDays (ns.map .nat)).andThen _ = _
  rw [nameDays_map_nat]
  show (checkDays (ns.map .nat)).andThen _ = _
  rw [hcheck]
  show (Checked.each integer 0 ((distinctDays (ns.map .nat)).mergeSort _)).map _ = _
  rw [distinctDays_map_nat (hsorted.imp Nat.ne_of_lt), hordered, hread, Checked.map_ok,
    List.map_map, show Int.toNat ∘ Int.ofNat = id from rfl, List.map_id]
  exact congrArg (Checked.ok ∘ some) (List.mergeSort_of_pairwise
    (hsorted.imp fun h => decide_eq_true (Nat.le_of_lt h)))

end Glasshouse
