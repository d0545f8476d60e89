/-
Glasshouse.Proofs.Engine.Pasts — what rows tell about the triggers of their rules. A
rule with another past is read, ordered and looked at as before; the past only
matters to the tracker, when the record of the rule is merged in. A tracker
equates two pasts if it cannot tell them apart then, and goes on to do so while
it moves forward.
-/
import Glasshouse.Proofs.Engine.Operations

namespace Glasshouse

open Calendar

/-- What a row tells about the triggers of its rule. -/
structure Past where
  last : Option Instant
  count : Int

/-! ## Rows and rules -/

namespace RuleRow

/-- The past of a row. -/
def past (r : RuleRow) : Past := ⟨r.lastTriggered, r.triggerCount⟩

/-- A row with another past. -/
def withPast (p : Past) (r : RuleRow) : RuleRow :=
  { r with lastTriggered := p.last, triggerCount := p.count }

end RuleRow

/-- A rule with another past. -/
def Rule.withPast (p : Past) (rule : Rule) : Rule :=
  { rule with lastTriggered := p.last.map .ofInstant, triggerCount := p.count.toNat }

theorem Schema.natural_int {k : Int} (h : 0 ≤ k) : natural (.int k) = .ok k.toNat :=
  natural_int_eq_ok.2 (Int.toNat_of_nonneg h)

namespace RuleRow

/-- The definition that a row holds does not depend on its past. -/
theorem readFields_withPast (p : Past) (r : RuleRow) :
    Definition.readFields (r.withPast p).fields = Definition.readFields r.fields := rfl

/-- The reading of a row whose count is natural. -/
theorem read_fields {r : RuleRow} (h : 0 ≤ r.triggerCount) (last : Option Moment) :
    Rule.read r.fields last = (do
      let definition ← Definition.readFields r.fields
      Definition.accept .fields (definition.map fun d => ⟨d, r.id, last, r.triggerCount.toNat⟩)) := by
  unfold Rule.read
  simp only [get_triggerCount, count_or_zero, Schema.natural_int h]
  cases Definition.readFields r.fields with
  | error e => rfl
  | ok x => cases x <;> rfl

/-- A stored time is read as universal time. -/
theorem assumeUtc_last (o : Option Instant) :
    ((o.map fun i => (⟨i, none⟩ : Moment)).map Moment.assumeUtc) = o.map .ofInstant := by
  cases o <;> rfl

/-- A row with another past holds its rule with that past. -/
theorem toRule_withPast {r : RuleRow} {p : Past} (hr : 0 ≤ r.triggerCount) (hp : 0 ≤ p.count) :
    (r.withPast p).toRule = r.toRule.map (Rule.withPast p) := by
  unfold toRule Rule.ofRecord
  rw [read_fields hr, read_fields (r := r.withPast p) hp, readFields_withPast, assumeUtc_last,
    assumeUtc_last]
  cases Definition.readFields r.fields with
  | error e => rfl
  | ok x => cases x <;> rfl

/-- Rows that hold a rule have a natural count. -/
theorem count_nonneg_of_toRule {r : RuleRow} {rule : Rule} (h : r.toRule = .ok rule) :
    0 ≤ r.triggerCount := by
  have hcount := (isOf_of_toRule h).count
  omega

end RuleRow

/-- A rule has a past. -/
structure Rule.Recalls (a : Rule) (p : Past) : Prop where
  last : a.lastTriggered = p.last.map .ofInstant
  count : (a.triggerCount : Int) = p.count

theorem Rule.IsOf.recalls {a : Rule} {r : RuleRow} (h : a.IsOf r) : a.Recalls r.past :=
  ⟨h.last, h.count⟩

/-- A rule has the past that its row tells. -/
theorem Rule.withPast_past {rule : Rule} {r : RuleRow} (h : r.toRule = .ok rule) :
    rule.withPast r.past = rule := by
  have hof := RuleRow.isOf_of_toRule h
  have hcount : r.past.count.toNat = rule.triggerCount := by
    show r.triggerCount.toNat = _
    have := hof.count
    omega
  have hlast : r.past.last.map .ofInstant = rule.lastTriggered := hof.last.symm
  unfold withPast
  rw [hcount, hlast]

/-! ## Many of them -/

/-- A past for every number of a rule. -/
abbrev Pasts := Int → Past

namespace Pasts

variable (f : Pasts)

/-- A row with the past of its number. -/
def row (r : RuleRow) : RuleRow := r.withPast (f r.id)

/-- A rule with the past of its number. -/
def rule (a : Rule) : Rule := a.withPast (f a.id)

/-- A past may stand for that of a row: it is the same, or both counts are natural. -/
def Suits (r : RuleRow) : Prop :=
  f r.id = r.past ∨ 0 ≤ r.triggerCount ∧ 0 ≤ (f r.id).count

variable {f}

/-- A row with a suitable past holds the same rule but for the past. -/
theorem toRule_row {r : RuleRow} (h : f.Suits r) : (f.row r).toRule = r.toRule.map f.rule := by
  rcases h with h | ⟨hr, hf⟩
  · have hrow : f.row r = r := by
      unfold row
      rw [h]
      rfl
    rw [hrow]
    cases ha : r.toRule with
    | error e => rfl
    | ok a =>
      have hid : a.id = r.id := (RuleRow.isOf_of_toRule ha).id
      show _ = Except.ok (a.withPast (f a.id))
      rw [hid, h, Rule.withPast_past ha]
  · unfold row
    rw [RuleRow.toRule_withPast hr hf]
    cases ha : r.toRule with
    | error e => rfl
    | ok a =>
      have hid : a.id = r.id := (RuleRow.isOf_of_toRule ha).id
      show Except.ok (a.withPast (f r.id)) = Except.ok (a.withPast (f a.id))
      rw [hid]

/-- The rule of a row has the past that suits the row. -/
theorem recalls_rule {r : RuleRow} (h : f.Suits r) {a : Rule} (ha : r.toRule = .ok a) :
    (f.rule a).Recalls (f r.id) := by
  have hid : a.id = r.id := (RuleRow.isOf_of_toRule ha).id
  have hcount : 0 ≤ (f r.id).count := by
    rcases h with h | h
    · rw [h]
      exact RuleRow.count_nonneg_of_toRule ha
    · exact h.2
  refine ⟨?_, ?_⟩
  · rw [← hid]
    rfl
  · rw [← hid] at hcount ⊢
    exact Int.toNat_of_nonneg hcount

/-- Rows with suitable pasts are sifted alike. -/
theorem sift_rows {rows : List RuleRow} (h : ∀ r ∈ rows, f.Suits r) :
    Engine.sift (rows.map f.row)
      = ((Engine.sift rows).1.map (List.map f.rule), (Engine.sift rows).2) := by
  induction rows with
  | nil => rfl
  | cons r rows ih =>
    have hrest := ih fun q hq => h q (List.mem_cons_of_mem _ hq)
    simp only [List.map_cons, Engine.sift, toRule_row (h r (List.mem_cons_self ..)), hrest]
    cases r.toRule with
    | ok a =>
      simp only [Except.map]
      cases (Engine.sift rows).1 <;> rfl
    | error e => cases e <;> rfl

/-- Rows are listed in the same order. -/
theorem enabled_rows (f : Pasts) (rows : List RuleRow) :
    ((rows.map f.row).mergeSort RuleRow.before).filter (·.enabled)
      = ((rows.mergeSort RuleRow.before).filter (·.enabled)).map f.row := by
  have hsort : (rows.map f.row).mergeSort RuleRow.before
      = (rows.mergeSort RuleRow.before).map f.row :=
    (List.map_mergeSort (f := f.row) fun _ _ _ _ => rfl).symm
  rw [hsort, List.filter_map]
  rfl

/-- Rules are put in the same order. -/
theorem sort_rules (f : Pasts) (o : RuleOrder) (rules : List Rule) :
    o.sort (rules.map f.rule) = ((o.sort rules).1.map f.rule, (o.sort rules).2) := by
  unfold RuleOrder.sort RuleOrder.sortBy
  have hsort : ((rules.map f.rule).mergeSort fun a b =>
        o.before rules.length (a.id, a.priority) (b.id, b.priority))
      = (rules.mergeSort fun a b =>
        o.before rules.length (a.id, a.priority) (b.id, b.priority)).map f.rule :=
    (List.map_mergeSort (f := f.rule) fun _ _ _ _ => rfl).symm
  simp only [List.length_map]
  rw [hsort, List.map_map]
  rfl

/-- Rules with pasts told by rows have stored times with an offset. -/
theorem rules_aware (f : Pasts) (rules : List Rule) : ∀ a ∈ rules.map f.rule, a.Aware := by
  intro a ha m hm
  obtain ⟨b, _, rfl⟩ := List.mem_map.1 ha
  obtain ⟨i, _, rfl⟩ := Option.map_eq_some_iff.1 hm
  exact (Moment.utc_ofInstant i).aware

/-- Rules are looked at alike. -/
theorem processAll_rules (f : Pasts) (now : Moment) (rules : List Rule) :
    Engine.processAll now (rules.map f.rule) = Engine.processAll now rules := by
  induction rules with
  | nil => rfl
  | cons a rules ih =>
    show (Engine.processRule (f.rule a) now false false >>= fun r =>
      Engine.processAll now (rules.map f.rule) >>= fun rs => pure (r :: rs)) = _
    rw [ih]
    rfl

end Pasts

/-! ## Trackers -/

/-- A past with a trigger noted, as a row notes it. -/
def Past.noted (i : Instant) (n : Int) (p : Past) : Past where
  last := some (match p.last with
    | some j => max i j
    | none => i)
  count := max p.count n

namespace Cooldown

variable {t u : Cooldown} {id : Int} {p q : Past}

/-- A tracker knows of a trigger that is not before a stored time. -/
def Covers (t : Cooldown) (id : Int) (o : Option Instant) : Prop :=
  ∀ i, o = some i → ∃ m, t.last.get? id = some m ∧ i ≤ m.instant

/-- A tracker cannot tell two pasts of a rule apart once they are merged in: where they
differ, it knows of more than either tells. -/
structure Equates (t : Cooldown) (id : Int) (p q : Past) : Prop where
  last : p.last = q.last ∨ t.Covers id p.last ∧ t.Covers id q.last
  count : p.count = q.count ∨ p.count ≤ t.triggerCount id ∧ q.count ≤ t.triggerCount id

/-- A tracker knows no less of a rule than another. -/
structure Beyond (t u : Cooldown) (id : Int) : Prop where
  last : ∀ m, u.last.get? id = some m → ∃ m', t.last.get? id = some m' ∧ m.instant ≤ m'.instant
  count : u.triggerCount id ≤ t.triggerCount id

theorem SameAt.beyond (h : SameAt id t u) : Beyond t u id :=
  ⟨fun m hm => ⟨m, h.last.trans hm, Int.le_refl _⟩, Nat.le_of_eq h.triggerCount.symm⟩

theorem Beyond.trans {v : Cooldown} (h : Beyond t u id) (k : Beyond u v id) : Beyond t v id := by
  refine ⟨fun m hm => ?_, Nat.le_trans k.count h.count⟩
  obtain ⟨m', hm', hle⟩ := k.last m hm
  obtain ⟨m'', hm'', hle'⟩ := h.last m' hm'
  exact ⟨m'', hm'', Int.le_trans hle hle'⟩

theorem beyond_merge (t : Cooldown) (a : Rule) (id : Int) : Beyond (t.merge a) t id := by
  refine ⟨fun m hm => merge_forward hm a, ?_⟩
  by_cases h : a.id = id
  · subst h
    rw [merge_triggerCount]
    exact Nat.le_max_left _ _
  · exact Nat.le_of_eq (merge_of_ne h).triggerCount.symm

theorem beyond_marked (t : Cooldown) (k id : Int) (now : Moment) :
    Beyond (t.marked k now) t id := by
  refine ⟨fun m hm => marked_forward hm k now, ?_⟩
  by_cases h : k = id
  · subst h
    simp only [triggerCount, marked_counts, Option.getD_some]
    exact Nat.le_succ _
  · exact Nat.le_of_eq (marked_of_ne now h).triggerCount.symm

theorem Covers.beyond {o : Option Instant} (h : u.Covers id o) (hb : Beyond t u id) :
    t.Covers id o := by
  intro i hi
  obtain ⟨m, hm, hle⟩ := h i hi
  obtain ⟨m', hm', hle'⟩ := hb.last m hm
  exact ⟨m', hm', Int.le_trans hle hle'⟩

namespace Equates

protected theorem refl (t : Cooldown) (id : Int) (p : Past) : t.Equates id p p :=
  ⟨.inl rfl, .inl rfl⟩

protected theorem symm (h : t.Equates id p q) : t.Equates id q p :=
  ⟨h.last.imp Eq.symm And.symm, h.count.imp Eq.symm And.symm⟩

/-- What a tracker cannot tell apart, it cannot when it knows more. -/
theorem beyond (h : u.Equates id p q) (hb : Beyond t u id) : t.Equates id p q := by
  refine ⟨h.last.imp_right fun hc => ⟨hc.1.beyond hb, hc.2.beyond hb⟩, h.count.imp_right fun hc => ?_⟩
  have := hb.count
  omega

/-- A row may note what the tracker knows, or miss it. -/
theorem noted (h : t.Equates id p q) {m : Moment} (hm : t.last.get? id = some m) {n : Int}
    (hn : n = t.triggerCount id) : t.Equates id (p.noted m.instant n) q := by
  have hcovered : ∀ {i}, i ≤ m.instant → t.Covers id (some i) := by
    intro i hi j hj
    cases hj
    exact ⟨m, hm, hi⟩
  have hbound : ∀ {i}, t.Covers id (some i) → i ≤ m.instant := by
    intro i hi
    obtain ⟨m', hm', hle⟩ := hi i rfl
    rw [hm] at hm'
    cases hm'
    exact hle
  refine ⟨?_, ?_⟩
  · cases hp : p.last with
    | none =>
      simp only [Past.noted, hp]
      refine .inr ⟨hcovered (Int.le_refl _), ?_⟩
      rcases h.last with he | ⟨_, hq⟩
      · rw [← he, hp]
        exact nofun
      · exact hq
    | some j =>
      simp only [Past.noted, hp]
      by_cases hj : j ≤ m.instant
      · rw [Int.max_eq_left hj]
        refine .inr ⟨hcovered (Int.le_refl _), ?_⟩
        rcases h.last with he | ⟨_, hq⟩
        · rw [← he, hp]
          exact hcovered hj
        · exact hq
      · have hle : m.instant ≤ j := Int.le_of_lt (Int.not_le.1 hj)
        rw [Int.max_eq_right hle]
        rcases h.last with he | ⟨hc, _⟩
        · exact .inl (hp ▸ he)
        · exact absurd (hbound (hp ▸ hc)) hj
  · show max p.count n = q.count ∨ max p.count n ≤ _ ∧ q.count ≤ _
    rcases h.count with he | hc <;> omega

end Equates

/-- What a tracker covers does not move its time. -/
theorem merge_last_of_covers {a : Rule} (h : t.Covers a.id p.last) (ha : a.Recalls p) :
    (t.merge a).last.get? a.id = t.last.get? a.id := by
  rw [merge_last, ha.last]
  cases hp : p.last with
  | none => rfl
  | some i =>
    obtain ⟨m, hm, hle⟩ := h i hp
    have hnot : ¬ m.instant < (Moment.ofInstant i).instant := by
      rw [Moment.instant_ofInstant]
      exact Int.not_lt.2 hle
    simp only [Option.map_some, hm, latest, if_neg hnot]

/-- Two trackers that hold the same about a rule do so after they have merged in pasts that
one of them equates. -/
theorem SameAt.merge_equates {a b : Rule} (h : SameAt a.id t u) (hl : t.Equates a.id p q)
    (ha : a.Recalls p) (hb : b.Recalls q) (hid : b.id = a.id) (hc : b.cooldown = a.cooldown) :
    SameAt a.id (t.merge a) (u.merge b) := by
  refine ⟨?_, ?_, ?_⟩
  · rcases hl.last with he | ⟨hp, hq⟩
    · rw [merge_last, ← hid, merge_last, ha.last, hb.last, he, hid, h.last]
    · have hq' : u.Covers b.id q.last := hid ▸ hq.beyond h.symm.beyond
      rw [merge_last_of_covers hp ha, ← hid, merge_last_of_covers hq' hb, hid, h.last]
  · rw [merge_counts, ← hid, merge_counts, hid, ← h.triggerCount]
    have hp := ha.count
    have hq := hb.count
    refine congrArg some ?_
    rcases hl.count with he | hle <;> omega
  · rw [merge_minutes, ← hid, merge_minutes, hc]

end Cooldown

end Glasshouse
