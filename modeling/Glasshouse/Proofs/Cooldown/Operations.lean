/-
Glasshouse.Proofs.Cooldown.Operations — what the tracker holds about a rule after each of
its operations. Where all times have an offset, merging in a record, a round
and a mark never fail; `merge`, `refreshed` and `marked` are their outcomes,
and each is described by what it holds at one number.
-/
import Glasshouse.Cooldown
import Glasshouse.Proofs.Basic.Moment

namespace Glasshouse

open Calendar

/-- A rule whose stored time has an offset, as rules built from rows do. -/
def Rule.Aware (r : Rule) : Prop := ∀ m, r.lastTriggered = some m → m.Aware

namespace Cooldown

/-! ## What is held about one rule -/

/-- Two trackers that hold the same about a rule. -/
structure SameAt (id : Int) (t u : Cooldown) : Prop where
  last : t.last.get? id = u.last.get? id
  counts : t.counts.get? id = u.counts.get? id
  minutes : t.minutes.get? id = u.minutes.get? id

/-- The tracker holds something about a rule. -/
def Holds (t : Cooldown) (id : Int) : Prop :=
  (t.last.get? id).isSome ∨ (t.counts.get? id).isSome ∨ (t.minutes.get? id).isSome

instance (t : Cooldown) (id : Int) : Decidable (t.Holds id) :=
  inferInstanceAs (Decidable (_ ∨ _ ∨ _))

/-- All remembered times have an offset. -/
def Aware (t : Cooldown) : Prop := ∀ id m, t.last.get? id = some m → m.Aware

/-- A rule with a remembered time also has a count. -/
def Counted (t : Cooldown) : Prop := ∀ id, (t.last.get? id).isSome → (t.counts.get? id).isSome

namespace SameAt

variable {id : Int} {t u v : Cooldown}

protected theorem refl (id : Int) (t : Cooldown) : SameAt id t t := ⟨rfl, rfl, rfl⟩

protected theorem symm (h : SameAt id t u) : SameAt id u t :=
  ⟨h.last.symm, h.counts.symm, h.minutes.symm⟩

protected theorem trans (h : SameAt id t u) (k : SameAt id u v) : SameAt id t v :=
  ⟨h.last.trans k.last, h.counts.trans k.counts, h.minutes.trans k.minutes⟩

theorem lastTriggered (h : SameAt id t u) : t.lastTriggered id = u.lastTriggered id := h.last

theorem triggerCount (h : SameAt id t u) : t.triggerCount id = u.triggerCount id := by
  unfold Cooldown.triggerCount
  rw [h.counts]

theorem holds (h : SameAt id t u) : t.Holds id ↔ u.Holds id := by
  unfold Holds
  rw [h.last, h.counts, h.minutes]

theorem eligible (h : SameAt id t u) (now : Moment) : t.eligible id now = u.eligible id now := by
  unfold Cooldown.eligible silence
  rw [h.last, h.minutes]

theorem remaining (h : SameAt id t u) (now : Moment) :
    t.remaining id now = u.remaining id now := by
  unfold Cooldown.remaining silence
  rw [h.last, h.minutes]

end SameAt

theorem not_holds_empty (id : Int) : ¬ Holds {} id := by simp [Holds]

/-- Nothing held at all. -/
theorem sameAt_empty_iff {t : Cooldown} {id : Int} : SameAt id t {} ↔ ¬ t.Holds id := by
  constructor
  · intro h
    rw [h.holds]
    exact not_holds_empty id
  · intro h
    simp only [Holds, not_or, Option.not_isSome_iff_eq_none] at h
    exact ⟨h.1, h.2.1, h.2.2⟩

/-! ## The later of two times -/

/-- The later of a remembered time and a new one, by their instants. -/
def latest (current : Option Moment) (m : Moment) : Moment :=
  match current with
  | none => m
  | some c => if c.instant < m.instant then m else c

theorem later_of_aware {current : Option Moment} {m : Moment}
    (hc : ∀ c, current = some c → c.Aware) (hm : m.Aware) :
    later current m = .ok (latest current m) := by
  cases current with
  | none => rfl
  | some c =>
    simp only [later, latest, Moment.after_of_aware hm (hc c rfl)]
    by_cases h : c.instant < m.instant
    · simp [h]; rfl
    · simp [h]; rfl

theorem latest_mem (current : Option Moment) (m : Moment) :
    latest current m = m ∨ current = some (latest current m) := by
  cases current with
  | none => exact .inl rfl
  | some c =>
    simp only [latest]
    split
    · exact .inl rfl
    · exact .inr rfl

theorem latest_aware {current : Option Moment} {m : Moment}
    (hc : ∀ c, current = some c → c.Aware) (hm : m.Aware) : (latest current m).Aware := by
  rcases latest_mem current m with h | h
  · rw [h]
    exact hm
  · exact hc _ h

theorem le_latest (current : Option Moment) (m : Moment) :
    m.instant ≤ (latest current m).instant := by
  cases current with
  | none => exact Int.le_refl _
  | some c =>
    simp only [latest]
    split <;> omega

theorem le_latest_of_some {c : Moment} (m : Moment) :
    c.instant ≤ (latest (some c) m).instant := by
  simp only [latest]
  split <;> omega

/-! ## Merging in a record -/

/-- A tracker with the record of a rule merged in. -/
def merge (t : Cooldown) (r : Rule) : Cooldown where
  last := match r.lastTriggered with
    | none => t.last
    | some m => t.last.put r.id (latest (t.last.get? r.id) m)
  counts := t.counts.put r.id (max (t.triggerCount r.id) r.triggerCount)
  minutes := t.minutes.put r.id r.cooldown

theorem sync_of_aware {t : Cooldown} {r : Rule} (ht : t.Aware) (hr : r.Aware) :
    t.sync r = (.ok (), t.merge r) := by
  unfold sync merge
  cases h : r.lastTriggered with
  | none => rfl
  | some m =>
    have hl := later_of_aware (ht r.id) (hr m h)
    simp only [advance, hl]
    rfl

theorem merge_last (t : Cooldown) (r : Rule) :
    (t.merge r).last.get? r.id = match r.lastTriggered with
      | none => t.last.get? r.id
      | some m => some (latest (t.last.get? r.id) m) := by
  unfold merge
  cases r.lastTriggered with
  | none => rfl
  | some m => simp [Table.get?_put]

theorem merge_counts (t : Cooldown) (r : Rule) :
    (t.merge r).counts.get? r.id = some (max (t.triggerCount r.id) r.triggerCount) := by
  simp [merge, Table.get?_put]

/-- The count after a merge is the higher of both. -/
theorem merge_triggerCount (t : Cooldown) (r : Rule) :
    (t.merge r).triggerCount r.id = max (t.triggerCount r.id) r.triggerCount := by
  unfold triggerCount
  rw [merge_counts]
  rfl

theorem merge_minutes (t : Cooldown) (r : Rule) :
    (t.merge r).minutes.get? r.id = some r.cooldown := by
  simp [merge, Table.get?_put]

theorem merge_of_ne {t : Cooldown} {r : Rule} {id : Int} (h : r.id ≠ id) :
    SameAt id (t.merge r) t := by
  refine ⟨?_, ?_, ?_⟩
  · unfold merge
    cases r.lastTriggered with
    | none => rfl
    | some m => simp [Table.get?_put, h]
  · simp [merge, Table.get?_put, h]
  · simp [merge, Table.get?_put, h]

/-- What is held about a rule after its record was merged in depends on what was
held about it before. -/
theorem SameAt.merge {t u : Cooldown} {r : Rule} (h : SameAt r.id t u) :
    SameAt r.id (t.merge r) (u.merge r) := by
  refine ⟨?_, ?_, ?_⟩
  · rw [merge_last, merge_last, h.last]
  · rw [merge_counts, merge_counts, h.triggerCount]
  · rw [merge_minutes, merge_minutes]

theorem holds_merge (t : Cooldown) (r : Rule) : (t.merge r).Holds r.id :=
  .inr (.inr (by rw [merge_minutes]; rfl))

theorem Aware.merge {t : Cooldown} {r : Rule} (ht : t.Aware) (hr : r.Aware) :
    (t.merge r).Aware := by
  intro id m hm
  by_cases h : r.id = id
  · subst h
    rw [merge_last] at hm
    cases hr' : r.lastTriggered with
    | none =>
      rw [hr'] at hm
      exact ht _ _ hm
    | some l =>
      rw [hr'] at hm
      cases hm
      exact latest_aware (ht r.id) (hr l hr')
  · rw [(merge_of_ne h).last] at hm
    exact ht _ _ hm

theorem Counted.merge {t : Cooldown} (ht : t.Counted) (r : Rule) : (t.merge r).Counted := by
  intro id hs
  by_cases h : r.id = id
  · subst h
    rw [merge_counts]
    rfl
  · rw [(merge_of_ne h).last] at hs
    rw [(merge_of_ne h).counts]
    exact ht id hs

/-- Merging in a record never moves a remembered time back. -/
theorem merge_forward {t : Cooldown} {id : Int} {m : Moment} (h : t.last.get? id = some m)
    (r : Rule) : ∃ m', (t.merge r).last.get? id = some m' ∧ m.instant ≤ m'.instant := by
  by_cases hid : r.id = id
  · subst hid
    rw [merge_last, h]
    cases r.lastTriggered with
    | none => exact ⟨m, rfl, Int.le_refl _⟩
    | some l => exact ⟨_, rfl, le_latest_of_some l⟩
  · rw [(merge_of_ne hid).last]
    exact ⟨m, h, Int.le_refl _⟩

/-- After a record was merged in, the remembered time is not before that of the record. -/
theorem le_merge_last (t : Cooldown) {r : Rule} {l : Moment} (h : r.lastTriggered = some l) :
    ∃ m, (t.merge r).last.get? r.id = some m ∧ l.instant ≤ m.instant := by
  rw [merge_last, h]
  exact ⟨_, rfl, le_latest _ l⟩

/-! ## A round -/

theorem forget_of_ne {t : Cooldown} {k id : Int} (h : k ≠ id) : SameAt id (t.forget k) t := by
  refine ⟨?_, ?_, ?_⟩ <;> simp [forget, Table.get?_erase, h]

theorem forget_self (t : Cooldown) (id : Int) : SameAt id (t.forget id) {} := by
  refine ⟨?_, ?_, ?_⟩ <;> simp [forget, Table.get?_erase]

/-- Forgetting some rules drops what is held about these and no others. -/
theorem forgetAll_sameAt (t : Cooldown) (ks : List Int) (id : Int) :
    SameAt id (ks.foldl forget t) (if id ∈ ks then {} else t) := by
  induction ks generalizing t with
  | nil => simpa using SameAt.refl id t
  | cons k ks ih =>
    have h := ih (t.forget k)
    by_cases hks : id ∈ ks
    · simpa [hks] using h
    · by_cases hk : k = id
      · subst hk
        simp only [hks, if_false] at h
        simpa using h.trans (forget_self t k)
      · simp only [hks, if_false] at h
        simpa [hks, Ne.symm hk] using h.trans (forget_of_ne hk)

/-- A tracker with the records of rules merged in. -/
def mergeAll (t : Cooldown) (rules : List Rule) : Cooldown := rules.foldl merge t

theorem syncAll_of_aware {rules : List Rule} (hr : ∀ r ∈ rules, r.Aware) :
    ∀ {t : Cooldown}, t.Aware → t.syncAll rules = (.ok (), t.mergeAll rules) := by
  induction rules with
  | nil => exact fun _ => rfl
  | cons r rs ih =>
    intro t ht
    have hr₁ : r.Aware := hr r (List.mem_cons_self ..)
    have hrs : ∀ q ∈ rs, q.Aware := fun q hq => hr q (List.mem_cons_of_mem _ hq)
    unfold syncAll
    rw [sync_of_aware ht hr₁]
    exact ih hrs (ht.merge hr₁)

theorem Aware.mergeAll {t : Cooldown} {rules : List Rule} (ht : t.Aware)
    (hr : ∀ r ∈ rules, r.Aware) : (t.mergeAll rules).Aware := by
  induction rules generalizing t with
  | nil => exact ht
  | cons r rs ih =>
    exact ih (ht.merge (hr r (List.mem_cons_self ..))) fun q hq => hr q (List.mem_cons_of_mem _ hq)

theorem Counted.mergeAll {t : Cooldown} (ht : t.Counted) (rules : List Rule) :
    (t.mergeAll rules).Counted := by
  induction rules generalizing t with
  | nil => exact ht
  | cons r rs ih => exact ih (ht.merge r)

theorem mergeAll_of_not_mem {rules : List Rule} {id : Int} (h : ∀ r ∈ rules, r.id ≠ id)
    (t : Cooldown) : SameAt id (t.mergeAll rules) t := by
  induction rules generalizing t with
  | nil => exact .refl id t
  | cons r rs ih =>
    have hrs : ∀ q ∈ rs, q.id ≠ id := fun q hq => h q (List.mem_cons_of_mem _ hq)
    exact (ih hrs (t.merge r)).trans (merge_of_ne (h r (List.mem_cons_self ..)))

/-- Of rules with different numbers each is merged in on its own. -/
theorem mergeAll_of_mem {rules : List Rule} (hn : (rules.map (·.id)).Nodup) {r : Rule}
    (hr : r ∈ rules) (t : Cooldown) : SameAt r.id (t.mergeAll rules) (t.merge r) := by
  induction rules generalizing t with
  | nil => cases hr
  | cons q rs ih =>
    rw [List.map_cons, List.nodup_cons] at hn
    rcases List.mem_cons.1 hr with rfl | hr
    · refine mergeAll_of_not_mem (fun s hs hid => hn.1 ?_) (t.merge r)
      rw [← hid]
      exact List.mem_map_of_mem hs
    · have hq : q.id ≠ r.id := fun hid => hn.1 (hid ▸ List.mem_map_of_mem hr)
      exact (ih hn.2 hr (t.merge q)).trans (merge_of_ne hq).merge

/-! ### Merging in, whether or not it succeeds -/

section Sync

variable {rules : List Rule} {rule : Rule} {id : Int}

/-- Merging in the record of a rule touches nothing about others. -/
theorem sync_of_ne (h : rule.id ≠ id) (t : Cooldown) : SameAt id (t.sync rule).2 t := by
  have hput : ∀ {α : Type} (x : Table Int α) (a : α), (x.put rule.id a).get? id = x.get? id :=
    fun x a => (Table.get?_put ..).trans (if_neg h)
  unfold sync
  cases rule.lastTriggered with
  | none => exact ⟨rfl, hput _ _, hput _ _⟩
  | some m =>
    simp only [advance]
    cases later (t.last.get? rule.id) m with
    | error f => exact ⟨rfl, rfl, hput _ _⟩
    | ok l => exact ⟨hput _ _, hput _ _, hput _ _⟩

theorem syncAll_of_ne (h : ∀ rule ∈ rules, rule.id ≠ id) (t : Cooldown) :
    SameAt id (t.syncAll rules).2 t := by
  induction rules generalizing t with
  | nil => exact .refl id t
  | cons q rules ih =>
    rw [List.forall_mem_cons] at h
    have hq := sync_of_ne h.1 t
    unfold syncAll
    rcases hx : t.sync q with ⟨f | _, t'⟩
    · rw [hx] at hq
      exact hq
    · rw [hx] at hq
      exact (ih h.2 t').trans hq

end Sync

/-! ### Merging in and forgetting -/

/-- A tracker after the rules that are not of a round were forgotten. -/
def kept (t : Cooldown) (rules : List Rule) : Cooldown :=
  (t.known.filter fun id => !(rules.any fun r => r.id == id)).foldl forget t

/-- A tracker after the rules of a round were merged in and others forgotten. -/
def refreshed (t : Cooldown) (rules : List Rule) : Cooldown :=
  let gone := t.known.filter fun id => !(rules.any fun r => r.id == id)
  (gone.foldl forget t).mergeAll rules

theorem forgetAll_aware {t : Cooldown} (ht : t.Aware) (ks : List Int) :
    (ks.foldl forget t).Aware := by
  intro id m hm
  rw [(forgetAll_sameAt t ks id).last] at hm
  split at hm
  · cases hm
  · exact ht _ _ hm

theorem forgetAll_counted {t : Cooldown} (ht : t.Counted) (ks : List Int) :
    (ks.foldl forget t).Counted := by
  intro id hs
  rw [(forgetAll_sameAt t ks id).last] at hs
  rw [(forgetAll_sameAt t ks id).counts]
  split at hs
  · cases hs
  · rename_i hk
    rw [if_neg hk]
    exact ht id hs

theorem refresh_of_aware {t : Cooldown} {rules : List Rule} (ht : t.Aware)
    (hr : ∀ r ∈ rules, r.Aware) : t.refresh rules = (.ok (), t.refreshed rules) :=
  syncAll_of_aware hr (forgetAll_aware ht _)

/-- What is held about the rules of a round is not forgotten. -/
theorem forgetAll_of_mem {rules : List Rule} {r : Rule} (hr : r ∈ rules) (t : Cooldown) :
    SameAt r.id ((t.known.filter fun id => !(rules.any fun q => q.id == id)).foldl forget t) t := by
  have h := forgetAll_sameAt t (t.known.filter fun id => !(rules.any fun q => q.id == id)) r.id
  have hkept : r.id ∉ t.known.filter fun id => !(rules.any fun q => q.id == id) := by
    rw [List.mem_filter]
    rintro ⟨_, hany⟩
    rw [Bool.not_eq_true', List.any_eq_false] at hany
    exact hany r hr (by simp)
  rwa [if_neg hkept] at h

theorem refreshed_of_mem {rules : List Rule} (hn : (rules.map (·.id)).Nodup) {r : Rule}
    (hr : r ∈ rules) (t : Cooldown) : SameAt r.id (t.refreshed rules) (t.merge r) :=
  (mergeAll_of_mem hn hr _).trans (forgetAll_of_mem hr t).merge

theorem mem_known {t : Cooldown} {id : Int} :
    id ∈ t.known ↔ (t.minutes.get? id).isSome ∨ (t.counts.get? id).isSome := by
  unfold known
  rw [List.mem_append, Option.isSome_iff_ne_none, Option.isSome_iff_ne_none, ne_eq, ne_eq,
    Table.get?_eq_none_iff, Table.get?_eq_none_iff, Decidable.not_not, Decidable.not_not]

theorem SameAt.mem_known {t u : Cooldown} {id : Int} (h : SameAt id t u) :
    id ∈ t.known ↔ id ∈ u.known := by
  rw [Cooldown.mem_known, Cooldown.mem_known, h.minutes, h.counts]

/-- What was known about a rule that is not of the round is dropped. -/
theorem kept_of_not_mem {rules : List Rule} {id : Int} (h : ∀ r ∈ rules, r.id ≠ id)
    (t : Cooldown) : SameAt id (t.kept rules) (if id ∈ t.known then {} else t) := by
  have hgone : id ∈ t.known.filter (fun k => !(rules.any fun r => r.id == k)) ↔ id ∈ t.known := by
    rw [List.mem_filter]
    refine ⟨fun hm => hm.1, fun hm => ⟨hm, ?_⟩⟩
    rw [Bool.not_eq_true', List.any_eq_false]
    exact fun r hr heq => h r hr (by simpa using heq)
  have hat := forgetAll_sameAt t (t.known.filter fun k => !(rules.any fun r => r.id == k)) id
  simp only [hgone] at hat
  exact hat

/-- Nothing is held any more about rules that are not of the round. -/
theorem not_holds_kept {t : Cooldown} (ht : t.Counted) {rules : List Rule} {id : Int}
    (h : ∀ r ∈ rules, r.id ≠ id) : ¬ (t.kept rules).Holds id := by
  rw [(kept_of_not_mem h t).holds]
  split
  · exact not_holds_empty id
  · rename_i hno
    rw [mem_known, not_or] at hno
    rintro (hl | hc | hm)
    · exact hno.2 (ht id hl)
    · exact hno.2 hc
    · exact hno.1 hm

theorem refreshed_of_not_mem {rules : List Rule} {id : Int} (h : ∀ r ∈ rules, r.id ≠ id)
    (t : Cooldown) : SameAt id (t.refreshed rules) (if id ∈ t.known then {} else t) :=
  (mergeAll_of_not_mem h _).trans (kept_of_not_mem h t)

/-- A load counts no trigger of a rule that it leaves out. -/
theorem refreshed_le_of_not_mem {rules : List Rule} {id : Int} (h : ∀ r ∈ rules, r.id ≠ id)
    (t : Cooldown) : (t.refreshed rules).triggerCount id ≤ t.triggerCount id := by
  rw [(refreshed_of_not_mem h t).triggerCount]
  split
  · exact Nat.zero_le _
  · exact Nat.le_refl _

theorem not_holds_refreshed {t : Cooldown} (ht : t.Counted) {rules : List Rule} {id : Int}
    (h : ∀ r ∈ rules, r.id ≠ id) : ¬ (t.refreshed rules).Holds id :=
  mt (mergeAll_of_not_mem h (t.kept rules)).holds.1 (not_holds_kept ht h)

theorem Aware.refreshed {t : Cooldown} {rules : List Rule} (ht : t.Aware)
    (hr : ∀ r ∈ rules, r.Aware) : (t.refreshed rules).Aware :=
  (forgetAll_aware ht _).mergeAll hr

theorem Counted.refreshed {t : Cooldown} (ht : t.Counted) (rules : List Rule) :
    (t.refreshed rules).Counted :=
  (forgetAll_counted ht _).mergeAll rules

/-! ## A mark -/

/-- A tracker with a trigger noted. -/
def marked (t : Cooldown) (id : Int) (now : Moment) : Cooldown :=
  { t with
    last := t.last.put id (latest (t.last.get? id) now)
    counts := t.counts.put id (t.triggerCount id + 1) }

theorem mark_of_aware {t : Cooldown} (ht : t.Aware) (id : Int) {now : Moment} (hn : now.Aware) :
    t.mark id now
      = .ok ((latest (t.last.get? id) now, t.triggerCount id + 1), t.marked id now) := by
  simp only [mark, later_of_aware (ht id) hn]
  rfl

theorem marked_last (t : Cooldown) (id : Int) (now : Moment) :
    (t.marked id now).last.get? id = some (latest (t.last.get? id) now) := by
  simp [marked, Table.get?_put]

theorem marked_counts (t : Cooldown) (id : Int) (now : Moment) :
    (t.marked id now).counts.get? id = some (t.triggerCount id + 1) := by
  simp [marked, Table.get?_put]

theorem marked_of_ne {t : Cooldown} {k id : Int} (now : Moment) (h : k ≠ id) :
    SameAt id (t.marked k now) t := by
  refine ⟨?_, ?_, rfl⟩ <;> simp [marked, Table.get?_put, h]

theorem SameAt.marked {t u : Cooldown} {id : Int} (h : SameAt id t u) (now : Moment) :
    SameAt id (t.marked id now) (u.marked id now) := by
  refine ⟨?_, ?_, h.minutes⟩
  · rw [marked_last, marked_last, h.last]
  · rw [marked_counts, marked_counts, h.triggerCount]

/-- A mark never moves a remembered time back. -/
theorem marked_forward {t : Cooldown} {k : Int} {m : Moment} (h : t.last.get? k = some m)
    (id : Int) (now : Moment) :
    ∃ m', (t.marked id now).last.get? k = some m' ∧ m.instant ≤ m'.instant := by
  by_cases hid : id = k
  · subst hid
    rw [marked_last, h]
    exact ⟨_, rfl, le_latest_of_some now⟩
  · rw [(marked_of_ne now hid).last]
    exact ⟨m, h, Int.le_refl _⟩

theorem Aware.marked {t : Cooldown} (ht : t.Aware) (id : Int) {now : Moment} (hn : now.Aware) :
    (t.marked id now).Aware := by
  intro k m hm
  by_cases h : id = k
  · subst h
    rw [marked_last] at hm
    cases hm
    exact latest_aware (ht id) hn
  · rw [(marked_of_ne now h).last] at hm
    exact ht _ _ hm

theorem Counted.marked {t : Cooldown} (ht : t.Counted) (id : Int) (now : Moment) :
    (t.marked id now).Counted := by
  intro k hs
  by_cases h : id = k
  · subst h
    rw [marked_counts]
    rfl
  · rw [(marked_of_ne now h).last] at hs
    rw [(marked_of_ne now h).counts]
    exact ht k hs

/-! ## Who may fire -/

theorem eligible_of_none {t : Cooldown} {id : Int} (h : t.last.get? id = none) (now : Moment) :
    t.eligible id now = .ok true := by
  simp [eligible, h]

/-- A rule that may fire has been silent for as long as it has to. -/
theorem silence_of_eligible {t : Cooldown} {id : Int} {now l : Moment} {n : Nat} {b : Bool}
    (hn : now.Aware) (hl : l.Aware) (ht : t.last.get? id = some l)
    (hm : t.minutes.get? id = some n) (h : t.eligible id now = .ok b) :
    b = decide (n * minute ≤ now.instant - l.instant) := by
  simp only [eligible, ht, silence, hm, Moment.minus_of_aware hn hl] at h
  cases hs : Span.ofMinutes? ((some n).getD 0 : Nat) with
  | error e =>
    rw [hs] at h
    cases h
  | ok span =>
    rw [hs] at h
    cases h
    rw [Span.ofMinutes?_eq_ok hs]
    rfl

end Cooldown

end Glasshouse
