/-
Glasshouse.Proofs.Engine.Balance — three accounts of the same triggers: the executions
in the store, the rows of the rules, and the tracker. Without deletion and
without lost records they agree after every stride of a history: the count of a
row is the number of its triggers, its time is the latest of theirs, and whatever
the tracker holds about a rule is what the row says. The invariant is `Balanced`;
a stride keeps it (`Stride.balanced`), and so does a history.
-/
import Glasshouse.Proofs.Engine.History

namespace Glasshouse

open Calendar

/-! ## Triggers among executions -/

/-- Whether an execution is a trigger: a success that was not suppressed. -/
def ExecutionRow.fired (e : ExecutionRow) : Bool := e.success && !e.suppressed

/-- The triggers of a rule among executions. -/
def triggersOf (es : List ExecutionRow) (id : Int) : List ExecutionRow :=
  es.filter fun e => e.ruleId == id && e.fired

/-- The time of the latest of some executions. -/
def latestOf (es : List ExecutionRow) : Option Instant := (es.map (·.triggeredAt)).max?

theorem triggersOf_concat (es : List ExecutionRow) (row : ExecutionRow) (id : Int) :
    triggersOf (es ++ [row]) id
      = if row.ruleId = id ∧ row.fired = true then triggersOf es id ++ [row]
        else triggersOf es id := by
  unfold triggersOf
  rw [List.filter_append]
  by_cases h : row.ruleId = id ∧ row.fired = true
  · rw [if_pos h, List.filter_cons_of_pos (by simp [h.1, h.2]), List.filter_nil]
  · rw [if_neg h, List.filter_cons_of_neg (by simpa using h), List.filter_nil, List.append_nil]

theorem latestOf_concat (es : List ExecutionRow) (row : ExecutionRow) :
    latestOf (es ++ [row]) = some (match latestOf es with
      | some t => max row.triggeredAt t
      | none => row.triggeredAt) := by
  unfold latestOf
  rw [List.map_append]
  cases es with
  | nil => rfl
  | cons e es =>
    simp only [List.map_cons, List.map_nil, List.cons_append, List.max?_cons', List.foldl_append,
      List.foldl_cons, List.foldl_nil]
    rw [Int.max_comm]

/-- Where what is suppressed counts as a success, the triggers are the successes that
remain without the suppressed. -/
theorem countP_success {es : List ExecutionRow} (h : ∀ e ∈ es, e.suppressed = true → e.success = true) :
    es.countP (·.success) = es.countP ExecutionRow.fired + es.countP (·.suppressed) := by
  induction es with
  | nil => rfl
  | cons e es ih =>
    have hes := ih fun x hx => h x (List.mem_cons_of_mem _ hx)
    have he := h e (List.mem_cons_self ..)
    simp only [List.countP_cons, hes, ExecutionRow.fired]
    by_cases hs : e.success = true
    · by_cases hp : e.suppressed = true
      · simp [hs, hp]
        omega
      · simp [hs, hp]
        omega
    · have hp : ¬ e.suppressed = true := fun hp => hs (he hp)
      simp [hs, hp]

/-! ## The accounts agree -/

/-- The tracker holds about a rule what its row says. -/
structure Cooldown.Mirrors (t : Cooldown) (row : RuleRow) : Prop where
  last : t.last.get? row.id = row.lastTriggered.map Moment.ofInstant
  count : (t.triggerCount row.id : Int) = row.triggerCount

/-- Executions are of rules that there are, what is suppressed counts as a success, and
times lie in the calendar. -/
structure Filed (b : Books) : Prop where
  fits : ∀ row ∈ b.rules, Store.fits row.id = true
  owned : ∀ e ∈ b.executions, e.ruleId ∈ b.ids
  sound : ∀ e ∈ b.executions, e.suppressed = true → e.success = true
  dated : ∀ e ∈ b.executions, inCalendar e.triggeredAt = true

/-- The three accounts of triggers agree. -/
structure Balanced (b : Books) : Prop extends Filed b where
  count : ∀ row ∈ b.rules, row.triggerCount = (triggersOf b.executions row.id).length
  last : ∀ row ∈ b.rules, row.lastTriggered = latestOf (triggersOf b.executions row.id)
  tracker : ∀ id, b.cooldowns.Holds id → ∃ row ∈ b.rules, row.id = id ∧ b.cooldowns.Mirrors row

namespace Cooldown

/-- Merging in the record of a row makes the tracker say what the row says, if it said
so before or held nothing. -/
theorem mirrors_merge {t : Cooldown} {rule : Rule} {row : RuleRow} (hof : rule.IsOf row)
    (h : t.Holds row.id → t.Mirrors row) : (t.merge rule).Mirrors row := by
  have hcount := hof.count
  have hmerged : (t.merge rule).triggerCount row.id
      = max (t.triggerCount row.id) rule.triggerCount := hof.id ▸ merge_triggerCount t rule
  by_cases hh : t.Holds row.id
  · obtain ⟨hlast, hn⟩ := h hh
    refine ⟨?_, by omega⟩
    rw [← hof.id, merge_last, hof.last, hof.id, hlast]
    cases row.lastTriggered with
    | none => rfl
    | some i => simp [latest]
  · have hnone := sameAt_empty_iff.2 hh
    have hz : t.triggerCount row.id = 0 := hnone.triggerCount
    refine ⟨?_, by omega⟩
    rw [← hof.id, merge_last, hof.last, hof.id, hnone.last]
    cases row.lastTriggered with
    | none => rfl
    | some i => rfl

theorem SameAt.mirrors {t u : Cooldown} {row : RuleRow} (h : SameAt row.id t u)
    (hm : u.Mirrors row) : t.Mirrors row :=
  ⟨h.last.trans hm.last, by rw [h.triggerCount]; exact hm.count⟩

/-- The later of a stored time and a time of universal time is a time of universal time. -/
theorem latest_map_ofInstant (stored : Option Instant) {now : Moment} (hn : now.Utc) :
    latest (stored.map Moment.ofInstant) now = .ofInstant (match stored with
      | some j => max now.instant j
      | none => now.instant) := by
  cases stored with
  | none => exact hn.eq_ofInstant
  | some j =>
    simp only [latest, Option.map_some, Moment.instant_ofInstant]
    split
    · rw [Int.max_eq_left (by omega)]
      exact hn.eq_ofInstant
    · rw [Int.max_eq_right (by omega)]

end Cooldown

/-- Rows may change as long as they keep their numbers. -/
theorem Filed.update {b : Books} (h : Filed b) (id : Int) (f : RuleRow → RuleRow)
    (hf : ∀ r, (f r).id = r.id) : Filed (b.update id f) := by
  refine ⟨fun row hrow => ?_, fun e he => ?_, h.sound, h.dated⟩
  · rcases Books.mem_update hrow with ⟨hold, _⟩ | ⟨old, hold, _, rfl⟩
    · exact h.fits row hold
    · rw [hf]
      exact h.fits old hold
  · rw [Books.ids_update b id f hf]
    exact h.owned e he

/-- One more execution is filed. -/
theorem Filed.write {b : Books} (h : Filed b) {x : Execution} {row : ExecutionRow}
    (hof : row.IsOf x) (hid : x.ruleId ∈ b.ids) (hx : x.suppressed = true → x.success = true) :
    Filed (b.write row) := by
  refine ⟨h.fits, ?_, ?_, ?_⟩
  · intro e he
    rcases List.mem_append.1 he with he | he
    · exact h.owned e he
    · rw [List.mem_singleton.1 he, hof.ruleId]
      exact hid
  · intro e he
    rcases List.mem_append.1 he with he | he
    · exact h.sound e he
    · rw [List.mem_singleton.1 he, hof.success, hof.suppressed]
      exact hx
  · intro e he
    rcases List.mem_append.1 he with he | he
    · exact h.dated e he
    · rw [List.mem_singleton.1 he]
      obtain ⟨hin, hi⟩ := Moment.toInstant_eq_ok.1 hof.time
      exact hi ▸ hin

namespace Balanced

variable {b b' : Books}

/-- Books that say the same about rules, executions and the tracker agree alike. -/
theorem congr (h : Balanced b) (hr : b'.rules = b.rules) (hx : b'.executions = b.executions)
    (hc : b'.cooldowns = b.cooldowns) : Balanced b' := by
  obtain ⟨rules, executions, cooldowns⟩ := b'
  cases hr
  cases hx
  cases hc
  exact ⟨⟨h.fits, h.owned, h.sound, h.dated⟩, h.count, h.last, h.tracker⟩

/-- Whatever is done to the tracker, as long as it says what rows say. -/
theorem track (h : Balanced b) {c : Cooldown}
    (hc : ∀ id, c.Holds id → ∃ row ∈ b.rules, row.id = id ∧ c.Mirrors row) :
    Balanced (b.track c) :=
  ⟨⟨h.fits, h.owned, h.sound, h.dated⟩, h.count, h.last, hc⟩

theorem mirrors (h : Balanced b) (hn : b.ids.Nodup) {row : RuleRow} (hrow : row ∈ b.rules)
    (hh : b.cooldowns.Holds row.id) : b.cooldowns.Mirrors row := by
  obtain ⟨q, hq, hid, hm⟩ := h.tracker row.id hh
  rwa [Books.eq_of_id hn hq hrow hid] at hm

/-- Merging in the record of a row keeps the accounts in agreement. -/
theorem merge (h : Balanced b) (hn : b.ids.Nodup) {rule : Rule} {row : RuleRow}
    (hrow : row ∈ b.rules) (hof : rule.IsOf row) : Balanced (b.track (b.cooldowns.merge rule)) := by
  refine h.track fun id hh => ?_
  by_cases hid : rule.id = id
  · exact ⟨row, hrow, hof.id.symm.trans hid, Cooldown.mirrors_merge hof (h.mirrors hn hrow)⟩
  · have hat := Cooldown.merge_of_ne (t := b.cooldowns) hid
    obtain ⟨q, hq, hqid, hm⟩ := h.tracker id (hat.holds.1 hh)
    subst hqid
    exact ⟨q, hq, rfl, hat.mirrors hm⟩

/-- So does a round. -/
theorem refresh (h : Balanced b) (hn : b.ids.Nodup) {rules : List Rule}
    (rows : ∀ rule ∈ rules, ∃ row ∈ b.rules, row.toRule = .ok rule)
    (nodup : (rules.map (·.id)).Nodup) : Balanced (b.track (b.cooldowns.refreshed rules)) := by
  refine h.track fun id hh => ?_
  by_cases hmem : ∃ rule ∈ rules, rule.id = id
  · obtain ⟨rule, hrule, rfl⟩ := hmem
    obtain ⟨row, hrow, hbuilt⟩ := rows rule hrule
    have hof := RuleRow.isOf_of_toRule hbuilt
    have hat := Cooldown.refreshed_of_mem nodup hrule b.cooldowns
    rw [hof.id] at hat
    exact ⟨row, hrow, hof.id.symm, hat.mirrors (Cooldown.mirrors_merge hof (h.mirrors hn hrow))⟩
  · have hnone : ∀ rule ∈ rules, rule.id ≠ id := fun rule hr hid => hmem ⟨rule, hr, hid⟩
    have hat := Cooldown.refreshed_of_not_mem hnone b.cooldowns
    split at hat
    · exact absurd (hat.holds.1 hh) (Cooldown.not_holds_empty id)
    · obtain ⟨q, hq, hqid, hm⟩ := h.tracker id (hat.holds.1 hh)
      subst hqid
      exact ⟨q, hq, rfl, hat.mirrors hm⟩

/-- An execution that is no trigger leaves the accounts in agreement. -/
theorem write_quiet (h : Balanced b) {x : Execution} {row : ExecutionRow} (hof : row.IsOf x)
    (hid : x.ruleId ∈ b.ids) (same : x.success = x.suppressed) : Balanced (b.write row) := by
  have hquiet : row.fired = false := by
    rw [ExecutionRow.fired, hof.success, hof.suppressed, same]
    cases x.suppressed <;> rfl
  have htriggers : ∀ id, triggersOf (b.write row).executions id = triggersOf b.executions id := by
    intro id
    show triggersOf (b.executions ++ [row]) id = _
    rw [triggersOf_concat, if_neg (by simp [hquiet])]
  refine ⟨h.toFiled.write hof hid fun hp => same.trans hp, ?_, ?_, h.tracker⟩
  · intro r hr
    rw [htriggers]
    exact h.count r hr
  · intro r hr
    rw [htriggers]
    exact h.last r hr

/-- What is noted with a row that the tracker mirrors: the time of the trigger unless the
row has a later one, and one more trigger. -/
theorem noted_mirrored {t : Cooldown} {row : RuleRow} (hm : t.Mirrors row) {now : Moment}
    (utc : now.Utc) :
    row.noted (Cooldown.latest (t.last.get? row.id) now).instant (t.triggerCount row.id + 1 : Nat)
      = row.noted now.instant (row.triggerCount + 1) := by
  have hcount : ((t.triggerCount row.id + 1 : Nat) : Int) = row.triggerCount + 1 := by
    have := hm.count
    omega
  rw [hm.last, Cooldown.latest_map_ofInstant row.lastTriggered utc, Moment.instant_ofInstant,
    hcount]
  unfold RuleRow.noted
  cases row.lastTriggered with
  | none => rfl
  | some j => simp only [Int.max_assoc, Int.max_self]

/-- After a trigger the tracker mirrors the row in which it was noted. -/
theorem marked_mirrors {t : Cooldown} {row : RuleRow} (hm : t.Mirrors row) {now : Moment}
    (utc : now.Utc) :
    (t.marked row.id now).Mirrors (row.noted now.instant (row.triggerCount + 1)) := by
  refine ⟨?_, ?_⟩
  · show (t.marked row.id now).last.get? row.id = _
    rw [Cooldown.marked_last, hm.last, Cooldown.latest_map_ofInstant row.lastTriggered utc]
    rfl
  · show ((t.marked row.id now).triggerCount row.id : Int) = max row.triggerCount _
    unfold Cooldown.triggerCount
    rw [Cooldown.marked_counts, Option.getD_some]
    have := hm.count
    omega

/-- After a trigger was noted with its row, the tracker still says what the rows say. -/
theorem tracker_marked (h : Balanced b) {own : RuleRow} (hown : own ∈ b.rules)
    (hm : b.cooldowns.Mirrors own) {now : Moment} (utc : now.Utc) {f : RuleRow → RuleRow}
    (noted : f own = own.noted now.instant (own.triggerCount + 1)) (id : Int)
    (hh : (b.cooldowns.marked own.id now).Holds id) :
    ∃ row ∈ (b.update own.id f).rules, row.id = id
      ∧ (b.cooldowns.marked own.id now).Mirrors row := by
  by_cases hid : own.id = id
  · subst hid
    refine ⟨_, List.mem_map_of_mem hown, ?_⟩
    rw [if_pos (beq_self_eq_true own.id), noted]
    exact ⟨rfl, marked_mirrors hm utc⟩
  · have hat := Cooldown.marked_of_ne (t := b.cooldowns) now hid
    obtain ⟨q, hq, hqid, hqm⟩ := h.tracker id (hat.holds.1 hh)
    subst hqid
    refine ⟨q, List.mem_map.2 ⟨q, hq, ?_⟩, rfl, hat.mirrors hqm⟩
    rw [if_neg (by simpa using Ne.symm hid)]

/-- Where a function that keeps the numbers is applied to one row, the rows are those with
other numbers and what becomes of that row. -/
theorem rows_update (hn : b.ids.Nodup) {own : RuleRow} (hown : own ∈ b.rules)
    (f : RuleRow → RuleRow) : ∀ r ∈ (b.update own.id f).rules,
      (r ∈ b.rules ∧ r.id ≠ own.id) ∨ r = f own := by
  intro r hr
  rcases Books.mem_update hr with hold | ⟨old, hold, hid, rfl⟩
  · exact .inl hold
  · exact .inr (congrArg f (Books.eq_of_id hn hold hown hid))

/-- A trigger that is noted in all three accounts leaves them in agreement. -/
theorem trigger (h : Balanced b) (hn : b.ids.Nodup) {x : Execution} {row : ExecutionRow}
    (hof : row.IsOf x) (success : x.success = true) (fired : x.suppressed = false)
    (utc : x.triggeredAt.Utc) (hh : b.cooldowns.Holds x.ruleId) :
    Balanced (((b.track (b.cooldowns.marked x.ruleId x.triggeredAt)).update x.ruleId
      (RuleRow.noted (Cooldown.latest (b.cooldowns.last.get? x.ruleId) x.triggeredAt).instant
        (b.cooldowns.triggerCount x.ruleId + 1 : Nat))).write row) := by
  obtain ⟨own, hown, hid, hm⟩ := h.tracker x.ruleId hh
  obtain ⟨_, htime⟩ := Moment.toInstant_eq_ok.1 hof.time
  have hrid : row.ruleId = own.id := by rw [hof.ruleId, hid]
  have hfired : row.fired = true := by
    simp [ExecutionRow.fired, hof.success, hof.suppressed, success, fired]
  have hnoted := noted_mirrored hm utc
  rw [← hid]
  generalize hf : RuleRow.noted (Cooldown.latest (b.cooldowns.last.get? own.id) x.triggeredAt).instant
    (b.cooldowns.triggerCount own.id + 1 : Nat) = f at hnoted ⊢
  have hfid : ∀ r, (f r).id = r.id := by
    rw [← hf]
    exact fun _ => rfl
  have hrows := rows_update hn hown f
  rw [hnoted] at hrows
  have hother : ∀ r : RuleRow, r.id ≠ own.id →
      triggersOf (b.executions ++ [row]) r.id = triggersOf b.executions r.id := by
    intro r hr
    rw [triggersOf_concat, if_neg fun h => hr (h.1.symm.trans hrid)]
  have hsame : triggersOf (b.executions ++ [row]) own.id
      = triggersOf b.executions own.id ++ [row] := by
    rw [triggersOf_concat, if_pos ⟨hrid, hfired⟩]
  refine ⟨?_, ?_, ?_, h.tracker_marked hown hm utc hnoted⟩
  · have hfiled : Filed (b.track (b.cooldowns.marked own.id x.triggeredAt)) :=
      ⟨h.fits, h.owned, h.sound, h.dated⟩
    refine (hfiled.update own.id f hfid).write hof ?_ (by simp [fired])
    rw [Books.ids_update _ _ _ hfid, ← hid]
    exact List.mem_map_of_mem hown
  · intro r hr
    rcases hrows r hr with ⟨hold, hne⟩ | rfl
    · exact (h.count r hold).trans (congrArg (fun l => (List.length l : Int)) (hother r hne).symm)
    · show max own.triggerCount _ = ((triggersOf (b.executions ++ [row]) own.id).length : Int)
      have hcount := h.count own hown
      rw [hsame, List.length_append, List.length_singleton]
      omega
  · intro r hr
    rcases hrows r hr with ⟨hold, hne⟩ | rfl
    · exact (h.last r hold).trans (congrArg latestOf (hother r hne).symm)
    · show some _ = latestOf (triggersOf (b.executions ++ [row]) own.id)
      have hlatest := latestOf_concat (triggersOf b.executions own.id) row
      rw [← hsame, ← h.last own hown, ← htime] at hlatest
      exact hlatest.symm

/-- Looking at a rule that the tracker has taken over keeps the accounts in agreement,
if no record is lost. -/
theorem effect (h : Balanced b) (hn : b.ids.Nodup) {id : Int} {now : Moment} {r : Report}
    (he : Engine.Effect id now b r b') (utc : now.Utc) (hh : b.cooldowns.Holds id)
    (lost : b'.lost = b.lost) : Balanced b' := by
  cases he with
  | nothing e => exact h.congr rfl rfl rfl
  | quiet _ ruleId _ same record =>
    rcases record with rfl | ⟨row, hof, rfl⟩
    · exact absurd lost (Nat.succ_ne_self _)
    · obtain ⟨own, hown, hid, _⟩ := h.tracker id hh
      have hids : id ∈ b.ids := hid ▸ List.mem_map_of_mem hown
      have hlooked : Balanced b.looked := h.congr rfl rfl rfl
      exact hlooked.write_quiet hof (ruleId ▸ hids) same
  | @trigger x noted b₁ _ ruleId time success fired note record =>
    rcases record with rfl | ⟨row, hof, rfl⟩
    · have hle : b.lost ≤ b₁.lost := note.lost_le
      have hlost : b₁.lost + 1 = b.lost := lost
      omega
    · rcases note with ⟨_, rfl⟩ | ⟨_, i, hi, rfl⟩
      · exact absurd lost (Nat.succ_ne_self _)
      · obtain ⟨_, rfl⟩ := Moment.toInstant_eq_ok.1 hi
        subst ruleId
        subst time
        have hlooked : Balanced b.looked := h.congr rfl rfl rfl
        exact hlooked.trigger hn hof success fired utc hh

/-- Rules switched on or off keep their accounts. -/
theorem switch (h : Balanced b) (id : Int) (on : Bool) :
    Balanced (b.update id (RuleRow.switched on)) := by
  have hrows : ∀ row ∈ (b.update id (RuleRow.switched on)).rules,
      ∃ old ∈ b.rules, row.id = old.id ∧ row.triggerCount = old.triggerCount
        ∧ row.lastTriggered = old.lastTriggered := by
    intro row hrow
    rcases Books.mem_update hrow with ⟨hold, _⟩ | ⟨old, hold, _, rfl⟩
    · exact ⟨row, hold, rfl, rfl, rfl⟩
    · exact ⟨old, hold, rfl, rfl, rfl⟩
  refine ⟨h.toFiled.update id _ fun _ => rfl, fun row hrow => ?_, fun row hrow => ?_, fun k hk => ?_⟩
  · obtain ⟨old, hold, hid, hcount, _⟩ := hrows row hrow
    rw [hid, hcount]
    exact h.count old hold
  · obtain ⟨old, hold, hid, _, hlast⟩ := hrows row hrow
    rw [hid, hlast]
    exact h.last old hold
  · obtain ⟨q, hq, hqid, hm⟩ := h.tracker k hk
    refine ⟨_, List.mem_map_of_mem hq, ?_⟩
    split
    · exact ⟨hqid, hm.last, hm.count⟩
    · exact ⟨hqid, hm⟩

/-- A new rule without a history has no executions of its number. -/
theorem create (h : Balanced b) {row : RuleRow} (new : row.id ∉ b.ids)
    (fits : Store.fits row.id = true) (last : row.lastTriggered = none)
    (count : row.triggerCount = 0) : Balanced { b with rules := b.rules ++ [row] } := by
  have hnone : triggersOf b.executions row.id = [] := by
    unfold triggersOf
    rw [List.filter_eq_nil_iff]
    intro x hx hrow
    rw [Bool.and_eq_true, beq_iff_eq] at hrow
    exact new (hrow.1 ▸ h.owned x hx)
  have hrows : ∀ r ∈ b.rules ++ [row], r ∈ b.rules ∨ r = row := by
    intro r hr
    exact (List.mem_append.1 hr).imp_right List.mem_singleton.1
  refine ⟨⟨fun r hr => ?_, fun x hx => ?_, h.sound, h.dated⟩, fun r hr => ?_, fun r hr => ?_,
    fun k hk => ?_⟩
  · rcases hrows r hr with hold | rfl
    · exact h.fits r hold
    · exact fits
  · show x.ruleId ∈ List.map _ (_ ++ _)
    rw [List.map_append]
    exact List.mem_append_left _ (h.owned x hx)
  · rcases hrows r hr with hold | rfl
    · exact h.count r hold
    · rw [hnone, count]
      rfl
  · rcases hrows r hr with hold | rfl
    · exact h.last r hold
    · rw [hnone, last]
      rfl
  · obtain ⟨q, hq, hqm⟩ := h.tracker k hk
    exact ⟨q, List.mem_append_left _ hq, hqm⟩

end Balanced

/-- A stride that loses no record keeps the accounts in agreement. -/
theorem Stride.balanced {T : Terms} (hT : ∀ m, T.clock m → m.Utc) (hd : ¬ T.deletes)
    (hw : ¬ T.waits) {b b' : Books} {e : Option Entry} (h : Stride T b e b') (hs : b.Sane T)
    (hb : Balanced b) (lost : b'.lost = b.lost) : Balanced b' := by
  have haware : ∀ m, T.clock m → m.Aware := fun m hm => (hT m hm).aware
  cases h with
  | around _ => exact hb.congr rfl rfl rfl
  | refuse n => exact hb.congr rfl rfl rfl
  | switch id on => exact hb.switch id on
  | create new fits last count => exact hb.create new fits last count
  | delete id allowed => exact absurd allowed hd
  | load _ rows nodup => exact hb.refresh hs.nodup rows nodup
  | look ready course =>
    have he := course.effect hs.aware (haware _ hs.clock)
    exact hb.effect hs.nodup he (hT _ hs.clock) (.inr (.inr (by rw [ready.minutes]; rfl))) lost
  | @manual rule row _ _ _ stored id current aware course =>
    have hof := RuleRow.isOf_of_toRule (current.resolve_right hw)
    have hm := hb.merge hs.nodup stored hof
    have he := course.effect (hs.aware.merge aware) (haware _ hs.clock)
    exact hm.effect hs.nodup he (hT _ hs.clock) (Cooldown.holds_merge b.cooldowns rule) lost

/-- A chain that loses no record keeps the accounts in agreement. -/
theorem Chain.balanced {T : Terms} (hT : ∀ m, T.clock m → m.Utc) (hd : ¬ T.deletes)
    (hw : ¬ T.waits) {b b' : Books} {es : List Entry} (h : Chain T b es b') (hs : b.Sane T)
    (hb : Balanced b) (lost : b'.lost = b.lost) : Balanced b' := by
  induction h with
  | nil => exact hb
  | cons first rest ih =>
    have h₁ := first.lost_le
    have h₂ := rest.lost_le
    refine ih (first.sane (fun m hm => (hT m hm).aware) hs)
      (first.balanced hT hd hw hs hb (by omega)) (by omega)

end Glasshouse
