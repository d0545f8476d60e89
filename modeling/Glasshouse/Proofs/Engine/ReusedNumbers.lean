/-
Glasshouse.Proofs.Engine.ReusedNumbers — what a new rule takes over from rules before it.
The number of a deleted rule may be given again, and the tracker, which knows
rules by their numbers alone, drops what it holds about a number only in a tick
that loads rules without it. Until then a new rule inherits the silence and the
count of the rule that had its number before; of the executions it inherits
none. Main statement: `new_rule_inherits`.

Side conditions of the main statement. Histories begin without rules, on clocks with
an offset, and no trigger by hand waits (`Terms.changing`). The new rule is not
deleted in the history after it, and no record is lost over the whole.
-/
import Glasshouse.Proofs.Engine.Origin
import Glasshouse.Proofs.Engine.Spacing

namespace Glasshouse

open Calendar

/-! ## Before and after the first trigger -/

/-- Nothing of what counts for triggers of a rule changes. -/
structure Books.Untouched (id : Int) (b b' : Books) : Prop where
  stored : id ∈ b.ids → id ∈ b'.ids
  rows : ∀ row ∈ b'.rules, row.id = id → ∃ old ∈ b.rules, old.id = id
    ∧ row.cooldown = old.cooldown ∧ row.lastTriggered = old.lastTriggered
    ∧ row.triggerCount = old.triggerCount
  tracker : Cooldown.SameAt id b'.cooldowns b.cooldowns

theorem Books.Untouched.of_eq {id : Int} {b b' : Books} (hr : b'.rules = b.rules)
    (hc : Cooldown.SameAt id b'.cooldowns b.cooldowns) : Books.Untouched id b b' := by
  refine ⟨fun hid => ?_, fun row hrow hid => ?_, hc⟩
  · unfold Books.ids
    rw [hr]
    exact hid
  · exact ⟨row, hr ▸ hrow, hid, rfl, rfl, rfl⟩

/-- Looking at a rule touches no other rule, and this one only by a trigger. -/
theorem Engine.Effect.untouched {k : Int} {now : Moment} {b b' : Books} {r : Report}
    (h : Engine.Effect k now b r b') {id : Int}
    (other : ∀ y noted, r = .triggered y noted → y.ruleId ≠ id) : Books.Untouched id b b' := by
  have hids := h.ids_eq
  cases h with
  | nothing e => exact .of_eq rfl (.refl id _)
  | quiet _ _ _ _ record =>
    refine .of_eq record.same.1 ?_
    rw [record.same.2.1]
    exact .refl id _
  | @trigger x noted b₁ _ ruleId _ _ _ note record =>
    have hk : k ≠ id := ruleId ▸ other x noted rfl
    refine ⟨fun hid => hids ▸ hid, fun row hrow hid => ?_, ?_⟩
    · rw [record.same.1, note.same.2.2.2] at hrow
      refine ⟨row, ?_, hid, rfl, rfl, rfl⟩
      cases noted with
      | false => exact hrow
      | true =>
        rcases Books.mem_update hrow with ⟨hmem, _⟩ | ⟨old, _, hold, rfl⟩
        · exact hmem
        · exact absurd (hold.symm.trans hid) hk
    · rw [record.same.2.1, note.same.1]
      exact Cooldown.marked_of_ne now hk

/-- A trigger counts one more than the tracker had, and notes this with the rule. -/
theorem Engine.Effect.fired {id : Int} {now : Moment} {b b' : Books} {x : Execution}
    {noted : Bool} (h : Engine.Effect id now b (.triggered x noted) b') (lost : b'.lost = b.lost) :
    b'.cooldowns.triggerCount id = b.cooldowns.triggerCount id + 1
      ∧ ∀ row ∈ b'.rules, row.id = id → ∃ old ∈ b.rules, old.id = id
        ∧ row.triggerCount = max old.triggerCount (b.cooldowns.triggerCount id + 1 : Nat) := by
  cases h with
  | quiet report _ _ _ _ => rcases report with h | h <;> cases h
  | @trigger _ _ b₁ _ _ _ _ _ note record =>
    have hle : b₁.lost ≤ b'.lost := record.lost_le
    refine ⟨?_, fun row hrow hid => ?_⟩
    · rw [record.same.2.1, note.same.1]
      unfold Cooldown.triggerCount
      show ((b.cooldowns.marked id now).counts.get? id).getD 0 = _
      rw [Cooldown.marked_counts]
      rfl
    · rw [record.same.1] at hrow
      rcases note with ⟨_, rfl⟩ | ⟨_, i, _, rfl⟩
      · have hlost : b.lost + 1 ≤ b'.lost := hle
        omega
      · rcases Books.mem_update hrow with ⟨_, hne⟩ | ⟨old, hold, hk, rfl⟩
        · exact absurd hid hne
        · exact ⟨old, hold, hk, rfl⟩

/-- What a tracker holds about triggers of a number that a rule is given. -/
structure Inheritance where
  last : Option Moment
  count : Nat

/-- What a rule of this number would inherit. -/
def Cooldown.inheritance (t : Cooldown) (id : Int) : Inheritance :=
  ⟨t.lastTriggered id, t.triggerCount id⟩

/-- What is left of an inheritance after a log. -/
def Inheritance.after (h : Inheritance) (id : Int) (log : List Entry) : Inheritance :=
  if dropped id log then ⟨none, 0⟩ else h

theorem Inheritance.after_append (h : Inheritance) (id : Int) (es fs : List Entry) :
    h.after id (es ++ fs) = (h.after id es).after id fs := by
  unfold Inheritance.after
  rw [dropped_append]
  cases dropped id es <;> cases dropped id fs <;> rfl

theorem Cooldown.SameAt.inheritance {id : Int} {t u : Cooldown} (h : SameAt id t u) :
    t.inheritance id = u.inheritance id := by
  unfold Cooldown.inheritance
  rw [h.lastTriggered, h.triggerCount]

/-- A stored rule that has not been triggered: its row is as it was when it was new, and
whatever the tracker holds about its number it has inherited. -/
structure Books.Untriggered (b : Books) (id silence : Int) (h : Inheritance) : Prop where
  stored : id ∈ b.ids
  row : ∀ row ∈ b.rules, row.id = id →
    row.cooldown = silence ∧ row.lastTriggered = none ∧ row.triggerCount = 0
  inheritance : b.cooldowns.inheritance id = h

/-- A stored rule with a count, which the tracker has too if it holds anything about it. -/
structure Books.HasCount (b : Books) (id : Int) (count : Nat) : Prop where
  stored : id ∈ b.ids
  row : ∀ row ∈ b.rules, row.id = id → row.triggerCount = count
  tracker : b.cooldowns.Holds id → b.cooldowns.triggerCount id = count

section FirstTrigger

variable {b b' : Books} {id silence : Int} {g : Inheritance} {n : Nat}

theorem Books.Untriggered.untouched (h : b.Untriggered id silence g)
    (hu : Books.Untouched id b b') : b'.Untriggered id silence g := by
  refine ⟨hu.stored h.stored, fun row hrow hid => ?_, hu.tracker.inheritance.trans h.inheritance⟩
  obtain ⟨old, hold, hoid, hcool, hlast, hcount⟩ := hu.rows row hrow hid
  rw [hcool, hlast, hcount]
  exact h.row old hold hoid

theorem Books.HasCount.untouched (h : b.HasCount id n) (hu : Books.Untouched id b b') :
    b'.HasCount id n := by
  refine ⟨hu.stored h.stored, fun row hrow hid => ?_, fun hh => ?_⟩
  · obtain ⟨old, hold, hoid, _, _, hcount⟩ := hu.rows row hrow hid
    rw [hcount]
    exact h.row old hold hoid
  · rw [hu.tracker.triggerCount]
    exact h.tracker (hu.tracker.holds.1 hh)

/-- A record that was merged in adds nothing to what was inherited. -/
theorem Books.Untriggered.merge (h : b.Untriggered id silence g) {rule : Rule} {row : RuleRow}
    (hrow : row ∈ b.rules) (hof : rule.IsOf row) :
    (b.track (b.cooldowns.merge rule)).Untriggered id silence g := by
  by_cases hid : rule.id = id
  · subst hid
    obtain ⟨_, hnone, hzero⟩ := h.row row hrow hof.id.symm
    have hlast : (b.cooldowns.merge rule).lastTriggered rule.id
        = b.cooldowns.lastTriggered rule.id := by
      unfold Cooldown.lastTriggered
      rw [Cooldown.merge_last, hof.last, hnone]
      rfl
    have hcount : (b.cooldowns.merge rule).triggerCount rule.id
        = b.cooldowns.triggerCount rule.id := by
      have hrule := hof.count
      rw [Cooldown.merge_triggerCount]
      omega
    refine ⟨h.stored, h.row, ?_⟩
    show (b.cooldowns.merge rule).inheritance rule.id = g
    rw [← h.inheritance, Cooldown.inheritance, hlast, hcount]
    rfl
  · exact h.untouched (.of_eq rfl (Cooldown.merge_of_ne hid))

theorem Books.HasCount.merge (h : b.HasCount id n) {rule : Rule} {row : RuleRow}
    (hrow : row ∈ b.rules) (hof : rule.IsOf row) :
    (b.track (b.cooldowns.merge rule)).HasCount id n := by
  by_cases hid : rule.id = id
  · subst hid
    refine ⟨h.stored, h.row, fun _ => ?_⟩
    show (b.cooldowns.merge rule).triggerCount rule.id = n
    rw [Cooldown.merge_triggerCount]
    have hcount := hof.count
    have hstored := h.row row hrow hof.id.symm
    by_cases hh : b.cooldowns.Holds rule.id
    · have := h.tracker hh
      omega
    · have hz : b.cooldowns.triggerCount rule.id = 0 :=
        (Cooldown.sameAt_empty_iff.2 hh).triggerCount
      omega
  · exact h.untouched (.of_eq rfl (Cooldown.merge_of_ne hid))

/-- A tick that loads the rule keeps what was inherited, one that does not drops it. -/
theorem Books.Untriggered.load (h : b.Untriggered id silence g) (counted : b.cooldowns.Counted)
    {rules : List Rule} (rows : ∀ rule ∈ rules, ∃ row ∈ b.rules, row.toRule = .ok rule)
    (nodup : (rules.map (·.id)).Nodup) :
    ((∃ rule ∈ rules, rule.id = id) →
        (b.track (b.cooldowns.refreshed rules)).Untriggered id silence g)
      ∧ ((∀ rule ∈ rules, rule.id ≠ id) →
        (b.track (b.cooldowns.refreshed rules)).Untriggered id silence ⟨none, 0⟩) := by
  constructor
  · rintro ⟨rule, hrule, rfl⟩
    obtain ⟨row, hrow, hbuilt⟩ := rows rule hrule
    have hm := h.merge hrow (RuleRow.isOf_of_toRule hbuilt)
    exact hm.untouched (.of_eq rfl (Cooldown.refreshed_of_mem nodup hrule b.cooldowns))
  · intro hnone
    have hempty := Cooldown.sameAt_empty_iff.2 (Cooldown.not_holds_refreshed counted hnone)
    exact ⟨h.stored, h.row, hempty.inheritance⟩

theorem Books.HasCount.load (h : b.HasCount id n) (counted : b.cooldowns.Counted)
    {rules : List Rule} (rows : ∀ rule ∈ rules, ∃ row ∈ b.rules, row.toRule = .ok rule)
    (nodup : (rules.map (·.id)).Nodup) :
    (b.track (b.cooldowns.refreshed rules)).HasCount id n := by
  by_cases hmem : ∃ rule ∈ rules, rule.id = id
  · obtain ⟨rule, hrule, rfl⟩ := hmem
    obtain ⟨row, hrow, hbuilt⟩ := rows rule hrule
    have hm := h.merge hrow (RuleRow.isOf_of_toRule hbuilt)
    exact hm.untouched (.of_eq rfl (Cooldown.refreshed_of_mem nodup hrule b.cooldowns))
  · refine ⟨h.stored, h.row, fun hh => absurd hh ?_⟩
    exact Cooldown.not_holds_refreshed counted fun rule hrule hid => hmem ⟨rule, hrule, hid⟩

/-- The first trigger counts one more than was inherited. -/
theorem Books.Untriggered.trigger (h : b.Untriggered id silence g) {now : Moment} {x : Execution}
    {noted : Bool} (he : Engine.Effect id now b (.triggered x noted) b')
    (lost : b'.lost = b.lost) : b'.HasCount id (g.count + 1) := by
  obtain ⟨htracker, hrows⟩ := he.fired lost
  have hinherited : b.cooldowns.triggerCount id = g.count :=
    congrArg Inheritance.count h.inheritance
  refine ⟨he.ids_eq ▸ h.stored, fun row hrow hid => ?_, fun _ => by rw [htracker, hinherited]⟩
  obtain ⟨old, hold, hoid, hcount⟩ := hrows row hrow hid
  rw [hcount, (h.row old hold hoid).2.2, hinherited]
  omega

/-- Every further trigger counts one more. -/
theorem Books.HasCount.trigger (h : b.HasCount id n) {now : Moment} {x : Execution} {noted : Bool}
    (he : Engine.Effect id now b (.triggered x noted) b') (lost : b'.lost = b.lost)
    (hh : b.cooldowns.Holds id) : b'.HasCount id (n + 1) := by
  obtain ⟨htracker, hrows⟩ := he.fired lost
  refine ⟨he.ids_eq ▸ h.stored, fun row hrow hid => ?_, fun _ => by rw [htracker, h.tracker hh]⟩
  obtain ⟨old, hold, hoid, hcount⟩ := hrows row hrow hid
  rw [hcount, h.row old hold hoid, h.tracker hh]
  omega

/-- Looking at a rule that the tracker holds counts its triggers. -/
theorem Books.HasCount.effect (h : b.HasCount id n) {k : Int} {now : Moment} {r : Report}
    (he : Engine.Effect k now b r b') (lost : b'.lost = b.lost) (hh : b.cooldowns.Holds k)
    (byTick : Bool) : b'.HasCount id (n + triggers id [.looked byTick r]) := by
  by_cases hr : ∃ y noted, r = .triggered y noted ∧ y.ruleId = id
  · obtain ⟨y, noted, rfl, hy⟩ := hr
    have hk : k = id := he.ruleId.symm.trans hy
    subst hk
    have hone : triggers k [.looked byTick (.triggered y noted)] = 1 := by
      simp [triggers, Entry.tellsTrigger, hy]
    rw [hone]
    exact h.trigger he lost hh
  · have hzero : triggers id [.looked byTick r] = 0 := by
      refine List.countP_eq_zero.2 fun e hm => ?_
      rw [List.mem_singleton.1 hm]
      cases r with
      | triggered y noted => simpa [Entry.tellsTrigger] using fun hy => hr ⟨y, noted, rfl, hy⟩
      | _ => exact Bool.false_ne_true
    rw [hzero]
    exact h.untouched (he.untouched fun y noted hry hy => hr ⟨y, noted, hry, hy⟩)

end FirstTrigger

/-- A stride that neither loads rules nor looks at one touches no stored rule. -/
theorem Stride.untouched {T : Terms} {b b' : Books} {e : Option Entry} (h : Stride T b e b')
    {id : Int} (stored : id ∈ b.ids) (kept : e ≠ some (.deleted id))
    (hload : ∀ rules, e ≠ some (.loaded rules)) (hlook : ∀ t r, e ≠ some (.looked t r)) :
    Books.Untouched id b b' := by
  cases h with
  | around _ => exact .of_eq rfl (.refl id _)
  | refuse n => exact .of_eq rfl (.refl id _)
  | switch k on =>
    refine ⟨fun hid => ?_, fun row hrow hid => ?_, .refl id _⟩
    · rw [Books.ids_update b k (RuleRow.switched on) fun _ => rfl]
      exact hid
    · rcases Books.mem_update hrow with ⟨hmem, _⟩ | ⟨old, hold, _, rfl⟩
      · exact ⟨row, hmem, hid, rfl, rfl, rfl⟩
      · exact ⟨old, hold, hid, rfl, rfl, rfl⟩
  | @create new hnew _ _ _ =>
    refine ⟨fun hid => ?_, fun row hrow hid => ?_, .refl id _⟩
    · show id ∈ List.map _ (_ ++ _)
      rw [List.map_append]
      exact List.mem_append_left _ hid
    · rcases List.mem_append.1 hrow with hmem | hmem
      · exact ⟨row, hmem, hid, rfl, rfl, rfl⟩
      · rw [List.mem_singleton.1 hmem] at hid
        exact absurd (hid ▸ stored) hnew
  | delete k _ =>
    have hk : k ≠ id := fun hk => kept (by rw [hk])
    refine ⟨fun hid => ?_, fun row hrow hid => ?_, .refl id _⟩
    · obtain ⟨row, hrow, rfl⟩ := List.mem_map.1 hid
      refine List.mem_map_of_mem (List.mem_filter.2 ⟨hrow, ?_⟩)
      simpa using Ne.symm hk
    · exact ⟨row, (List.mem_filter.1 hrow).1, hid, rfl, rfl, rfl⟩
  | @load rules sorted _ _ _ => exact absurd rfl (hload sorted)
  | @look _ r _ _ _ => exact absurd rfl (hlook true r)
  | @manual _ _ _ r _ _ _ _ _ _ => exact absurd rfl (hlook false r)

section Chains

variable {T : Terms} (hT : ∀ m, T.clock m → m.Aware) (hw : ¬ T.waits) {b b' : Books}
  {id silence : Int} {g : Inheritance} {n : Nat}

include hT hw

/-- Until the first trigger of a rule a stride at most drops what it inherited. -/
theorem Stride.untriggered {e : Option Entry} (h : Stride T b e b') (hs : b.Sane T) (ht : b.Tidy)
    (hb : b.Untriggered id silence g) (kept : e ≠ some (.deleted id))
    (early : triggers id e.toList = 0) :
    b'.Untriggered id silence (g.after id e.toList) := by
  have quiet := h.untouched hb.stored kept
  have other : ∀ {t r}, e = some (.looked t r) →
      ∀ y noted, r = .triggered y noted → y.ruleId ≠ id := by
    rintro t _ rfl y noted rfl hy
    simp [triggers, Entry.tellsTrigger, hy] at early
  cases h with
  | around _ => exact hb.untouched (quiet (fun _ => nofun) fun _ _ => nofun)
  | refuse n => exact hb.untouched (quiet (fun _ => nofun) fun _ _ => nofun)
  | switch k on => exact hb.untouched (quiet (fun _ => nofun) fun _ _ => nofun)
  | create _ _ _ _ => exact hb.untouched (quiet (fun _ => nofun) fun _ _ => nofun)
  | delete k _ => exact hb.untouched (quiet (fun _ => nofun) fun _ _ => nofun)
  | @load rules sorted order rows nodup =>
    obtain ⟨hkeep, hdrop⟩ := hb.load ht.counted rows nodup
    by_cases hmem : ∃ rule ∈ rules, rule.id = id
    · have hd : dropped id [.loaded sorted] = false := by
        obtain ⟨rule, hr, hid⟩ := hmem
        simpa [dropped] using ⟨rule, order.mem_iff.2 hr, hid⟩
      simp only [Option.toList_some, Inheritance.after, hd]
      exact hkeep hmem
    · have hnone : ∀ rule ∈ rules, rule.id ≠ id := fun rule hr hid => hmem ⟨rule, hr, hid⟩
      have hd : dropped id [.loaded sorted] = true := by
        simpa [dropped] using fun rule hr => hnone rule (order.mem_iff.1 hr)
      simp only [Option.toList_some, Inheritance.after, hd]
      exact hdrop hnone
  | look _ course =>
    have he := course.effect hs.aware (hT _ hs.clock)
    exact hb.untouched (he.untouched (other rfl))
  | manual stored _ current aware course =>
    have he := course.effect (hs.aware.merge aware) (hT _ hs.clock)
    have hm := hb.merge stored (RuleRow.isOf_of_toRule (current.resolve_right hw))
    exact hm.untouched (he.untouched (other rfl))

theorem Chain.untriggered {es : List Entry} (h : Chain T b es b') (hs : b.Sane T) (ht : b.Tidy)
    (hb : b.Untriggered id silence g) (kept : .deleted id ∉ es) (early : triggers id es = 0) :
    b'.Untriggered id silence (g.after id es) := by
  induction h generalizing g with
  | nil => exact hb
  | @cons b b₁ b' e es first rest ih =>
    rw [List.mem_append, not_or] at kept
    rw [triggers_append] at early
    have hfirst := first.untriggered hT hw hs ht hb
      (fun he => kept.1 (by rw [he]; exact List.mem_singleton_self _)) (by omega)
    rw [Inheritance.after_append]
    exact ih (first.sane hT hs) (first.tidy hT hs ht) hfirst kept.2 (by omega)

/-- After the first trigger of a rule every stride counts its triggers. -/
theorem Stride.hasCount {e : Option Entry} (h : Stride T b e b') (hs : b.Sane T) (ht : b.Tidy)
    (hb : b.HasCount id n) (kept : e ≠ some (.deleted id)) (lost : b'.lost = b.lost) :
    b'.HasCount id (n + triggers id e.toList) := by
  have quiet := h.untouched hb.stored kept
  cases h with
  | around _ => exact hb.untouched (quiet (fun _ => nofun) fun _ _ => nofun)
  | refuse n => exact hb.untouched (quiet (fun _ => nofun) fun _ _ => nofun)
  | switch k on => exact hb.untouched (quiet (fun _ => nofun) fun _ _ => nofun)
  | create _ _ _ _ => exact hb.untouched (quiet (fun _ => nofun) fun _ _ => nofun)
  | delete k _ => exact hb.untouched (quiet (fun _ => nofun) fun _ _ => nofun)
  | load order rows nodup => exact hb.load ht.counted rows nodup
  | look ready course =>
    have he := course.effect hs.aware (hT _ hs.clock)
    exact hb.effect he lost (.inr (.inr (by rw [ready.minutes]; rfl))) true
  | @manual rule _ _ _ _ stored _ current aware course =>
    have he := course.effect (hs.aware.merge aware) (hT _ hs.clock)
    have hm := hb.merge stored (RuleRow.isOf_of_toRule (current.resolve_right hw))
    exact hm.effect he lost (Cooldown.holds_merge b.cooldowns rule) false

theorem Chain.hasCount {es : List Entry} (h : Chain T b es b') (hs : b.Sane T) (ht : b.Tidy)
    (hb : b.HasCount id n) (kept : .deleted id ∉ es) (lost : b'.lost = b.lost) :
    b'.HasCount id (n + triggers id es) := by
  induction h generalizing n with
  | nil => exact hb
  | @cons b b₁ b' e es first rest ih =>
    have h₁ := first.lost_le
    have h₂ := rest.lost_le
    rw [List.mem_append, not_or] at kept
    have hfirst := first.hasCount hT hw hs ht hb
      (fun he => kept.1 (by rw [he]; exact List.mem_singleton_self _)) (by omega)
    have hrest := ih (first.sane hT hs) (first.tidy hT hs ht) hfirst kept.2 (by omega)
    rw [triggers_append, ← Nat.add_assoc]
    exact hrest

/-- At its first trigger a rule gets a count. -/
theorem Stride.first {t : Bool} {x : Execution} {noted : Bool}
    (h : Stride T b (some (.looked t (.triggered x noted))) b') (hs : b.Sane T)
    (hb : b.Untriggered id silence g) (hx : x.ruleId = id) (lost : b'.lost = b.lost) :
    b'.HasCount id (g.count + 1) := by
  cases h with
  | look _ course =>
    have he := course.effect hs.aware (hT _ hs.clock)
    obtain rfl := he.ruleId.symm.trans hx
    exact hb.trigger he lost
  | manual stored _ current aware course =>
    have he := course.effect (hs.aware.merge aware) (hT _ hs.clock)
    obtain rfl := he.ruleId.symm.trans hx
    exact (hb.merge stored (RuleRow.isOf_of_toRule (current.resolve_right hw))).trigger he lost

end Chains

/-! ## What a new rule inherits -/

/-- A tick suppresses a rule that was not triggered yet if it has inherited a time since
which its silence has not passed, and carries out its actions only if it has not. -/
theorem Stride.inherits {T : Terms} (hT : ∀ m, T.clock m → m.Aware) {b b' : Books} {r : Report}
    (h : Stride T b (some (.looked true r)) b') (hs : b.Sane T) {id silence : Int} {g : Inheritance}
    (hb : b.Untriggered id silence g) {x : Execution} (hx : x.ruleId = id) :
    (r = .suppressed x → ∃ l, g.last = some l ∧ ¬ Spaced silence l x.triggeredAt)
      ∧ (r.dispatched? = some x → ∀ l, g.last = some l → Spaced silence l x.triggeredAt) := by
  cases h with
  | @look rule _ _ ready course =>
    have hlast : b.cooldowns.last.get? id = g.last := congrArg Inheritance.last hb.inheritance
    have hn : b.clock.Aware := hT _ hs.clock
    -- the decision of the tracker is about the inherited time and the silence of the row
    have spaced : rule.id = id → ∀ {l may}, g.last = some l →
        b.cooldowns.eligible rule.id b.clock = .ok may → (may = true ↔ Spaced silence l b.clock) := by
      rintro rfl l may hl hmay
      obtain ⟨row, hrow, hid⟩ := List.mem_map.1 hb.stored
      have hrule : b.cooldowns.last.get? rule.id = some l := hlast.trans hl
      have hcool : (rule.cooldown : Int) = silence :=
        (ready.row row hrow hid).1.trans (hb.row row hrow hid).1
      have hdecide := Cooldown.silence_of_eligible hn (hs.aware _ _ hrule) hrule ready.minutes hmay
      rw [hdecide, decide_eq_true_iff, hcool]
      unfold Spaced
      rw [Moment.minus_of_aware hn (hs.aware _ _ hrule)]
      simp
    constructor
    · rintro rfl
      cases course with
      | suppressed _ _ eligible _ =>
        have hid : rule.id = id := hx
        cases hl : g.last with
        | none =>
          rw [Cooldown.eligible_of_none (hid ▸ hlast.trans hl)] at eligible
          cases eligible
        | some l =>
          refine ⟨l, rfl, fun hsp => ?_⟩
          exact Bool.false_ne_true ((spaced hid hl eligible).2 hsp)
    · intro fired l hl
      obtain ⟨hxid, htime, hmay⟩ := course.dispatched fired
      have hmay := hmay.resolve_left Bool.false_ne_true
      rw [htime]
      exact (spaced (hxid.symm.trans hx) hl hmay).1 rfl

/-- Histories of one operation after the other, with deletion, on clocks with an offset. -/
def Terms.changing : Terms where
  clock := Moment.Aware
  deletes := True
  waits := False

theorem Terms.changing_fair : Terms.changing.Fair := ⟨fun _ h => h, False.elim⟩

theorem World.Fresh.tidy {w : World} (h : w.Fresh) : w.books.Tidy := by
  have hnone : w.books.executions = [] := h.executions
  have hempty : w.books.cooldowns = {} := h.cooldowns
  refine ⟨fun e he => ?_, fun id hid => ?_⟩
  · rw [hnone] at he
    cases he
  · rw [hempty] at hid
    cases hid

theorem World.Fresh.sourced {w : World} (h : w.Fresh) : w.books.Sourced [] := by
  intro id hh
  rw [show w.books.cooldowns = {} from h.cooldowns] at hh
  exact absurd hh (Cooldown.not_holds_empty id)

/-- A rule that is created is stored as its definition says, under a new number. -/
theorem create_step {d : Definition} {s s' : Scene} {row : RuleRow}
    (h : (Happening.create d).step s = ([.created row], s')) :
    row = .ofDefinition row.id d ∧ row.id ∉ s.world.books.ids ∧ s'.waiting = s.waiting
      ∧ s'.world.books = { s.world.books with rules := s.world.books.rules ++ [row] } := by
  have htold : told (fun row => [Entry.created row])
      (s.world.callStore .createRule fun t => t.createRule d).1 = [.created row] :=
    congrArg Prod.fst h
  have hs' : s' = { s with world := (s.world.callStore .createRule fun t => t.createRule d).2 } :=
    (congrArg Prod.snd h).symm
  subst hs'
  rcases World.books_callStore .createRule (fun t => t.createRule d) s.world with
    ⟨⟨e, he⟩, _⟩ | ⟨new, t, t', hf, hr, hx, hn, hb⟩
  · rw [he] at htold
    cases htold
  · rw [hn] at htold
    cases htold
    obtain ⟨hrow, _, rfl⟩ := Store.createRule_eq_ok hf
    have hnew := t.nextRule_not_mem
    rw [hr] at hnew
    simp only [hr, hx] at hb
    refine ⟨?_, ?_, rfl, hb⟩
    · rw [hrow]
      rfl
    · rw [hrow]
      exact hnew

/-- A rule that was just created has not been triggered, and has inherited what the
tracker held about its number. -/
theorem create_untriggered {d : Definition} {s s' : Scene} {row : RuleRow}
    (h : (Happening.create d).step s = ([.created row], s')) :
    s'.world.books.Untriggered row.id row.cooldown
      (s'.world.memory.cooldowns.inheritance row.id) := by
  obtain ⟨hrow, hnew, _, hbooks⟩ := create_step h
  refine ⟨?_, fun q hq hid => ?_, rfl⟩
  · unfold Books.ids
    rw [hbooks, List.map_append]
    exact List.mem_append_right _ (List.mem_singleton_self _)
  · rw [hbooks] at hq
    rcases List.mem_append.1 hq with hq | hq
    · exact absurd (hid ▸ List.mem_map_of_mem hq) hnew
    · rw [List.mem_singleton.1 hq, hrow]
      exact ⟨rfl, rfl, rfl⟩

/-- A rule that was just created has no executions. -/
theorem create_historyOf {d : Definition} {s s' : Scene} {row : RuleRow}
    (h : (Happening.create d).step s = ([.created row], s')) (owned : s.world.books.Owned) :
    s'.world.books.historyOf row.id = [] := by
  obtain ⟨_, hnew, _, hbooks⟩ := create_step h
  unfold Books.historyOf
  rw [hbooks, List.filter_eq_nil_iff]
  intro e he hid
  exact hnew (beq_iff_eq.1 hid ▸ owned e he)

/-- The tracker holds something about a new number only if it was deleted lately. -/
theorem create_inheritance {d : Definition} {s s' : Scene} {row : RuleRow}
    (h : (Happening.create d).step s = ([.created row], s')) {log : List Entry}
    (sourced : s.world.books.Sourced log)
    (heir : s'.world.memory.cooldowns.inheritance row.id ≠ ⟨none, 0⟩) : Lately row.id log := by
  obtain ⟨_, hnew, _, hbooks⟩ := create_step h
  have hsame : s'.world.memory.cooldowns = s.world.books.cooldowns :=
    congrArg Books.cooldowns hbooks
  rw [hsame] at heir
  by_cases hh : s.world.books.cooldowns.Holds row.id
  · exact (sourced row.id hh).resolve_left hnew
  · exact absurd (Cooldown.sameAt_empty_iff.2 hh).inheritance heir

/-- The count of a rule after a chain that began before its first trigger. -/
theorem Chain.count_of_untriggered {T : Terms} (hT : ∀ m, T.clock m → m.Aware) (hw : ¬ T.waits)
    {b b' : Books} {id silence : Int} {g : Inheritance} {log : List Entry} (h : Chain T b log b')
    (hs : b.Sane T) (ht : b.Tidy) (hb : b.Untriggered id silence g) (kept : .deleted id ∉ log)
    (lost : b'.lost = b.lost) {row : RuleRow} (hrow : row ∈ b'.rules) (hid : row.id = id) :
    (triggers id log = 0 → row.triggerCount = 0)
      ∧ ∀ early t x noted late, log = early ++ .looked t (.triggered x noted) :: late →
        triggers id early = 0 → x.ruleId = id →
        row.triggerCount = triggers id log + (g.after id early).count := by
  refine ⟨fun hnone => ((h.untriggered hT hw hs ht hb kept hnone).row row hrow hid).2.2, ?_⟩
  rintro early t x noted late rfl hearly hx
  rw [List.mem_append, List.mem_cons, not_or, not_or] at kept
  obtain ⟨m, n, hbefore, hfirst, hlate⟩ := h.split
  have h₁ := hbefore.lost_le
  have h₂ := hfirst.lost_le
  have h₃ := hlate.lost_le
  have hm := hbefore.sane hT hs
  have htm := hbefore.tidy hT hs ht
  have hbud := hbefore.untriggered hT hw hs ht hb kept.1 hearly
  have hcounts := hfirst.first hT hw hm hbud hx (by omega)
  have hend := hlate.hasCount hT hw (hfirst.sane hT hm) (hfirst.tidy hT hm htm) hcounts kept.2.2
    (by omega)
  have hone : triggers id (.looked t (.triggered x noted) :: late) = 1 + triggers id late := by
    simp [triggers, Entry.tellsTrigger, hx, Nat.add_comm]
  rw [hend.row row hrow hid, triggers_append, hearly, hone]
  omega

/-- A new rule inherits what the tracker holds about its number, until a tick loads rules
without it. The tracker holds something only if a rule of this number was deleted and no
tick has loaded rules since. Until its own first trigger the new rule is suppressed
exactly where an inherited time says so; all its executions were written for it; and
its count is that of its triggers, together with what it inherited at the first. -/
theorem new_rule_inherits {w : World} (fresh : w.Fresh) (aware : w.clock.Aware)
    {before after : List Happening} (terms : ∀ h ∈ before ++ after, h.Under .changing)
    {d : Definition} {row : RuleRow} {s : Scene}
    (created : (Happening.create d).step (live before ⟨w, []⟩).2 = ([.created row], s))
    (kept : .deleted row.id ∉ (live after s).1)
    (lost : (live after s).2.world.memory.lost = w.memory.lost) :
    (s.world.memory.cooldowns.inheritance row.id ≠ ⟨none, 0⟩ →
        Lately row.id (live before ⟨w, []⟩).1)
      ∧ (∀ early r late x, (live after s).1 = early ++ .looked true r :: late →
          triggers row.id early = 0 → x.ruleId = row.id →
          (r = .suppressed x → ∃ l,
            ((s.world.memory.cooldowns.inheritance row.id).after row.id early).last = some l
              ∧ ¬ Spaced row.cooldown l x.triggeredAt)
          ∧ (r.dispatched? = some x → ∀ l,
            ((s.world.memory.cooldowns.inheritance row.id).after row.id early).last = some l →
              Spaced row.cooldown l x.triggeredAt))
      ∧ List.Forall₂ ExecutionRow.IsOf ((live after s).2.world.books.historyOf row.id)
          (recorded row.id (live after s).1)
      ∧ ∃ stored, (live after s).2.world.store.rule? row.id = some stored
        ∧ (triggers row.id (live after s).1 = 0 → stored.triggerCount = 0)
        ∧ ∀ early t x noted late, (live after s).1 = early ++ .looked t (.triggered x noted) :: late →
          triggers row.id early = 0 → x.ruleId = row.id →
          stored.triggerCount = triggers row.id (live after s).1
            + ((s.world.memory.cooldowns.inheritance row.id).after row.id early).count := by
  have hbefore : ∀ h ∈ before, h.Under .changing := fun h hh => terms h (List.mem_append_left _ hh)
  have hafter : ∀ h ∈ after, h.Under .changing := fun h hh => terms h (List.mem_append_right _ hh)
  have hfair := Terms.changing_fair
  have hT := hfair.aware
  have hcreate : (Happening.create d).Under .changing := trivial
  have hw : ¬ Terms.changing.waits := id
  -- up to the creation
  have hstart : (Scene.mk w []).Sane .changing := fresh.sane aware
  have hpast := live_chain hfair hbefore hstart
  have hsane := live_sane hfair hbefore hstart
  have htidy := hpast.tidy hT hstart.books fresh.tidy
  have hsourced := hpast.sourced hT hstart.books fresh.tidy fresh.sourced
  -- from the creation on
  have hborn := (step_chain hfair hcreate hsane).1
  have hsane' := step_sane hfair hcreate hsane
  rw [created] at hborn hsane'
  have htidy' := hborn.tidy hT hsane.books htidy
  have hbud := create_untriggered created
  have hlife := live_chain hfair hafter hsane'
  have hlost : (live after s).2.world.books.lost = s.world.books.lost := by
    have h₁ := hpast.lost_le
    have h₂ := hborn.lost_le
    have h₃ := hlife.lost_le
    have hend : (live after s).2.world.books.lost = w.books.lost := lost
    exact Nat.le_antisymm (hend ▸ Nat.le_trans h₁ h₂) h₃
  refine ⟨create_inheritance created hsourced, ?_, ?_, ?_⟩
  · intro early r late x hlog hearly hx
    rw [hlog] at hlife kept
    obtain ⟨m, n, hchain, hlook, _⟩ := hlife.split
    have hkept : .deleted row.id ∉ early := fun hm => kept (List.mem_append_left _ hm)
    exact hlook.inherits hT (hchain.sane hT hsane'.books)
      (hchain.untriggered hT hw hsane'.books htidy' hbud hkept hearly) hx
  · obtain ⟨rows, hrows, hof⟩ := hlife.historyOf hT hsane'.books hlost kept
    rw [hrows, create_historyOf created htidy.owned, List.nil_append]
    exact hof
  · have hmem := hlife.mem_ids hT hsane'.books (fun hdel => absurd hdel kept) hbud.stored
    obtain ⟨stored, hstored, hid⟩ := List.mem_map.1 hmem
    refine ⟨stored, ?_,
      hlife.count_of_untriggered hT hw hsane'.books htidy' hbud kept hlost hstored hid⟩
    rw [← hid]
    exact Store.rule?_of_mem (hlife.sane hT hsane'.books).nodup hstored

/-- A rule fires and is deleted, and its number is given to a new rule before the next tick. -/
def Scene.again : Scene :=
  (live [.create .vent, .tick, .delete 1, .create .vent] ⟨.quiet 0, []⟩).2

/-- A log of the creation of the first rule. -/
def createsFirst : List Entry → Bool
  | [.created row] => row.id == 1
  | _ => false

theorem create_again : ∃ row, row.id = 1
    ∧ (Happening.create .vent).step (live [.create .vent, .tick, .delete 1] ⟨.quiet 0, []⟩).2
      = ([.created row], .again) := by
  have shape : createsFirst ((Happening.create .vent).step
      (live [.create .vent, .tick, .delete 1] ⟨.quiet 0, []⟩).2).1 = true := by
    decide +kernel
  unfold createsFirst at shape
  split at shape
  · rename_i row hrow
    exact ⟨row, beq_iff_eq.1 shape, Prod.ext hrow rfl⟩
  · exact absurd shape Bool.false_ne_true

/-- A log of a tick that suppresses the first rule, and of its trigger by hand. -/
def firesByHand : List Entry → Bool
  | [.loaded rules, .looked true (.suppressed x), .looked false (.triggered y true)] =>
    !dropped 1 [.loaded rules] && x.ruleId == 1 && y.ruleId == 1
  | _ => false

/-- What the next tick and a trigger by hand tell of the new rule. -/
theorem live_again : ∃ rules x y,
    (live [.tick, .trigger 1 false] .again).1
        = [.loaded rules, .looked true (.suppressed x), .looked false (.triggered y true)]
      ∧ dropped 1 [.loaded rules] = false ∧ x.ruleId = 1 ∧ y.ruleId = 1 := by
  have shape : firesByHand (live [.tick, .trigger 1 false] .again).1 = true := by
    decide +kernel
  unfold firesByHand at shape
  split at shape
  · rename_i rules x y hlog
    simp only [Bool.and_eq_true, Bool.not_eq_true', beq_iff_eq] at shape
    exact ⟨rules, x, y, hlog, shape.1.1, shape.1.2, shape.2⟩
  · exact absurd shape Bool.false_ne_true

/-- The new rule has inherited a time and a count: its first trigger, by hand, is counted
as the second. -/
theorem new_rule_inherits_again : ∃ row stored,
    (Happening.create .vent).step (live [.create .vent, .tick, .delete 1] ⟨.quiet 0, []⟩).2
        = ([.created row], .again)
      ∧ (live [.tick, .trigger 1 false] .again).2.world.store.rule? row.id = some stored
      ∧ triggers row.id (live [.tick, .trigger 1 false] .again).1 = 1
      ∧ stored.triggerCount = 1 + Scene.again.world.memory.cooldowns.triggerCount row.id := by
  obtain ⟨row, hid, created⟩ := create_again
  obtain ⟨rules, x, y, log, hdropped, hx, hy⟩ := live_again
  have terms : ∀ h ∈ [Happening.create .vent, .tick, .delete 1] ++ [.tick, .trigger 1 false],
      h.Under .changing := by
    simp [Happening.Under, Terms.changing]
  have kept : .deleted row.id ∉ (live [.tick, .trigger 1 false] .again).1 := by
    rw [log]
    simp
  have honce : triggers 1 (live [.tick, .trigger 1 false] .again).1 = 1 := by decide +kernel
  obtain ⟨_, _, _, stored, hstored, _, hcount⟩ :=
    new_rule_inherits (World.quiet_fresh 0) rfl terms created kept (by decide +kernel)
  refine ⟨row, stored, created, hstored, hid ▸ honce, ?_⟩
  have hearly : triggers row.id [.loaded rules, .looked true (.suppressed x)] = 0 := rfl
  rw [hcount [.loaded rules, .looked true (.suppressed x)] false y true [] log hearly
    (hy.trans hid.symm)]
  have hkept : dropped row.id [.loaded rules, .looked true (.suppressed x)] = false := by
    rw [hid]
    have h := dropped_append 1 [.loaded rules] [.looked true (.suppressed x)]
    rw [hdropped] at h
    exact h
  rw [hid] at hkept ⊢
  rw [honce, Inheritance.after, hkept]
  rfl

/-- A new rule that was never triggered is suppressed, and its first trigger counts as two. -/
theorem again_not_from_nothing : ∃ row,
    (Happening.create .vent).step (live [.create .vent, .tick, .delete 1] ⟨.quiet 0, []⟩).2
        = ([.created row], .again)
      ∧ (∃ early x late, (live [.tick, .trigger 1 false] .again).1
          = early ++ .looked true (.suppressed x) :: late
        ∧ x.ruleId = row.id ∧ triggers row.id early = 0)
      ∧ triggers row.id (live [.tick, .trigger 1 false] .again).1 = 1
      ∧ ((live [.tick, .trigger 1 false] .again).2.world.store.rule? row.id).map (·.triggerCount)
        = some 2 := by
  obtain ⟨row, hid, created⟩ := create_again
  obtain ⟨rules, x, y, log, _, hx, _⟩ := live_again
  refine ⟨row, created, ⟨[.loaded rules], x, _, log, hx.trans hid.symm, rfl⟩, ?_, ?_⟩
  · rw [hid]
    decide +kernel
  · rw [hid]
    decide +kernel

end Glasshouse
