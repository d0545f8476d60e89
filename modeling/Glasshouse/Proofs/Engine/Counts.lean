/-
Glasshouse.Proofs.Engine.Counts — every trigger counts, with one exception. A trigger by hand reads
its rule and then waits for the lock; what has happened in between it learns from the
tracker. Without deletion and without lost records the row of a rule counts the triggers of
the rule, except for those whose rule was read before others were counted and whose tracker
entry was dropped before they had the lock. Only a tick that leaves the rule out while a
trigger of it waits can drop the entry in between. The time of the last trigger never moves
back. Main statement: `triggers_counted`.

How the proof goes. `Books.Advances` says by how much one happening moves the count of a row,
`Scene.Counted` is the invariant that neither the tracker nor what waiting triggers have read
counts more than the rows, and `missed` adds up what `Happening.misses`. `step_counts` is about
one happening, `live_counts` about a history.

Side conditions of the main statement. Histories begin without rules, on clocks with an
offset, and no rule is deleted (`Terms.lasting`); no record is lost. Triggers get the lock
in the order in which they began to wait, and between two of them a tick may have it.
-/
import Glasshouse.Proofs.Engine.ReusedNumbers
import Glasshouse.Proofs.Engine.Spacing

namespace Glasshouse

open Calendar

/-! ## The count of a row -/

namespace Books

variable {b b' : Books} {id : Int}

/-- How many triggers the row of a rule counts; none if there is no row. -/
def count (b : Books) (id : Int) : Int :=
  ((b.rules.find? (·.id == id)).map (·.triggerCount)).getD 0

theorem count_congr (h : b'.rules = b.rules) (id : Int) : b'.count id = b.count id := by
  rw [count, count, h]

theorem count_of_mem (hn : b.ids.Nodup) {row : RuleRow} (h : row ∈ b.rules) :
    b.count row.id = row.triggerCount := by
  cases hfind : b.rules.find? (·.id == row.id) with
  | none => exact absurd (beq_self_eq_true row.id) (List.find?_eq_none.1 hfind row h)
  | some q =>
    have hid : q.id = row.id := by simpa using List.find?_some hfind
    rw [count, hfind, eq_of_id hn (List.mem_of_find?_eq_some hfind) h hid]
    rfl

theorem find_update (b : Books) (k : Int) {f : RuleRow → RuleRow} (hf : ∀ r, (f r).id = r.id)
    (id : Int) : (b.update k f).rules.find? (·.id == id)
      = (b.rules.find? (·.id == id)).map fun r => if r.id == k then f r else r := by
  have hkeep : (fun r : RuleRow => (if r.id == k then f r else r).id == id)
      = fun r => r.id == id := by
    funext r
    split
    · rw [hf]
    · rfl
  simp only [update, List.find?_map, Function.comp_def, hkeep]

/-- Rows that are changed in place without their counts. -/
theorem count_update (b : Books) (k : Int) {f : RuleRow → RuleRow} (hf : ∀ r, (f r).id = r.id)
    (hcount : ∀ r, (f r).triggerCount = r.triggerCount) (id : Int) :
    (b.update k f).count id = b.count id := by
  have hsame : ∀ r : RuleRow, (if r.id == k then f r else r).triggerCount = r.triggerCount := by
    intro r
    split
    · exact hcount r
    · rfl
  rw [count, find_update b k hf, Option.map_map, Function.comp_def]
  simp only [hsame]
  rfl

/-- A trigger that is noted with its rule. -/
theorem count_noted (b : Books) {k : Int} (hk : k ∈ b.ids) (i : Instant) (n id : Int) :
    (b.update k (RuleRow.noted i n)).count id
      = if k = id then max (b.count id) n else b.count id := by
  rw [count, find_update b k (f := RuleRow.noted i n) fun _ => rfl, count]
  cases hfind : b.rules.find? (·.id == id) with
  | none =>
    have hne : k ≠ id := by
      rintro rfl
      obtain ⟨row, hrow, hid⟩ := List.mem_map.1 hk
      exact absurd (beq_iff_eq.2 hid) (List.find?_eq_none.1 hfind row hrow)
    rw [if_neg hne]
    rfl
  | some row =>
    have hid : row.id = id := by simpa using List.find?_some hfind
    by_cases hne : k = id
    · simp [hid, hne, RuleRow.noted]
    · simp [hid, hne, Ne.symm hne]

/-- A new row has counted nothing. -/
theorem count_create {row : RuleRow} (hcount : row.triggerCount = 0) (id : Int) :
    Books.count { b with rules := b.rules ++ [row] } id = b.count id := by
  rw [count, count, List.find?_append]
  cases b.rules.find? (·.id == id) with
  | some r => rfl
  | none =>
    by_cases hid : row.id = id
    · simp [hid, hcount]
    · simp [hid]

/-- The tracker counts as many triggers of a rule as its row. -/
def Even (b : Books) (id : Int) : Prop := (b.cooldowns.triggerCount id : Int) = b.count id

/-- The tracker counts no more triggers than the rows. -/
def Modest (b : Books) : Prop := ∀ id, (b.cooldowns.triggerCount id : Int) ≤ b.count id

end Books

/-! ## One rule looked at -/

theorem triggers_looked (id : Int) (byTick : Bool) (r : Report) :
    triggers id [.looked byTick r] = if Entry.tellsTrigger id (.looked byTick r) then 1 else 0 := by
  rw [triggers, List.countP_singleton]

/-- A look at a rule adds its trigger to what the tracker counts, and notes that with the row. -/
theorem Engine.Effect.counts {k : Int} {now : Moment} {b b' : Books} {r : Report}
    (h : Engine.Effect k now b r b') (stored : k ∈ b.ids) (lost : b'.lost = b.lost)
    (byTick : Bool) (id : Int) :
    b'.cooldowns.triggerCount id
        = b.cooldowns.triggerCount id + triggers id [.looked byTick r] ∧
    b'.count id = if triggers id [.looked byTick r] = 0 then b.count id
      else max (b.count id) (b.cooldowns.triggerCount id + 1) := by
  cases h with
  | nothing e => exact ⟨rfl, rfl⟩
  | quiet report _ _ _ record =>
    obtain ⟨hrules, hcooldowns, -⟩ := record.same
    have hnone : triggers id [.looked byTick r] = 0 := by rcases report with rfl | rfl <;> rfl
    rw [hnone, hcooldowns]
    exact ⟨rfl, Books.count_congr hrules id⟩
  | @trigger x noted b₁ _ ruleId _ _ _ note record =>
    -- a record that is lost stays lost, so the trigger was noted with its rule
    have hnoted : noted = true := by
      rcases note with ⟨_, rfl⟩ | ⟨hnoted, _⟩
      · have hle : b.lost + 1 ≤ b'.lost := record.lost_le
        omega
      · exact hnoted
    subst hnoted
    have htracker : b'.cooldowns = b.cooldowns.marked k now :=
      record.same.2.1.trans note.same.1
    have hcount : b'.count id
        = if k = id then max (b.count id) (b.cooldowns.triggerCount k + 1 : Nat)
          else b.count id := by
      rw [Books.count_congr (record.same.1.trans note.same.2.2.2) id]
      exact Books.count_noted (b.looked.track (b.cooldowns.marked k now)) stored _ _ id
    have hone : triggers id [.looked byTick (.triggered x true)] = if k = id then 1 else 0 := by
      simp [triggers_looked, Entry.tellsTrigger, ruleId]
    rw [hone, hcount, htracker]
    by_cases hk : k = id
    · subst hk
      refine ⟨?_, by simp⟩
      unfold Cooldown.triggerCount
      rw [Cooldown.marked_counts, if_pos rfl]
      rfl
    · refine ⟨?_, by simp [hk]⟩
      rw [(Cooldown.marked_of_ne now hk).triggerCount, if_neg hk]
      rfl

/-! ## Triggers that are counted -/

/-- The row of a rule counts the triggers of a log, and afterwards the tracker counts as many
or, where there was none, no more than before. `held` says that it has dropped nothing. -/
structure Books.Advances (id : Int) (n : Nat) (held : Prop) (b b' : Books) : Prop where
  count : b'.count id = b.count id + n
  tracker : b'.Even id ∨ n = 0 ∧ b'.cooldowns.triggerCount id ≤ b.cooldowns.triggerCount id
    ∧ (held → b'.cooldowns.triggerCount id = b.cooldowns.triggerCount id)

/-- The triggers of the rules of a round that was looked at. -/
def looks (id : Int) (rs : List Report) : Nat := triggers id (rs.map (.looked true))

theorem looks_cons (id : Int) (r : Report) (rs : List Report) :
    looks id (r :: rs) = triggers id [.looked true r] + looks id rs := by
  rw [looks, List.map_cons, ← List.singleton_append, triggers_append]
  rfl

namespace Books

variable {b b' b₁ : Books} {id : Int}

theorem Advances.of_same {held : Prop} (hrules : b'.count id = b.count id)
    (htracker : b'.cooldowns.triggerCount id = b.cooldowns.triggerCount id) :
    Advances id 0 held b b' :=
  ⟨by rw [hrules]; exact (Int.add_zero _).symm, .inr ⟨rfl, Nat.le_of_eq htracker, fun _ => htracker⟩⟩

/-- What was counted by both goes on to be counted by both. -/
theorem Advances.modest {n : Nat} {held : Prop} (h : Advances id n held b b')
    (hb : (b.cooldowns.triggerCount id : Int) ≤ b.count id) :
    (b'.cooldowns.triggerCount id : Int) ≤ b'.count id := by
  rcases h.tracker with heven | ⟨rfl, hle, -⟩
  · exact Int.le_of_eq heven
  · have hcount := h.count
    omega

/-- After the record of a rule was merged in that is as high as its row, both count the same. -/
theorem Modest.even_merge (hb : b.Modest) {rule : Rule} (high : b.count rule.id
      ≤ max (b.cooldowns.triggerCount rule.id : Int) rule.triggerCount)
    (low : (rule.triggerCount : Int) ≤ b.count rule.id) :
    (b.track (b.cooldowns.merge rule)).Even rule.id := by
  have hmodest := hb rule.id
  show ((b.cooldowns.merge rule).triggerCount rule.id : Int) = b.count rule.id
  rw [Cooldown.merge_triggerCount]
  omega

/-- A rule that was built from its row has the count of the row. -/
theorem count_of_built (hn : b.ids.Nodup) {row : RuleRow} (hrow : row ∈ b.rules) {rule : Rule}
    (hof : rule.IsOf row) : b.count rule.id = rule.triggerCount := by
  rw [hof.id, count_of_mem hn hrow, hof.count]

/-- After the rules were loaded, the tracker counts for each of them what its row does. -/
theorem Modest.even_load (hb : b.Modest) (hn : b.ids.Nodup) {rule : Rule}
    (hrule : rule ∈ b.built) : (b.track (b.cooldowns.refreshed b.built)).Even rule.id := by
  obtain ⟨row, hrow, hbuilt⟩ := b.rows_of_built rule hrule
  have hread := count_of_built hn hrow (RuleRow.isOf_of_toRule hbuilt)
  have hmerged : (b.track (b.cooldowns.merge rule)).Even rule.id :=
    hb.even_merge (by omega) (by omega)
  have hat := Cooldown.refreshed_of_mem (b.built_ids hn) hrule b.cooldowns
  show ((b.cooldowns.refreshed b.built).triggerCount rule.id : Int) = b.count rule.id
  rw [hat.triggerCount]
  exact hmerged

end Books

section Steps

variable {T : Terms} {b b' : Books} {id : Int}

/-- Where tracker and row count the same, both count a trigger. -/
theorem Engine.Effect.even_counts {k : Int} {now : Moment} {r : Report}
    (h : Engine.Effect k now b r b') (stored : k ∈ b.ids) (lost : b'.lost = b.lost)
    (byTick : Bool) (heven : b.Even id) :
    b'.Even id ∧ b'.count id = b.count id + triggers id [.looked byTick r] := by
  obtain ⟨htracker, hcount⟩ := h.counts stored lost byTick id
  have hone : triggers id [.looked byTick r] ≤ 1 := List.countP_le_length
  unfold Books.Even at heven ⊢
  rw [htracker, hcount]
  split <;> omega

/-- A look that tells of no trigger of a rule leaves its counts as they are. -/
theorem Engine.Effect.same_counts {k : Int} {now : Moment} {r : Report}
    (h : Engine.Effect k now b r b') (stored : k ∈ b.ids) (lost : b'.lost = b.lost)
    (other : k ≠ id) (byTick : Bool) :
    triggers id [.looked byTick r] = 0 ∧ b'.count id = b.count id
      ∧ b'.cooldowns.triggerCount id = b.cooldowns.triggerCount id := by
  have hnone : triggers id [.looked byTick r] = 0 := by
    have hid := h.ruleId
    rw [triggers_looked, if_neg]
    cases r with
    | triggered x noted =>
      have hne : x.ruleId ≠ id := fun hx => other (hid.symm.trans hx)
      simpa [Entry.tellsTrigger] using hne
    | _ => exact Bool.false_ne_true
  obtain ⟨htracker, hcount⟩ := h.counts stored lost byTick id
  rw [hnone] at htracker hcount
  exact ⟨hnone, hcount, htracker⟩

theorem Engine.Courses.lost_le {now : Moment} {rules : List Rule} {rs : List Report}
    (h : Engine.Courses now rules b rs b') : b.lost ≤ b'.lost := by
  induction h with
  | nil b => exact Nat.le_refl b.lost
  | cons first _ ih => exact Nat.le_trans first.lost_le ih

/-- A round counts the triggers of a rule for which tracker and row counted the same, and
touches no rule that is not of the round. -/
theorem Engine.Courses.counts {now : Moment} {rules : List Rule} {rs : List Report}
    (h : Engine.Courses now rules b rs b') (hn : now.Aware) (ht : b.cooldowns.Aware)
    (stored : ∀ rule ∈ rules, rule.id ∈ b.ids) (lost : b'.lost = b.lost) (id : Int) :
    (b.Even id → b'.Even id ∧ b'.count id = b.count id + looks id rs)
      ∧ ((∀ rule ∈ rules, rule.id ≠ id) → looks id rs = 0 ∧ b'.count id = b.count id
        ∧ b'.cooldowns.triggerCount id = b.cooldowns.triggerCount id) := by
  induction h with
  | nil b => exact ⟨fun heven => ⟨heven, (Int.add_zero _).symm⟩, fun _ => ⟨rfl, rfl, rfl⟩⟩
  | @cons rule rules b b₁ b' r rs first rest ih =>
    have he := first.effect ht hn
    have hstored : rule.id ∈ b.ids := stored rule (List.mem_cons_self ..)
    have hle := rest.lost_le
    have hfirst : b₁.lost = b.lost := Nat.le_antisymm (lost ▸ hle) first.lost_le
    obtain ⟨heven, hother⟩ := ih (he.aware ht hn)
      (fun q hq => he.ids_eq ▸ stored q (List.mem_cons_of_mem _ hq)) (lost.trans hfirst.symm)
    rw [looks_cons]
    constructor
    · intro hb
      obtain ⟨hb₁, hcount₁⟩ := he.even_counts hstored hfirst true hb
      obtain ⟨hb', hcount'⟩ := heven hb₁
      exact ⟨hb', by rw [hcount', hcount₁]; omega⟩
    · intro hne
      obtain ⟨hzero, hcount₁, htracker₁⟩ :=
        he.same_counts hstored hfirst (hne rule (List.mem_cons_self ..)) true
      obtain ⟨hnone, hcount', htracker'⟩ := hother fun q hq => hne q (List.mem_cons_of_mem _ hq)
      exact ⟨by rw [hzero, hnone], hcount'.trans hcount₁, htracker'.trans htracker₁⟩

/-- A tick counts its triggers. It drops what the tracker holds about a rule only if it
loads rules without it. -/
theorem Engine.Served.advances {r : Except Fault Round}
    (h : Engine.Served b.clock b.enabledRows b r b') (hs : b.Sane T)
    (hT : ∀ m, T.clock m → m.Aware) (hb : b.Modest) (lost : b'.lost = b.lost) (id : Int) :
    Books.Advances id (triggers id (told Round.entries (r.map some)))
      (dropped id (told Round.entries (r.map some)) = false) b b' := by
  cases h with
  | unbuilt _ => exact .of_same rfl rfl
  | unmerged build merge =>
    obtain ⟨rfl, _⟩ := Engine.sift_built build
    rw [Cooldown.refresh_of_aware hs.aware b.built_aware] at merge
    cases merge
  | @done _ sorted n _ reports _ build merge order courses =>
    obtain ⟨rfl, _⟩ := Engine.sift_built build
    rw [Cooldown.refresh_of_aware hs.aware b.built_aware] at merge
    cases merge
    have htriggers : triggers id (.loaded sorted :: reports.map (.looked true))
        = looks id reports := by simp [triggers, looks, Entry.tellsTrigger]
    have hstored : ∀ rule ∈ sorted, rule.id ∈ b.ids := by
      intro rule hrule
      obtain ⟨row, hrow, hbuilt⟩ := b.rows_of_built rule (order.mem_iff.1 hrule)
      exact (RuleRow.isOf_of_toRule hbuilt).id ▸ List.mem_map_of_mem hrow
    obtain ⟨heven, hother⟩ := courses.counts (hT _ hs.clock)
      (hs.aware.refreshed b.built_aware) hstored lost id
    show Books.Advances id (triggers id (.loaded sorted :: reports.map (.looked true)))
      (dropped id (.loaded sorted :: reports.map (.looked true)) = false) b b'
    rw [htriggers]
    by_cases hmem : ∃ rule ∈ b.built, rule.id = id
    · obtain ⟨rule, hrule, rfl⟩ := hmem
      obtain ⟨hend, hcount⟩ := heven (hb.even_load hs.nodup hrule)
      exact ⟨hcount, .inl hend⟩
    · have hnone : ∀ rule ∈ b.built, rule.id ≠ id := fun rule hr hid => hmem ⟨rule, hr, hid⟩
      obtain ⟨hzero, hcount, htracker⟩ := hother fun rule hr => hnone rule (order.mem_iff.1 hr)
      have hdropped : dropped id (.loaded sorted :: reports.map (.looked true)) = true := by
        have hgone : sorted.any (fun r => r.id == id) = false := by
          simpa using fun rule hr => hnone rule (order.mem_iff.1 hr)
        simp [dropped, hgone]
      have hle : b'.cooldowns.triggerCount id ≤ b.cooldowns.triggerCount id :=
        htracker ▸ Cooldown.refreshed_le_of_not_mem hnone b.cooldowns
      rw [hzero]
      refine ⟨by rw [hcount]; exact (Int.add_zero _).symm, .inr ⟨rfl, hle, fun hheld => ?_⟩⟩
      rw [hdropped] at hheld
      exact absurd hheld (by decide)

theorem Engine.Turn.advances {w : World} {r : Except Fault (Option Round)}
    (h : Engine.Turn w r b') (hs : w.books.Sane T) (hT : ∀ m, T.clock m → m.Aware)
    (hb : w.books.Modest) (lost : b'.lost = w.books.lost) (id : Int) :
    Books.Advances id (triggers id (told Round.entries r))
      (dropped id (told Round.entries r) = false) w.books b' := by
  cases h with
  | refused _ => exact .of_same rfl rfl
  | skipped _ => exact .of_same rfl rfl
  | unloaded _ => exact .of_same rfl rfl
  | served _ serve => exact serve.advances hs hT hb lost id

section ByHand

variable {rule : Rule} {force : Bool} {r : Except Fault Report}
  (h : Engine.Manual rule force b r b') (hs : b.Sane T) (hT : ∀ m, T.clock m → m.Aware)
  (aware : rule.Aware)

include h hs hT aware

/-- What a trigger by hand does to the counts, from what they are after its rule was merged
in. -/
theorem Engine.Manual.effect : ∃ report, r = .ok report
    ∧ Engine.Effect rule.id b.clock (b.track (b.cooldowns.merge rule)) report b' := by
  cases h with
  | unmerged merge =>
    rw [Cooldown.sync_of_aware hs.aware aware] at merge
    cases merge
  | looked merge course =>
    rw [Cooldown.sync_of_aware hs.aware aware] at merge
    cases merge
    exact ⟨_, rfl, course.effect (hs.aware.merge aware) (hT _ hs.clock)⟩

variable (stored : rule.id ∈ b.ids) (lost : b'.lost = b.lost)

include stored lost

/-- A trigger by hand is counted if what was read of its rule, or what the tracker holds,
is as high as the count of the row. -/
theorem Engine.Manual.advances (hb : b.Modest)
    (low : (rule.triggerCount : Int) ≤ b.count rule.id) (id : Int)
    (high : rule.id = id → b.count id ≤ max (b.cooldowns.triggerCount id : Int) rule.triggerCount)
    (held : Prop) :
    Books.Advances id (triggers id (told (fun r => [.looked false r]) r)) held b b' := by
  obtain ⟨report, rfl, heffect⟩ := Engine.Manual.effect h hs hT aware
  by_cases hid : rule.id = id
  · subst hid
    obtain ⟨hend, hcount⟩ := heffect.even_counts stored lost false (hb.even_merge (high rfl) low)
    exact ⟨hcount, .inl hend⟩
  · obtain ⟨hzero, hcount, htracker⟩ := heffect.same_counts stored lost hid false
    show Books.Advances id (triggers id [.looked false report]) held b b'
    rw [hzero]
    refine .of_same hcount (htracker.trans ?_)
    exact (Cooldown.merge_of_ne hid).triggerCount

/-- Otherwise the row stays as it is. -/
theorem Engine.Manual.count_of_behind
    (behind : max (b.cooldowns.triggerCount rule.id : Int) rule.triggerCount < b.count rule.id) :
    b'.count rule.id = b.count rule.id
      ∧ (b'.cooldowns.triggerCount rule.id : Int) ≤ b.count rule.id := by
  obtain ⟨report, rfl, heffect⟩ := Engine.Manual.effect h hs hT aware
  obtain ⟨htracker, hcount⟩ := heffect.counts stored lost false rule.id
  have hone : triggers rule.id [.looked false report] ≤ 1 := List.countP_le_length
  have hcount' : b'.count rule.id = if triggers rule.id [.looked false report] = 0
      then b.count rule.id
      else max (b.count rule.id) ((b.cooldowns.merge rule).triggerCount rule.id + 1) := hcount
  have htracker' : b'.cooldowns.triggerCount rule.id
      = (b.cooldowns.merge rule).triggerCount rule.id
        + triggers rule.id [.looked false report] := htracker
  rw [Cooldown.merge_triggerCount] at hcount' htracker'
  rw [hcount', htracker']
  split <;> omega

end ByHand

/-- Nothing that counts changes while rules are only created, switched or left alone. -/
theorem Chain.plain {es : List Entry} (h : Chain T b es b')
    (plain : ∀ e ∈ es, ∃ row, e = .created row) :
    b'.cooldowns = b.cooldowns ∧ ∀ id, b'.count id = b.count id := by
  induction h with
  | nil b => exact ⟨rfl, fun _ => rfl⟩
  | @cons b b₁ b' e es first rest ih =>
    obtain ⟨htracker, hcount⟩ := ih fun e he => plain e (List.mem_append_right _ he)
    have told : ∀ x, e = some x → ∃ row, x = .created row := fun x hx =>
      plain x (List.mem_append_left _ (by rw [hx]; exact List.mem_singleton_self x))
    have hfirst : b₁.cooldowns = b.cooldowns ∧ ∀ id, b₁.count id = b.count id := by
      cases first with
      | around _ => exact ⟨rfl, fun _ => rfl⟩
      | refuse n => exact ⟨rfl, fun _ => rfl⟩
      | switch k on => exact ⟨rfl, Books.count_update b k (fun _ => rfl) fun _ => rfl⟩
      | create _ _ _ count => exact ⟨rfl, Books.count_create count⟩
      | delete k _ =>
        obtain ⟨row, hrow⟩ := told _ rfl
        cases hrow
      | load _ _ _ =>
        obtain ⟨row, hrow⟩ := told _ rfl
        cases hrow
      | look _ _ =>
        obtain ⟨row, hrow⟩ := told _ rfl
        cases hrow
      | manual _ _ _ _ _ =>
        obtain ⟨row, hrow⟩ := told _ rfl
        cases hrow
    exact ⟨htracker.trans hfirst.1, fun id => (hcount id).trans (hfirst.2 id)⟩

end Steps

/-! ## Scenes -/

namespace Scene

/-- The trigger that is next to get the lock has read a lower count of its rule than its
row holds now, and the tracker holds no higher one. -/
def behind (s : Scene) (id : Int) : Bool :=
  s.waiting.head?.any fun p => p.1.id == id &&
    decide (max (s.world.books.cooldowns.triggerCount id : Int) p.1.triggerCount
      < s.world.books.count id)

/-- Some trigger of a rule waits for the lock. -/
def Awaits (s : Scene) (id : Int) : Prop := ∃ p ∈ s.waiting, p.1.id = id

/-- Neither the tracker nor what waiting triggers have read counts more than the rows. -/
structure Counted (s : Scene) : Prop where
  modest : s.world.books.Modest
  read : ∀ p ∈ s.waiting, (p.1.triggerCount : Int) ≤ s.world.books.count p.1.id

/-- Every waiting trigger of a rule has read the count of its row, or the tracker has it. -/
def Current (s : Scene) (id : Int) : Prop := ∀ p ∈ s.waiting, p.1.id = id →
  s.world.books.count id ≤ max (s.world.books.cooldowns.triggerCount id : Int) p.1.triggerCount

end Scene

/-- How many triggers of a rule go uncounted. -/
def Happening.misses (id : Int) : Happening → Scene → Nat
  | grant, s => if s.behind id then triggers id (grant.step s).1 else 0
  | _, _ => 0

/-- How many triggers of a rule go uncounted in a history. -/
def missed (id : Int) : List Happening → Scene → Nat
  | [], _ => 0
  | h :: hs, s => h.misses id s + missed id hs (h.step s).2

section Histories

variable {h : Happening} {hs : List Happening} {s : Scene} {id : Int}

theorem Scene.behind_cons {rule : Rule} {force : Bool} {rest : List (Rule × Bool)}
    (hw : s.waiting = (rule, force) :: rest) (id : Int) : s.behind id = true ↔ rule.id = id
      ∧ max (s.world.books.cooldowns.triggerCount id : Int) rule.triggerCount
        < s.world.books.count id := by
  simp [Scene.behind, hw]

/-- A trigger that begins to wait has read the count of its row. -/
theorem step_waiting (h : Happening) (sane : s.Sane .lasting) : ∀ p ∈ (h.step s).2.waiting,
    p ∈ s.waiting ∨ (p.1.triggerCount : Int) = (h.step s).2.world.books.count p.1.id := by
  cases h with
  | request k force =>
    obtain ⟨x, v, hx, hv, hrow⟩ := Engine.load_run k s.world
    simp only [Happening.step, hx]
    cases x with
    | error e => exact fun p hp => .inl hp
    | ok rule =>
      intro p hp
      rcases List.mem_append.1 hp with hp | hp
      · exact .inl hp
      · obtain ⟨row, hmem, _, hrule⟩ := hrow rule rfl
        have hof := RuleRow.isOf_of_toRule hrule
        refine .inr ?_
        rw [List.mem_singleton.1 hp, hv, Books.count_of_built sane.books.nodup hmem hof]
  | grant =>
    simp only [Happening.step]
    cases hw : s.waiting with
    | nil => exact fun p hp => .inl (hw ▸ hp)
    | cons p rest => exact fun q hq => .inl (List.mem_cons_of_mem _ hq)
  | _ => exact fun p hp => .inl hp

/-- A trigger that reads its rule with the lock in hand is counted. -/
theorem trigger_advances (k : Int) (force : Bool) (sane : s.Sane .lasting) (counted : s.Counted)
    (lost : ((Happening.trigger k force).step s).2.world.books.lost = s.world.books.lost)
    (held : Prop) :
    Books.Advances id (triggers id ((Happening.trigger k force).step s).1) held
      s.world.books ((Happening.trigger k force).step s).2.world.books := by
  obtain ⟨x, v, hx, hcase⟩ := Engine.trigger_run k force s.world
  have hstep : (Happening.trigger k force).step s
      = (told (fun r => [.looked false r]) x, { s with world := v }) := by
    simp only [Happening.step, hx]
  rw [hstep] at lost ⊢
  rcases hcase with ⟨⟨e, rfl⟩, hv⟩ | ⟨rule, ⟨row, hrow, _, hrule⟩, r, rfl, hmanual⟩
  · exact .of_same (congrArg (Books.count · id) hv) (by rw [hv])
  · have hof := RuleRow.isOf_of_toRule hrule
    have hread := Books.count_of_built sane.books.nodup hrow hof
    have hcounts := hmanual.advances sane.books Terms.lasting_fair.aware hof.aware
      (hof.id ▸ List.mem_map_of_mem hrow) lost counted.modest (Int.le_of_eq hread.symm) id
      (fun hk => by rw [← hk, hread]; omega) held
    cases r with
    | ok r => exact hcounts
    | error f => exact hcounts

/-- A trigger that waited for the lock is counted, unless it is behind. -/
theorem grant_advances (sane : s.Sane .lasting) (counted : s.Counted)
    (lost : (Happening.grant.step s).2.world.books.lost = s.world.books.lost)
    (ahead : s.behind id = false) (held : Prop) :
    Books.Advances id (triggers id (Happening.grant.step s).1) held
      s.world.books (Happening.grant.step s).2.world.books := by
  simp only [Happening.step] at lost ⊢
  cases hw : s.waiting with
  | nil => exact .of_same rfl rfl
  | cons p rest =>
    obtain ⟨rule, force⟩ := p
    obtain ⟨-, haware, hid⟩ := sane.waiting (rule, force) (hw ▸ List.mem_cons_self ..)
    simp only [hw] at lost ⊢
    refine (Engine.triggerLocked_manual rule force s.world).advances sane.books
      Terms.lasting_fair.aware haware hid lost counted.modest
      (counted.read (rule, force) (hw ▸ List.mem_cons_self ..)) id (fun hk => ?_) held
    rw [← Bool.not_eq_true, s.behind_cons hw] at ahead
    exact Int.not_lt.1 fun hlt => ahead ⟨hk, hlt⟩

/-- What happens counts the triggers of a rule, unless it is a trigger that is behind. -/
theorem step_advances (under : h.Under .lasting) (sane : s.Sane .lasting) (counted : s.Counted)
    (lost : (h.step s).2.world.books.lost = s.world.books.lost)
    (ahead : h = .grant → s.behind id = false) :
    Books.Advances id (triggers id (h.step s).1) (h = .tick → dropped id (h.step s).1 = false)
      s.world.books (h.step s).2.world.books := by
  obtain ⟨chain, -⟩ := step_chain Terms.lasting_fair under sane
  -- rules that are created, switched or left alone
  have plain : (∀ e ∈ (h.step s).1, ∃ row, e = .created row) →
      Books.Advances id (triggers id (h.step s).1) (h = .tick → dropped id (h.step s).1 = false)
        s.world.books (h.step s).2.world.books := by
    intro hplain
    obtain ⟨htracker, hcount⟩ := chain.plain hplain
    have hnone : triggers id (h.step s).1 = 0 := by
      refine List.countP_eq_zero.2 fun e he => ?_
      obtain ⟨row, rfl⟩ := hplain e he
      exact Bool.false_ne_true
    rw [hnone]
    exact .of_same (hcount id) (by rw [htracker])
  cases h with
  | tick =>
    obtain ⟨hcount, htracker⟩ :=
      (Engine.round_turn s.world).advances sane.books Terms.lasting_fair.aware counted.modest
        lost id
    refine ⟨hcount, htracker.imp_right fun ⟨hn, hle, hheld⟩ => ⟨hn, hle, fun hk => hheld (hk rfl)⟩⟩
  | trigger k force => exact trigger_advances k force sane counted lost _
  | request k force =>
    refine plain fun e he => ?_
    obtain ⟨x, v, hx, -, -⟩ := Engine.load_run k s.world
    simp only [Happening.step, hx] at he
    cases x <;> cases he
  | grant => exact grant_advances sane counted lost (ahead rfl) _
  | create d =>
    refine plain fun e he => ?_
    have he : e ∈ told (fun row => [.created row])
      (s.world.callStore .createRule fun t => t.createRule d).1 := he
    cases hx : (s.world.callStore .createRule fun t => t.createRule d).1 with
    | error f =>
      rw [hx] at he
      cases he
    | ok row =>
      rw [hx] at he
      exact ⟨row, List.mem_singleton.1 he⟩
  | delete k => exact under.elim
  | switch k on => exact plain fun e he => by cases he
  | switchAll ids on => exact plain fun e he => by cases he
  | around v => exact plain fun e he => by cases he

/-- A trigger that is behind leaves the row of its rule as it is. -/
theorem grant_behind (sane : s.Sane .lasting)
    (lost : (Happening.grant.step s).2.world.books.lost = s.world.books.lost)
    (behind : s.behind id = true) :
    (Happening.grant.step s).2.world.books.count id = s.world.books.count id
      ∧ ((Happening.grant.step s).2.world.books.cooldowns.triggerCount id : Int)
        ≤ s.world.books.count id := by
  simp only [Happening.step] at lost ⊢
  cases hw : s.waiting with
  | nil => simp [Scene.behind, hw] at behind
  | cons p rest =>
    obtain ⟨rule, force⟩ := p
    obtain ⟨rfl, hlt⟩ := (s.behind_cons hw id).1 behind
    obtain ⟨-, haware, hid⟩ := sane.waiting (rule, force) (hw ▸ List.mem_cons_self ..)
    simp only [hw] at lost ⊢
    exact (Engine.triggerLocked_manual rule force s.world).count_of_behind sane.books
      Terms.lasting_fair.aware haware hid lost hlt

/-- Every trigger is counted by the row of its rule or missed, and no count is higher than
that of the row. -/
theorem step_counts (under : h.Under .lasting) (sane : s.Sane .lasting) (counted : s.Counted)
    (lost : (h.step s).2.world.books.lost = s.world.books.lost) :
    (h.step s).2.Counted ∧ ∀ id, (h.step s).2.world.books.count id + h.misses id s
      = s.world.books.count id + triggers id (h.step s).1 := by
  have each : ∀ id, ((h.step s).2.world.books.cooldowns.triggerCount id : Int)
        ≤ (h.step s).2.world.books.count id
      ∧ s.world.books.count id ≤ (h.step s).2.world.books.count id
      ∧ (h.step s).2.world.books.count id + h.misses id s
        = s.world.books.count id + triggers id (h.step s).1 := by
    intro id
    by_cases ahead : h = .grant → s.behind id = false
    · have hadv := step_advances under sane counted lost ahead
      have hnone : h.misses id s = 0 := by
        cases h with
        | grant => simp [Happening.misses, ahead rfl]
        | _ => rfl
      have hcount := hadv.count
      exact ⟨hadv.modest (counted.modest id), by omega, by rw [hnone]; omega⟩
    · simp only [Classical.not_imp, Bool.not_eq_false] at ahead
      obtain ⟨rfl, behind⟩ := ahead
      obtain ⟨hcount, hle⟩ := grant_behind sane lost behind
      rw [hcount]
      exact ⟨hle, Int.le_refl _, by simp [Happening.misses, behind]⟩
  refine ⟨⟨fun id => (each id).1, fun p hp => ?_⟩, fun id => (each id).2.2⟩
  rcases step_waiting h sane p hp with hold | hnew
  · exact Int.le_trans (counted.read p hold) (each p.1.id).2.1
  · exact Int.le_of_eq hnew

/-- A history that loses no record loses none in its first part and none afterwards. -/
theorem lost_of_append {early late : List Happening} (before : ∀ h ∈ early, h.Under .lasting)
    (after : ∀ h ∈ late, h.Under .lasting) (sane : s.Sane .lasting)
    (lost : (live (early ++ late) s).2.world.books.lost = s.world.books.lost) :
    (live early s).2.world.books.lost = s.world.books.lost
      ∧ (live late (live early s).2).2.world.books.lost = (live early s).2.world.books.lost := by
  rw [live_append] at lost
  have hle := (live_chain Terms.lasting_fair before sane).lost_le
  have hle' :=
    (live_chain Terms.lasting_fair after (live_sane Terms.lasting_fair before sane)).lost_le
  have hend : (live late (live early s).2).2.world.books.lost = s.world.books.lost := lost
  have hfirst := Nat.le_antisymm (hend ▸ hle') hle
  exact ⟨hfirst, hend.trans hfirst.symm⟩

/-- A history counts all triggers but those that it misses. -/
theorem live_counts (under : ∀ h ∈ hs, h.Under .lasting) (sane : s.Sane .lasting)
    (counted : s.Counted) (lost : (live hs s).2.world.books.lost = s.world.books.lost) :
    (live hs s).2.Counted ∧ ∀ id, (live hs s).2.world.books.count id + missed id hs s
      = s.world.books.count id + triggers id (live hs s).1 := by
  induction hs generalizing s with
  | nil => exact ⟨counted, fun id => rfl⟩
  | cons h hs ih =>
    have hh := under h (List.mem_cons_self ..)
    have hrest : ∀ k ∈ hs, k.Under .lasting := fun k hk => under k (List.mem_cons_of_mem _ hk)
    have sane' := step_sane Terms.lasting_fair hh sane
    obtain ⟨hfirst, hlast⟩ := @lost_of_append s [h] hs (by simpa using hh) hrest sane lost
    obtain ⟨counted', hcount⟩ := step_counts hh sane counted hfirst
    obtain ⟨hend, hlater⟩ := ih hrest sane' counted' hlast
    refine ⟨hend, fun id => ?_⟩
    have hstep := hcount id
    have hrest := hlater id
    rw [live_cons, triggers_append]
    show (live hs (h.step s).2).2.world.books.count id + (h.misses id s + missed id hs _ : Nat) = _
    omega

/-- What waits for a rule stays current while no tick drops the rule. -/
theorem step_current (under : h.Under .lasting) (sane : s.Sane .lasting) (counted : s.Counted)
    (lost : (h.step s).2.world.books.lost = s.world.books.lost)
    (held : h = .tick → s.Awaits id → dropped id (h.step s).1 = false) (current : s.Current id) :
    h.misses id s = 0 ∧ (h.step s).2.Current id := by
  have ahead : s.behind id = false := by
    cases hw : s.waiting with
    | nil => simp [Scene.behind, hw]
    | cons p rest =>
      obtain ⟨rule, force⟩ := p
      rw [← Bool.not_eq_true, s.behind_cons hw]
      rintro ⟨hid, hlt⟩
      exact Int.not_lt.2 (current (rule, force) (hw ▸ List.mem_cons_self ..) hid) hlt
  have hadv := step_advances under sane counted lost fun _ => ahead
  refine ⟨?_, fun p hp hid => ?_⟩
  · cases h with
    | grant => simp [Happening.misses, ahead]
    | _ => rfl
  · rcases step_waiting h sane p hp with hold | hnew
    · rcases hadv.tracker with heven | ⟨hn, -, hkeep⟩
      · have heven : _ = _ := heven
        omega
      · have hcount := hadv.count
        have hsame := hkeep fun htick => held htick ⟨p, hold, hid⟩
        have hle := current p hold hid
        omega
    · rw [hid] at hnew
      omega

/-- A history misses no trigger of a rule if no tick drops the rule while one of its
triggers waits. -/
theorem live_current (under : ∀ h ∈ hs, h.Under .lasting) (sane : s.Sane .lasting)
    (counted : s.Counted) (lost : (live hs s).2.world.books.lost = s.world.books.lost)
    (held : ∀ early late, hs = early ++ .tick :: late → (live early s).2.Awaits id →
      dropped id (Happening.tick.step (live early s).2).1 = false)
    (current : s.Current id) : missed id hs s = 0 := by
  induction hs generalizing s with
  | nil => rfl
  | cons h hs ih =>
    have hh := under h (List.mem_cons_self ..)
    have hrest : ∀ k ∈ hs, k.Under .lasting := fun k hk => under k (List.mem_cons_of_mem _ hk)
    have sane' := step_sane Terms.lasting_fair hh sane
    obtain ⟨hfirst, hlast⟩ := @lost_of_append s [h] hs (by simpa using hh) hrest sane lost
    obtain ⟨counted', -⟩ := step_counts hh sane counted hfirst
    obtain ⟨hnone, current'⟩ := step_current hh sane counted hfirst
      (fun htick => by subst htick; exact held [] hs rfl) current
    have hlater := ih hrest sane' counted' hlast
      (fun early late hsplit => held (h :: early) late (by rw [hsplit]; rfl)) current'
    show h.misses id s + missed id hs (h.step s).2 = 0
    rw [hnone, hlater]

end Histories

/-! ## What is counted -/

theorem World.Fresh.counted {w : World} (fresh : w.Fresh) : (Scene.mk w []).Counted := by
  have hempty : w.books.cooldowns = {} := fresh.cooldowns
  have hrules : w.books.rules = [] := fresh.rules
  refine ⟨fun id => ?_, fun p hp => by cases hp⟩
  show ((w.books.cooldowns.triggerCount id : Nat) : Int) ≤ w.books.count id
  rw [hempty, Books.count, hrules]
  exact Int.le_refl 0

/-- The row of a rule counts its triggers but those that are missed. None is missed if no
tick drops the rule while one of its triggers waits for the lock; and between any two points
of a history the count grows by the triggers in between, while the time of the last trigger
does not move back. -/
theorem triggers_counted {w : World} (fresh : w.Fresh) (aware : w.clock.Aware)
    {hs : List Happening} (terms : ∀ h ∈ hs, h.Under .lasting)
    (lost : (live hs ⟨w, []⟩).2.world.memory.lost = w.memory.lost) {id : Int} {row : RuleRow}
    (stored : (live hs ⟨w, []⟩).2.world.store.rule? id = some row) :
    row.triggerCount + missed id hs ⟨w, []⟩ = triggers id (live hs ⟨w, []⟩).1
      ∧ ((∀ early late, hs = early ++ .tick :: late → (live early ⟨w, []⟩).2.Awaits id →
          dropped id (Happening.tick.step (live early ⟨w, []⟩).2).1 = false) →
        missed id hs ⟨w, []⟩ = 0)
      ∧ ∀ early late old, hs = early ++ late →
        (live early ⟨w, []⟩).2.world.store.rule? id = some old →
        row.triggerCount + missed id late (live early ⟨w, []⟩).2
            = old.triggerCount + triggers id (live late (live early ⟨w, []⟩).2).1
          ∧ ∀ l, old.lastTriggered = some l → ∃ k, row.lastTriggered = some k ∧ l ≤ k := by
  have sane : (Scene.mk w []).Sane .lasting := fresh.sane aware
  have hcount : ∀ {s : Scene} {r : RuleRow}, s.world.store.rule? id = some r →
      s.world.books.count id = r.triggerCount := by
    intro s r hr
    show ((s.world.store.rules.find? (·.id == id)).map (·.triggerCount)).getD 0 = _
    rw [show s.world.store.rules.find? (·.id == id) = some r from hr]
    rfl
  have hnone : (Scene.mk w []).world.books.count id = 0 := by
    show ((w.store.rules.find? (·.id == id)).map (·.triggerCount)).getD 0 = 0
    rw [fresh.rules]
    rfl
  refine ⟨?_, fun held => ?_, ?_⟩
  · have htotal := (live_counts terms sane fresh.counted lost).2 id
    rw [hcount stored, hnone] at htotal
    omega
  · exact live_current terms sane fresh.counted lost held fun p hp => by cases hp
  · rintro early late old rfl hold
    have before : ∀ h ∈ early, h.Under .lasting := fun h hh => terms h (List.mem_append_left _ hh)
    have after : ∀ h ∈ late, h.Under .lasting := fun h hh => terms h (List.mem_append_right _ hh)
    obtain ⟨hlost, hlost'⟩ := lost_of_append before after sane lost
    have sane' := live_sane Terms.lasting_fair before sane
    obtain ⟨counted, -⟩ := live_counts before sane fresh.counted hlost
    rw [live_append] at stored
    refine ⟨?_, fun l hl => ?_⟩
    · have hgrowth := (live_counts after sane' counted hlost').2 id
      rwa [hcount stored, hcount hold] at hgrowth
    · have hmem : old ∈ (live early ⟨w, []⟩).2.world.books.rules := List.mem_of_find?_eq_some hold
      have hid : old.id = id := by simpa using List.find?_some hold
      have hchain := live_chain Terms.lasting_fair after sane'
      obtain ⟨new, hnew, honward⟩ := hchain.onward not_false old hmem
      have hfound := Store.rule?_of_mem (hchain.sane Terms.lasting_fair.aware sane'.books).nodup hnew
      rw [honward.id, hid] at hfound
      obtain rfl : row = new := Option.some.inj (stored.symm.trans hfound)
      exact honward.last l hl

/-- One trigger waits while another runs and a tick passes. Both are counted. -/
theorem triggers_counted_vent : ∃ row,
    (live [.create .vent, .request 1 true, .trigger 1 true, .tick, .grant]
        ⟨.quiet 0, []⟩).2.world.store.rule? 1 = some row
      ∧ row.triggerCount = 2 := by
  have terms : ∀ h ∈ [Happening.create .vent, .request 1 true, .trigger 1 true, .tick, .grant],
      h.Under .lasting := by
    simp [Happening.Under, Terms.lasting]
  have stored : ((live [.create .vent, .request 1 true, .trigger 1 true, .tick, .grant]
      ⟨.quiet 0, []⟩).2.world.store.rule? 1).isSome = true := by decide +kernel
  obtain ⟨row, hrow⟩ := Option.isSome_iff_exists.1 stored
  obtain ⟨total, -, -⟩ :=
    triggers_counted (World.quiet_fresh 0) rfl terms (by decide +kernel) hrow
  have hmissed : missed 1 [.create .vent, .request 1 true, .trigger 1 true, .tick, .grant]
      ⟨.quiet 0, []⟩ = 0 := by decide +kernel
  have htwice : triggers 1 (live [.create .vent, .request 1 true, .trigger 1 true, .tick, .grant]
      ⟨.quiet 0, []⟩).1 = 2 := by decide +kernel
  rw [hmissed, htwice] at total
  exact ⟨row, hrow, by omega⟩

/-- Two triggers read their rule before either runs; between them the rule is switched off and
a tick drops what the tracker holds. No record is lost, but only one of the two is counted. -/
theorem trigger_uncounted :
    (live [.create .vent, .request 1 true, .request 1 true, .grant, .switch 1 false, .tick, .grant]
        ⟨.quiet 0, []⟩).2.world.memory.lost = (World.quiet 0).memory.lost
      ∧ triggers 1 (live [.create .vent, .request 1 true, .request 1 true, .grant, .switch 1 false,
        .tick, .grant] ⟨.quiet 0, []⟩).1 = 2
      ∧ ((live [.create .vent, .request 1 true, .request 1 true, .grant, .switch 1 false, .tick,
        .grant] ⟨.quiet 0, []⟩).2.world.store.rule? 1).map (·.triggerCount) = some 1 := by
  decide +kernel

end Glasshouse
