/-
Glasshouse.Proofs.Engine.Origin — where what the books hold about a rule comes from.
Executions in the store were written for the rule that they name and are gone
with it (`Chain.historyOf`, `Books.Tidy`). What the tracker holds is about a
stored rule or about one that was deleted since the last tick that loaded rules
(`Chain.sourced`).
-/
import Glasshouse.Proofs.Engine.History

namespace Glasshouse

open Calendar

/-! ## What a log tells about one rule -/

/-- Whether some tick has loaded rules without this one. -/
def dropped (id : Int) (log : List Entry) : Bool :=
  log.any fun
    | .loaded rules => !(rules.any fun r => r.id == id)
    | _ => false

/-- Whether an entry tells of a trigger of this rule. -/
def Entry.tellsTrigger (id : Int) : Entry → Bool
  | .looked _ (.triggered x _) => x.ruleId == id
  | _ => false

/-- How often a rule was triggered. -/
def triggers (id : Int) (log : List Entry) : Nat := log.countP (Entry.tellsTrigger id)

/-- What was to be recorded about a rule that was looked at. -/
def Report.execution? : Report → Option Execution
  | notMatched .. => none
  | suppressed x => some x
  | triggered x _ => some x
  | failed x => some x

/-- The execution that an entry tells of. -/
def Entry.execution? : Entry → Option Execution
  | .looked _ r => r.execution?
  | _ => none

/-- The executions of a rule that a log tells of. -/
def recorded (id : Int) (log : List Entry) : List Execution :=
  (log.filterMap Entry.execution?).filter fun x => x.ruleId == id

/-- The executions of a rule in the store. -/
def Books.historyOf (b : Books) (id : Int) : List ExecutionRow :=
  b.executions.filter fun e => e.ruleId == id

theorem dropped_append (id : Int) (es fs : List Entry) :
    dropped id (es ++ fs) = (dropped id es || dropped id fs) := List.any_append ..

theorem triggers_append (id : Int) (es fs : List Entry) :
    triggers id (es ++ fs) = triggers id es + triggers id fs := List.countP_append ..

theorem recorded_append (id : Int) (es fs : List Entry) :
    recorded id (es ++ fs) = recorded id es ++ recorded id fs := by
  unfold recorded
  rw [List.filterMap_append, List.filter_append]

/-! ## Executions are written for their own rule -/

theorem Engine.Effect.executions {id : Int} {now : Moment} {b b' : Books} {r : Report}
    (h : Engine.Effect id now b r b') (lost : b'.lost = b.lost) :
    ∃ rows, b'.executions = b.executions ++ rows
      ∧ List.Forall₂ ExecutionRow.IsOf rows r.execution?.toList
      ∧ ∀ x ∈ r.execution?, x.ruleId = id := by
  cases h with
  | nothing e => exact ⟨[], (List.append_nil _).symm, .nil, fun x hx => by cases hx⟩
  | @quiet _ x _ report ruleId _ _ record =>
    have hx : r.execution? = some x := by rcases report with rfl | rfl <;> rfl
    rcases record with rfl | ⟨row, hof, rfl⟩
    · exact absurd lost (Nat.succ_ne_self _)
    · rw [hx]
      refine ⟨[row], rfl, .cons hof .nil, fun y hy => ?_⟩
      cases hy
      exact ruleId
  | @trigger x noted b₁ _ ruleId _ _ _ note record =>
    have hle : b.lost ≤ b₁.lost := note.lost_le
    rcases record with rfl | ⟨row, hof, rfl⟩
    · have hlost : b₁.lost + 1 = b.lost := lost
      omega
    · refine ⟨[row], ?_, .cons hof .nil, fun y hy => ?_⟩
      · show b₁.executions ++ [row] = _
        rw [note.same.2.2.1]
        rfl
      · cases hy
        exact ruleId

/-- Rows that hold what was to be recorded still do so among those of one rule. -/
theorem ExecutionRow.isOf_filter {rows : List ExecutionRow} {xs : List Execution}
    (h : List.Forall₂ ExecutionRow.IsOf rows xs) (id : Int) :
    List.Forall₂ ExecutionRow.IsOf (rows.filter fun e => e.ruleId == id)
      (xs.filter fun x => x.ruleId == id) := by
  refine List.rel_filter (fun row x hof => ?_) h
  show (row.ruleId == id) = true ↔ (x.ruleId == id) = true
  rw [hof.ruleId]

theorem recorded_looked (id : Int) (byTick : Bool) (r : Report) :
    recorded id [.looked byTick r] = r.execution?.toList.filter fun x => x.ruleId == id := by
  have h : [Entry.looked byTick r].filterMap Entry.execution? = r.execution?.toList := by
    cases r <;> rfl
  unfold recorded
  rw [h]

theorem Engine.Effect.historyOf {rule : Int} {now : Moment} {b b' : Books} {r : Report}
    (h : Engine.Effect rule now b r b') (lost : b'.lost = b.lost) (byTick : Bool) (id : Int) :
    ∃ rows, b'.historyOf id = b.historyOf id ++ rows
      ∧ List.Forall₂ ExecutionRow.IsOf rows (recorded id [.looked byTick r]) := by
  obtain ⟨rows, hrows, hof, _⟩ := h.executions lost
  refine ⟨rows.filter fun e => e.ruleId == id, ?_, ?_⟩
  · unfold Books.historyOf
    rw [hrows, List.filter_append]
  · rw [recorded_looked]
    exact ExecutionRow.isOf_filter hof id

/-- To the history of a rule a stride that loses no record adds what it tells of. -/
theorem Stride.historyOf {T : Terms} (hT : ∀ m, T.clock m → m.Aware) {b b' : Books}
    {e : Option Entry} (h : Stride T b e b') (hb : b.Sane T) (lost : b'.lost = b.lost) {id : Int}
    (kept : e ≠ some (.deleted id)) :
    ∃ rows, b'.historyOf id = b.historyOf id ++ rows
      ∧ List.Forall₂ ExecutionRow.IsOf rows (recorded id e.toList) := by
  have same : b'.historyOf id = b.historyOf id → recorded id e.toList = [] →
      ∃ rows, b'.historyOf id = b.historyOf id ++ rows
        ∧ List.Forall₂ ExecutionRow.IsOf rows (recorded id e.toList) := by
    intro hh hr
    exact ⟨[], by rw [hh, List.append_nil], by rw [hr]; exact .nil⟩
  cases h with
  | around _ => exact same rfl rfl
  | refuse n => exact same rfl rfl
  | switch k on => exact same rfl rfl
  | create _ _ _ _ => exact same rfl rfl
  | delete k _ =>
    refine same ?_ rfl
    have hk : k ≠ id := fun hk => kept (by rw [hk])
    show List.filter _ (List.filter _ _) = _
    rw [List.filter_filter]
    refine List.filter_congr fun x _ => ?_
    by_cases hx : x.ruleId = id
    · simp [hx, Ne.symm hk]
    · simp [hx]
  | load _ _ _ => exact same rfl rfl
  | look _ course => exact (course.effect hb.aware (hT _ hb.clock)).historyOf lost true id
  | manual _ _ _ aware course =>
    exact (course.effect (hb.aware.merge aware) (hT _ hb.clock)).historyOf lost false id

/-- To the history of a rule a chain that loses no record adds what it tells of. -/
theorem Chain.historyOf {T : Terms} (hT : ∀ m, T.clock m → m.Aware) {b b' : Books}
    {es : List Entry} (h : Chain T b es b') (hb : b.Sane T) (lost : b'.lost = b.lost) {id : Int}
    (kept : .deleted id ∉ es) :
    ∃ rows, b'.historyOf id = b.historyOf id ++ rows
      ∧ List.Forall₂ ExecutionRow.IsOf rows (recorded id es) := by
  induction h with
  | nil b => exact ⟨[], (List.append_nil _).symm, .nil⟩
  | @cons b b₁ b' e es first rest ih =>
    have h₁ := first.lost_le
    have h₂ := rest.lost_le
    rw [List.mem_append, not_or] at kept
    obtain ⟨rows, hrows, hof⟩ := first.historyOf hT hb (by omega)
      fun he => kept.1 (by rw [he]; exact List.mem_singleton_self _)
    obtain ⟨more, hmore, hmof⟩ := ih (first.sane hT hb) (by omega) kept.2
    refine ⟨rows ++ more, ?_, ?_⟩
    · rw [hmore, hrows, List.append_assoc]
    · rw [recorded_append]
      exact List.rel_append hof hmof

/-- Every execution is of a stored rule. -/
def Books.Owned (b : Books) : Prop := ∀ e ∈ b.executions, e.ruleId ∈ b.ids

theorem Recorded.owned {x : Execution} {b b' : Books} (h : Recorded x b b') (hb : b.Owned)
    (hx : x.ruleId ∈ b.ids) : b'.Owned := by
  rcases h with rfl | ⟨row, hof, rfl⟩
  · exact hb
  · intro e he
    rcases List.mem_append.1 he with he | he
    · exact hb e he
    · rw [List.mem_singleton.1 he, hof.ruleId]
      exact hx

/-- The number of the rule that was looked at, and the tracker afterwards. -/
theorem Engine.Effect.tracker {id : Int} {now : Moment} {b b' : Books} {r : Report}
    (h : Engine.Effect id now b r b') :
    b'.cooldowns = b.cooldowns ∨ b'.cooldowns = b.cooldowns.marked id now := by
  cases h with
  | nothing e => exact .inl rfl
  | quiet _ _ _ _ record => exact .inl record.same.2.1
  | trigger _ _ _ _ note record => exact .inr (record.same.2.1.trans note.same.1)

theorem Engine.Effect.owned {id : Int} {now : Moment} {b b' : Books} {r : Report}
    (h : Engine.Effect id now b r b') (hb : b.Owned) (hid : id ∈ b.ids) : b'.Owned := by
  have hids := h.ids_eq
  cases h with
  | nothing e => exact hb
  | quiet _ ruleId _ _ record =>
    have hlooked : b.looked.Owned := hb
    exact record.owned hlooked (ruleId ▸ hid)
  | @trigger x _ b₁ _ ruleId _ _ _ note record =>
    have hsame : b₁.ids = b.ids := by
      rw [← hids]
      exact (congrArg (List.map fun r : RuleRow => r.id) record.same.1).symm
    have hnoted : b₁.Owned := by
      intro e he
      rw [note.same.2.2.1] at he
      exact hsame ▸ hb e he
    exact record.owned hnoted (hsame ▸ ruleId ▸ hid)

/-- What holds of the books of every history: executions are of stored rules, and what
the tracker holds is complete. -/
structure Books.Tidy (b : Books) : Prop where
  owned : b.Owned
  counted : b.cooldowns.Counted

theorem Stride.tidy {T : Terms} (hT : ∀ m, T.clock m → m.Aware) {b b' : Books}
    {e : Option Entry} (h : Stride T b e b') (hs : b.Sane T) (hb : b.Tidy) : b'.Tidy := by
  cases h with
  | around _ => exact ⟨hb.owned, hb.counted⟩
  | refuse n => exact ⟨hb.owned, hb.counted⟩
  | switch k on =>
    refine ⟨fun e he => ?_, hb.counted⟩
    rw [Books.ids_update b k (RuleRow.switched on) fun _ => rfl]
    exact hb.owned e he
  | create _ _ _ _ =>
    refine ⟨fun e he => ?_, hb.counted⟩
    show e.ruleId ∈ List.map _ (_ ++ _)
    rw [List.map_append]
    exact List.mem_append_left _ (hb.owned e he)
  | delete k _ =>
    refine ⟨fun e he => ?_, hb.counted⟩
    obtain ⟨hmem, hne⟩ := List.mem_filter.1 he
    obtain ⟨row, hrow, hid⟩ := List.mem_map.1 (hb.owned e hmem)
    rw [← hid] at hne ⊢
    exact List.mem_map_of_mem (List.mem_filter.2 ⟨hrow, hne⟩)
  | load _ _ _ => exact ⟨hb.owned, hb.counted.refreshed _⟩
  | look ready course =>
    have he := course.effect hs.aware (hT _ hs.clock)
    refine ⟨he.owned hb.owned ready.stored, ?_⟩
    rcases he.tracker with hc | hc
    · exact hc ▸ hb.counted
    · exact hc ▸ hb.counted.marked _ _
  | @manual rule row _ _ _ stored id _ aware course =>
    have he := course.effect (hs.aware.merge aware) (hT _ hs.clock)
    have howned : (b.track (b.cooldowns.merge rule)).Owned := hb.owned
    refine ⟨he.owned howned (id ▸ List.mem_map_of_mem stored), ?_⟩
    have hcounted := hb.counted.merge rule
    rcases he.tracker with hc | hc
    · exact hc ▸ hcounted
    · exact hc ▸ hcounted.marked _ _

theorem Chain.tidy {T : Terms} (hT : ∀ m, T.clock m → m.Aware) {b b' : Books} {es : List Entry}
    (h : Chain T b es b') (hs : b.Sane T) (hb : b.Tidy) : b'.Tidy := by
  induction h with
  | nil => exact hb
  | cons first _ ih => exact ih (first.sane hT hs) (first.tidy hT hs hb)

/-! ## Where the tracker has something from -/

/-- A rule of this number was deleted, and no tick has loaded rules since. -/
def Lately (id : Int) (log : List Entry) : Prop :=
  ∃ early late, log = early ++ .deleted id :: late ∧ ∀ rules, .loaded rules ∉ late

theorem Lately.append {id : Int} {log : List Entry} (h : Lately id log) {es : List Entry}
    (hes : ∀ rules, .loaded rules ∉ es) : Lately id (log ++ es) := by
  obtain ⟨early, late, rfl, hl⟩ := h
  refine ⟨early, late ++ es, by rw [List.append_assoc, List.cons_append], fun rules hm => ?_⟩
  rcases List.mem_append.1 hm with hm | hm
  · exact hl rules hm
  · exact hes rules hm

/-- The tracker holds something only about rules that are stored, or that were deleted
lately. -/
def Books.Sourced (log : List Entry) (b : Books) : Prop :=
  ∀ id, b.cooldowns.Holds id → id ∈ b.ids ∨ Lately id log

/-- The tracker after a rule was looked at holds no more rules than before and this one. -/
theorem Engine.Effect.holds {id : Int} {now : Moment} {b b' : Books} {r : Report}
    (h : Engine.Effect id now b r b') {k : Int} (hk : b'.cooldowns.Holds k) :
    b.cooldowns.Holds k ∨ k = id := by
  rcases h.tracker with hc | hc
  · exact .inl (hc ▸ hk)
  · by_cases hid : id = k
    · exact .inr hid.symm
    · rw [hc, (Cooldown.marked_of_ne now hid).holds] at hk
      exact .inl hk

theorem Stride.sourced {T : Terms} (hT : ∀ m, T.clock m → m.Aware) {b b' : Books}
    {e : Option Entry} (h : Stride T b e b') (hs : b.Sane T) (hb : b.Tidy) {log : List Entry}
    (hsource : b.Sourced log) : b'.Sourced (log ++ e.toList) := by
  intro id hid
  have later : (∀ rules, e ≠ some (.loaded rules)) → Lately id log →
      Lately id (log ++ e.toList) := by
    intro he hl
    exact hl.append fun rules hm => he rules (Option.mem_toList.1 hm)
  cases h with
  | around _ => exact (hsource id hid).imp_right (later fun _ => nofun)
  | refuse n => exact (hsource id hid).imp_right (later fun _ => nofun)
  | switch k on =>
    rw [Books.ids_update b k (RuleRow.switched on) fun _ => rfl]
    exact (hsource id hid).imp_right (later fun _ => nofun)
  | create _ _ _ _ =>
    refine (hsource id hid).imp (fun hmem => ?_) (later fun _ => nofun)
    show id ∈ List.map _ (_ ++ _)
    rw [List.map_append]
    exact List.mem_append_left _ hmem
  | delete k _ =>
    rcases hsource id hid with hmem | hl
    · by_cases hk : k = id
      · exact .inr ⟨log, [], by rw [hk]; rfl, fun _ => List.not_mem_nil⟩
      · obtain ⟨row, hrow, rfl⟩ := List.mem_map.1 hmem
        refine .inl (List.mem_map_of_mem (List.mem_filter.2 ⟨hrow, ?_⟩))
        simpa using Ne.symm hk
    · exact .inr (later (fun _ => nofun) hl)
  | @load rules _ _ rows _ =>
    by_cases hmem : ∃ rule ∈ rules, rule.id = id
    · obtain ⟨rule, hr, rfl⟩ := hmem
      obtain ⟨row, hrow, hbuilt⟩ := rows rule hr
      rw [(RuleRow.isOf_of_toRule hbuilt).id]
      exact .inl (List.mem_map_of_mem hrow)
    · refine absurd hid (Cooldown.not_holds_refreshed hb.counted fun rule hr hk => ?_)
      exact hmem ⟨rule, hr, hk⟩
  | look ready course =>
    have he := course.effect hs.aware (hT _ hs.clock)
    rw [he.ids_eq]
    rcases he.holds hid with hold | rfl
    · exact (hsource id hold).imp_right (later fun _ => nofun)
    · exact .inl ready.stored
  | @manual rule row _ _ _ stored hrow _ aware course =>
    have he := course.effect (hs.aware.merge aware) (hT _ hs.clock)
    rw [he.ids_eq]
    have hstored : rule.id ∈ b.ids := hrow ▸ List.mem_map_of_mem stored
    rcases he.holds hid with hold | rfl
    · by_cases hk : rule.id = id
      · exact .inl (hk ▸ hstored)
      · have hold' : (b.cooldowns.merge rule).Holds id := hold
        rw [(Cooldown.merge_of_ne hk).holds] at hold'
        exact (hsource id hold').imp_right (later fun _ => nofun)
    · exact .inl hstored

theorem Chain.sourced {T : Terms} (hT : ∀ m, T.clock m → m.Aware) {b b' : Books}
    {es : List Entry} (h : Chain T b es b') (hs : b.Sane T) (hb : b.Tidy) {log : List Entry}
    (hsource : b.Sourced log) : b'.Sourced (log ++ es) := by
  induction h generalizing log with
  | nil =>
    rw [List.append_nil]
    exact hsource
  | cons first _ ih =>
    rw [← List.append_assoc]
    exact ih (first.sane hT hs) (first.tidy hT hs hb) (first.sourced hT hs hb hsource)

end Glasshouse
