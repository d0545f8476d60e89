/-
Glasshouse.Proofs.Engine.Priorities — rules that keep out of each other's way may come in any order.
Where no device that one rule commands is read or commanded by another, priorities decide
neither what becomes of the rules in a tick nor what is stored by it, apart from the order
of executions and jobs. Main statement: `ranks_change_no_deed`.

Side conditions of the main statement. Actions are commands and jobs: what a request
or a notice is answered may depend on what was sent before. Calls fail, if they do, in
the same way every time, since a fault that is laid down for one time would hit the
rule that comes first. No action is given up and no command arrives that was given up
before, in either of the two ticks.
-/
import Glasshouse.Proofs.Engine.RuleOutcomes
import Glasshouse.Proofs.Service.Listing

namespace Glasshouse

open Calendar Plan World

/-! ## Priorities -/

/-- A definition with another priority. -/
def Definition.withPriority (n : Int) (d : Definition) : Definition := { d with priority := n }

/-- A rule with another priority. -/
def Rule.withPriority (n : Int) (rule : Rule) : Rule := { rule with priority := n }

/-- A row with another priority. -/
def RuleRow.withPriority (n : Int) (r : RuleRow) : RuleRow := { r with priority := n }

namespace Checked

variable {α β γ : Type}

theorem map_map (f : α → β) (g : β → γ) (x : Checked α) : (x.map f).map g = x.map (g ∘ f) := by
  cases x <;> rfl

theorem map_seq (h : β → γ) (f : Checked (α → β)) (x : Checked α) :
    (f <*> x).map h = f.map (h ∘ ·) <*> x := by
  cases f <;> cases x <;> rfl

theorem seq_ok (f : Checked (α → β)) (a : α) : f <*> (.ok a : Checked α) = f.map fun g => g a := by
  cases f <;> rfl

end Checked

theorem Definition.accept_map {α β : Type} (wrap : List Issue → Rejection) (f : α → β)
    (x : Checked α) : accept wrap (x.map f) = (accept wrap x).map f := by
  cases x <;> rfl

namespace RuleRow

/-- A row with another priority holds the same definition but for the priority. -/
theorem readFields_withPriority (n : Int) (r : RuleRow) :
    Definition.readFields (r.withPriority n).fields
      = (Definition.readFields r.fields).map (Checked.map (Definition.withPriority n)) := by
  have hnew : Schema.optional (r.withPriority n).fields Key.rulePriority 5 Schema.integer
      = .ok n := rfl
  have hold : Schema.optional r.fields Key.rulePriority 5 Schema.integer = .ok r.priority := rfl
  unfold Definition.readFields
  rw [hnew, hold, readConditions_fields, readConditions_fields, readActions_fields,
    readActions_fields, show (r.withPriority n).conditions = r.conditions from rfl,
    show (r.withPriority n).actions = r.actions from rfl]
  cases (Condition.parse r.conditions).map Checked.ok with
  | error e => rfl
  | ok c =>
    cases Action.parse r.actions with
    | error e => rfl
    | ok as =>
      refine congrArg Except.ok ?_
      simp only [Checked.map_seq, Checked.seq_ok, Checked.map_map, Functor.map]
      rfl

/-- A row with another priority holds the same rule but for the priority. -/
theorem toRule_withPriority (n : Int) (r : RuleRow) :
    (r.withPriority n).toRule = r.toRule.map (Rule.withPriority n) := by
  have hread : ∀ last, Rule.read (r.withPriority n).fields last
      = (Rule.read r.fields last).map (Rule.withPriority n) := by
    intro last
    unfold Rule.read
    rw [readFields_withPriority, get_triggerCount, get_triggerCount]
    cases Definition.readFields r.fields with
    | error e => rfl
    | ok x =>
      refine Eq.trans ?_ (Definition.accept_map ..)
      show Definition.accept Rejection.fields
        (Checked.map _ (x.map (Definition.withPriority n)) <*> _ <*> _) = _
      simp only [Checked.map_seq, Checked.map_map, Functor.map]
      rfl
  unfold toRule Rule.ofRecord
  rw [hread]
  rw [show (r.withPriority n).lastTriggered = r.lastTriggered from rfl]
  cases Rule.read r.fields ((r.lastTriggered.map fun i => ⟨i, none⟩).map Moment.assumeUtc) with
  | error e => rfl
  | ok a => rfl

end RuleRow

/-- A priority for every number of a rule. -/
abbrev Ranking := Int → Int

namespace Ranking

variable (p : Ranking)

/-- A row with the priority of its number. -/
def row (r : RuleRow) : RuleRow := r.withPriority (p r.id)

/-- A rule with the priority of its number. -/
def rule (a : Rule) : Rule := a.withPriority (p a.id)

theorem rule?_row (r : RuleRow) : (p.row r).rule? = r.rule?.map p.rule := by
  unfold row RuleRow.rule?
  rw [RuleRow.toRule_withPriority]
  cases h : r.toRule with
  | error e => rfl
  | ok a =>
    show some (a.withPriority (p r.id)) = some (a.withPriority (p a.id))
    rw [(RuleRow.isOf_of_toRule h).id]

end Ranking

namespace World

variable (p : Ranking) (w : World)

/-- A world with other priorities. -/
def ranked : World := { w with store := { w.store with rules := w.store.rules.map p.row } }

theorem enabledRows_ranked :
    (w.ranked p).books.enabledRows.Perm (w.books.enabledRows.map p.row) := by
  have hnew : (w.ranked p).books.enabledRows.Perm
      ((w.store.rules.map p.row).filter (·.enabled)) :=
    (List.mergeSort_perm (w.store.rules.map p.row) RuleRow.before).filter _
  have hold : w.books.enabledRows.Perm (w.store.rules.filter (·.enabled)) :=
    (List.mergeSort_perm w.store.rules RuleRow.before).filter _
  rw [List.filter_map] at hnew
  exact hnew.trans (hold.map p.row).symm

/-- A world with other priorities holds the same rules but for these, in some order. -/
theorem built_ranked : (w.ranked p).books.built.Perm (w.books.built.map p.rule) := by
  refine ((w.enabledRows_ranked p).filterMap RuleRow.rule?).trans (.of_eq ?_)
  rw [List.filterMap_map, Books.built, List.map_filterMap]
  exact congrArg (fun f => w.books.enabledRows.filterMap f) (funext p.rule?_row)

theorem ids_ranked : (w.ranked p).books.ids = w.books.ids := by
  show (w.store.rules.map p.row).map (·.id) = _
  rw [List.map_map]
  rfl

end World

/-! ## The tracker -/

namespace Cooldown

variable {t u : Cooldown} {rules : List Rule} {rule : Rule} {id : Int}

/-- What comes of merging in the record of a rule depends on what is held about it. -/
theorem SameAt.sync (h : SameAt rule.id t u) :
    (t.sync rule).1 = (u.sync rule).1 ∧ SameAt rule.id (t.sync rule).2 (u.sync rule).2 := by
  have hput : ∀ {α : Type} (x y : Table Int α) (a : α),
      (x.put rule.id a).get? rule.id = (y.put rule.id a).get? rule.id := fun x y a => by
    rw [Table.get?_put, Table.get?_put, if_pos rfl, if_pos rfl]
  have hcount : max (t.triggerCount rule.id) rule.triggerCount
      = max (u.triggerCount rule.id) rule.triggerCount := by rw [h.triggerCount]
  unfold Cooldown.sync
  cases rule.lastTriggered with
  | none =>
    refine ⟨rfl, h.last, ?_, hput _ _ _⟩
    show (t.counts.put rule.id (max (t.triggerCount rule.id) rule.triggerCount)).get? rule.id = _
    rw [hcount]
    exact hput _ _ _
  | some m =>
    simp only [advance, h.last]
    cases later (u.last.get? rule.id) m with
    | error f => exact ⟨rfl, h.last, h.counts, hput _ _ _⟩
    | ok l =>
      refine ⟨rfl, hput _ _ _, ?_, hput _ _ _⟩
      show (t.counts.put rule.id (max (t.triggerCount rule.id) rule.triggerCount)).get? rule.id = _
      rw [hcount]
      exact hput _ _ _

/-- Of rules with different numbers each is merged in on its own, as long as all can be. -/
theorem syncAll_spec (distinct : (rules.map (·.id)).Nodup) (t : Cooldown) :
    ((t.syncAll rules).1 = .ok () ↔ ∀ rule ∈ rules, (t.sync rule).1 = .ok ()) ∧
      ((t.syncAll rules).1 = .ok () → ∀ rule ∈ rules,
        SameAt rule.id (t.syncAll rules).2 (t.sync rule).2) := by
  induction rules generalizing t with
  | nil => exact ⟨⟨fun _ _ h => absurd h List.not_mem_nil, fun _ => rfl⟩,
      fun _ _ h => absurd h List.not_mem_nil⟩
  | cons q rules ih =>
    rw [List.map_cons, List.nodup_cons] at distinct
    have hne : ∀ rule ∈ rules, rule.id ≠ q.id := fun rule hr h =>
      distinct.1 (h ▸ List.mem_map_of_mem hr)
    simp only [List.forall_mem_cons]
    unfold syncAll
    rcases hx : t.sync q with ⟨f | _, t'⟩
    · simp
    · have hother : ∀ rule ∈ rules, SameAt rule.id t' t := fun rule hr => by
        have hq := sync_of_ne (hne rule hr).symm t
        rw [hx] at hq
        exact hq
      obtain ⟨hiff, hat⟩ := ih distinct.2 t'
      refine ⟨?_, fun hok => ⟨syncAll_of_ne hne t', fun rule hr =>
        (hat hok rule hr).trans (hother rule hr).sync.2⟩⟩
      rw [hiff]
      refine ⟨fun hall => ⟨rfl, fun rule hr => ?_⟩, fun hall rule hr => ?_⟩
      · rw [← (hother rule hr).sync.1]
        exact hall rule hr
      · rw [(hother rule hr).sync.1]
        exact hall.2 rule hr

/-- A round merges in each of its rules on its own, as long as all can be. -/
theorem refresh_spec (distinct : (rules.map (·.id)).Nodup) (t : Cooldown) :
    ((t.refresh rules).1 = .ok () ↔ ∀ rule ∈ rules, (t.sync rule).1 = .ok ()) ∧
      ((t.refresh rules).1 = .ok () → ∀ rule ∈ rules,
        SameAt rule.id (t.refresh rules).2 (t.sync rule).2) := by
  obtain ⟨hiff, hat⟩ := syncAll_spec distinct
    ((t.known.filter fun id => !(rules.any fun q => q.id == id)).foldl forget t)
  unfold refresh
  refine ⟨hiff.trans (forall₂_congr fun rule hr => ?_),
    fun hok rule hr => (hat hok rule hr).trans (forgetAll_of_mem hr t).sync.2⟩
  rw [(forgetAll_of_mem hr t).sync.1]

end Cooldown

/-! ## Ticks -/

/-- Where calls fail in the same way every time, a tick comes to look at rules. -/
structure World.Opens (w : World) : Prop where
  tick : w.gate .tick = none
  free : w.memory.locked = false
  load : w.gate .enabledRules = none
  rows : ∀ row ∈ w.books.enabledRows, ¬ row.Raises
  merge : ∀ rule ∈ w.books.built, (w.memory.cooldowns.sync rule).1 = .ok ()

/-- Whether a tick comes to look at rules does not depend on their priorities. -/
theorem World.opens_ranked (p : Ranking) (w : World) : (w.ranked p).Opens ↔ w.Opens := by
  have hrows : (∀ row ∈ (w.ranked p).books.enabledRows, ¬ row.Raises) ↔
      ∀ row ∈ w.books.enabledRows, ¬ row.Raises := by
    simp only [(w.enabledRows_ranked p).mem_iff, List.forall_mem_map]
    exact Iff.rfl
  have hmerge : (∀ rule ∈ (w.ranked p).books.built, (w.memory.cooldowns.sync rule).1 = .ok ()) ↔
      ∀ rule ∈ w.books.built, (w.memory.cooldowns.sync rule).1 = .ok () := by
    simp only [(w.built_ranked p).mem_iff, List.forall_mem_map]
    exact Iff.rfl
  exact ⟨fun h => ⟨h.tick, h.free, h.load, hrows.1 h.rows, hmerge.1 h.merge⟩,
    fun h => ⟨h.tick, h.free, h.load, hrows.2 h.rows, hmerge.2 h.merge⟩⟩

namespace Engine

/-- What a tick comes to where calls fail in the same way every time: it ends before it looks
at rules, or it looks at them in their order, with a tracker that has taken over their records. -/
inductive Opening (w : World) : Except Fault (Option Round) → World → Prop
  | shut {x : Except Fault (Option Round)} {v : World} (shut : ¬ w.Opens)
      (none : ∀ now rules reports, x ≠ .ok (some (.done now rules reports)))
      (store : v.store = w.store) : Opening w x v
  | opened {m : Memory} {reports : List Report} {v v' : World} (opens : w.Opens)
      (cooldowns : m.cooldowns = (w.memory.cooldowns.refresh w.books.built).2)
      (run : (processAll w.clock w.lined).run { w with memory := m } = (reports, v))
      (after : World.Idle v v') : Opening w (.ok (some (.done w.clock w.lined reports))) v'

variable {w : World}

theorem Opening.after {x : Except Fault (Option Round)} {v v' : World} (h : Opening w x v)
    (still : World.Idle v v') : Opening w x v' := by
  cases h with
  | shut shut none store => exact .shut shut none (still.store.trans store)
  | opened opens cooldowns run after => exact .opened opens cooldowns run (after.trans still)

theorem tickWith_opening {m : Memory} (cooldowns : m.cooldowns = w.memory.cooldowns)
    (order : m.order = w.memory.order) (distinct : w.books.ids.Nodup)
    (tick : w.gate .tick = none) (free : w.memory.locked = false)
    (load : w.gate .enabledRules = none) :
    let r := (tickWith w.clock w.books.enabledRows).run.run { w with memory := m }
    Opening w (r.1.map some) r.2 := by
  obtain ⟨hmerges, -⟩ := Cooldown.refresh_spec (w.books.built_ids distinct) w.memory.cooldowns
  rw [tickWith_eq]
  rcases hs : sift w.books.enabledRows with ⟨f | rules, n⟩
  · refine .shut (fun h => ?_) (fun _ _ _ h => by cases h) rfl
    obtain ⟨row, hrow, raises⟩ := sift_error_iff.1 ⟨f, n, hs⟩
    exact h.rows row hrow raises
  · have hrows : ∀ row ∈ w.books.enabledRows, ¬ row.Raises := fun row hrow raises => by
      obtain ⟨f, k, hf⟩ := sift_error_iff.2 ⟨row, hrow, raises⟩
      cases hs.symm.trans hf
    obtain ⟨rfl, -⟩ := sift_built hs
    dsimp only
    rw [cooldowns]
    rcases hc : w.memory.cooldowns.refresh w.books.built with ⟨f | _, c⟩
    · rw [hc] at hmerges
      refine .shut (fun h => ?_) (fun _ _ _ h => by cases h) rfl
      cases hmerges.2 h.merge
    · rw [hc] at hmerges
      dsimp only
      rw [order]
      exact .opened ⟨tick, free, load, hrows, hmerges.1 rfl⟩ (by rw [hc]) rfl (idle_memory _ _)

theorem tickLocked_opening (uniform : w.Uniform) {m : Memory}
    (cooldowns : m.cooldowns = w.memory.cooldowns) (order : m.order = w.memory.order)
    (distinct : w.books.ids.Nodup) (tick : w.gate .tick = none) (free : w.memory.locked = false) :
    let r := tickLocked.run.run { w with memory := m }
    Opening w (r.1.map some) r.2 := by
  have huniform : (World.ticked { w with memory := m }).Uniform := uniform
  rw [tickLocked_eq, huniform.consult,
    show (World.ticked { w with memory := m }).gate .enabledRules = w.gate .enabledRules from rfl]
  cases hload : w.gate .enabledRules with
  | none => exact tickWith_opening cooldowns order distinct tick free hload
  | some f =>
    refine .shut (fun h => ?_) (fun _ _ _ h => by cases h) rfl
    cases hload.symm.trans h.load

theorem round_opening (uniform : w.Uniform) (distinct : w.books.ids.Nodup) :
    Opening w (round.run.run w).1 (round.run.run w).2 := by
  rw [round_eq, uniform.consult]
  cases htick : w.gate .tick with
  | some f =>
    refine .shut (fun h => ?_) (fun _ _ _ h => by cases h) rfl
    cases htick.symm.trans h.tick
  | none =>
    dsimp only
    cases hlocked : w.memory.locked with
    | true =>
      refine .shut (fun h => ?_) (fun _ _ _ h => by cases h) rfl
      cases hlocked.symm.trans h.free
    | false =>
      have hopening := tickLocked_opening uniform (m := { w.memory with locked := true }) rfl rfl
        distinct htick hlocked
      exact hopening.after (idle_memory _ _)

end Engine

/-- A tick that comes to look at rules gives them the outcomes that they have in the world in
which it begins, where calls fail in the same way every time; any other leaves the store as it
was. -/
theorem Engine.round_ruleOutcomes {w w' : World} {x : Except Fault (Option Round)}
    (run : round.run.run w = (x, w')) (uniform : w.Uniform) (distinct : w.books.ids.Nodup)
    (domestic : ∀ rule ∈ w.books.built, ∀ a ∈ rule.actions, a.domestic = true)
    (independent : Rule.Independent w.books.built)
    (timely : ∀ now rules reports, x = .ok (some (.done now rules reports)) →
      ∀ r ∈ reports, r.Timely)
    (aloft : ∀ f ∈ w.flights, w'.elapsed < f.due) :
    (¬ w.Opens ∧ (∀ now rules reports, x ≠ .ok (some (.done now rules reports))) ∧
      w'.store = w.store) ∨
    w.Opens ∧ ∃ reports, x = .ok (some (.done w.clock w.lined reports)) ∧
      reports.map Report.unnumbered =
        (w.begun.ruleOutcomes w.clock w.lined).map RuleOutcome.report ∧
      w.ChangedByAll (w.begun.ruleOutcomes w.clock w.lined) w' := by
  have hopening := round_opening uniform distinct
  rw [run] at hopening
  cases hopening with
  | shut shut none store => exact .inl ⟨shut, none, store⟩
  | @opened m reports v _ opens cooldowns looks after =>
    have hperm : w.lined.Perm w.books.built :=
      w.memory.order.sortBy_perm (fun r : Rule => r.id) (fun r => r.priority) w.books.built
    have hdistinct : (w.lined.map (·.id)).Nodup :=
      (hperm.map _).nodup_iff.2 (w.books.built_ids distinct)
    have hspares : w.lined.Pairwise Rule.Spares :=
      (List.pairwise_map.1 hdistinct).imp_of_mem fun {p q} hp hq hne =>
        independent p (hperm.subset hp) q (hperm.subset hq) hne
    have hview : ∀ rule ∈ w.lined, SameViewFor rule { w with memory := m } w.begun := fun rule _ =>
      ⟨rfl, rfl, rfl, fun _ _ => rfl, cooldowns ▸ .refl rule.id _, rfl⟩
    obtain ⟨hreports, hchanged⟩ := processAll_ruleOutcomes (v := { w with memory := m }) uniform hview
      (fun rule hr => domestic rule (hperm.subset hr)) hspares hdistinct looks (timely _ _ _ rfl)
      fun f hf => after.elapsed ▸ aloft f hf
    have hbefore : Changed id [] id [] w { w with memory := m } := .still rfl rfl rfl rfl
    refine .inr ⟨opens, reports, rfl, hreports, ?_⟩
    exact (hbefore.trans hchanged).after after.sameView.zone after.store
      (after.outages (hchanged.uniform uniform)) after.flights

/-- Rules cannot tell with which priorities a tick begins. -/
theorem World.begun_ranked (p : Ranking) {w : World} (distinct : w.books.ids.Nodup)
    (opens : w.Opens) {rule : Rule} (hr : rule ∈ w.books.built) :
    SameViewFor rule (w.ranked p).begun w.begun where
  zone := rfl
  readings := rfl
  outages := rfl
  device _ _ := rfl
  cooldowns := by
    have hids : (w.ranked p).books.ids.Nodup := w.ids_ranked p ▸ distinct
    have hmem : p.rule rule ∈ (w.ranked p).books.built :=
      (w.built_ranked p).mem_iff.2 (List.mem_map_of_mem hr)
    obtain ⟨hiff, hat⟩ :=
      Cooldown.refresh_spec ((w.ranked p).books.built_ids hids) w.memory.cooldowns
    obtain ⟨hiff', hat'⟩ := Cooldown.refresh_spec (w.books.built_ids distinct) w.memory.cooldowns
    exact (hat (hiff.2 ((w.opens_ranked p).2 opens).merge) (p.rule rule) hmem).trans
      (hat' (hiff'.2 opens.merge) rule hr).symm
  count := by
    show (((w.store.rules.map p.row).find? fun r => r.id == rule.id)).map _ = _
    rw [List.find?_map, Option.map_map]
    rfl

/-- Rules have the same outcomes whatever their priorities. -/
theorem World.ruleOutcomes_ranked (p : Ranking) {w : World} (uniform : w.Uniform)
    (distinct : w.books.ids.Nodup) (opens : w.Opens) :
    ((w.ranked p).begun.ruleOutcomes w.clock (w.ranked p).lined).Perm
      (w.begun.ruleOutcomes w.clock w.books.built) := by
  have hlined : (w.ranked p).lined.Perm (w.ranked p).books.built :=
    w.memory.order.sortBy_perm (fun r : Rule => r.id) (fun r => r.priority)
      (w.ranked p).books.built
  refine ((hlined.trans (w.built_ranked p)).map _).trans (.of_eq ?_)
  rw [List.map_map]
  exact List.map_congr_left
    fun rule hr => (begun_ranked p distinct opens hr).ruleOutcome uniform w.clock

/-! ## Any two orders -/

/-- Notes do not touch priorities. -/
theorem Ranking.noting_row (p : Ranking) (id : Int) (note : Option (Instant × Int)) (r : RuleRow) :
    (p.row r).noting id note = p.row (r.noting id note) := by
  unfold RuleRow.noting
  cases note with
  | none => rfl
  | some x =>
    by_cases h : r.id = id
    · have hrow : (p.row r).id = id := h
      simp only [h, hrow, beq_self_eq_true, if_true]
      rfl
    · have hrow : (p.row r).id ≠ id := h
      simp only [beq_eq_false_iff_ne.2 h, beq_eq_false_iff_ne.2 hrow, Bool.false_eq_true, if_false]

/-- The reports of a tick, if it came to look at rules. -/
def Round.reports? : Except Fault (Option Round) → Option (List Report)
  | .ok (some (.done _ _ reports)) => some reports
  | _ => none

theorem Round.reports?_eq_some {x : Except Fault (Option Round)} {rs : List Report} :
    reports? x = some rs ↔ ∃ now rules, x = .ok (some (.done now rules rs)) := by
  unfold reports?
  split
  · simp
  · rename_i h
    exact ⟨fun hnone => (by cases hnone), fun ⟨now, rules, hx⟩ => absurd hx (h now rules rs)⟩

/-- What a tick with other priorities does, by the outcomes that rules have without these. -/
structure World.Yields (p : Ranking) (ds : List RuleOutcome) (w : World) (rs : List Report)
    (v : World) : Prop where
  reports : (rs.map Report.unnumbered).Perm (ds.map RuleOutcome.report)
  devices : v.store.devices
    = w.store.devices.map fun d => ds.foldl (fun d e => Dispatch.upon w.gate e.actions d) d
  rules : v.store.rules
    = (w.store.rules.map fun r => ds.foldl (fun r e => r.noting e.rule e.note) r).map p.row
  executions : ∃ xs, v.store.executions = w.store.executions ++ xs ∧
    (xs.map ExecutionRow.unnumbered).Perm (ds.flatMap fun e => e.report.kept w.gate)
  jobs : ∃ js, v.store.jobs = w.store.jobs ++ js ∧
    (js.map JobRow.unnumbered).Perm (ds.flatMap RuleOutcome.jobs)

/-- A tick that comes to look at rules gives rules their outcomes, in some order. -/
theorem Engine.round_ranked {w v : World} {p : Ranking} {x : Except Fault (Option Round)}
    (run : round.run.run (w.ranked p) = (x, v)) (uniform : w.Uniform) (distinct : w.books.ids.Nodup)
    (domestic : ∀ rule ∈ w.books.built, ∀ a ∈ rule.actions, a.domestic = true)
    (independent : Rule.Independent w.books.built)
    (timely : ∀ rs, Round.reports? x = some rs → ∀ r ∈ rs, r.Timely)
    (aloft : ∀ f ∈ w.flights, v.elapsed < f.due) :
    (¬ w.Opens ∧ Round.reports? x = none ∧ v.store = (w.ranked p).store) ∨
    w.Opens ∧ ∃ rs, Round.reports? x = some rs ∧
      w.Yields p (w.begun.ruleOutcomes w.clock w.books.built) rs v := by
  have hbuilt : ∀ a ∈ (w.ranked p).books.built, ∃ rule ∈ w.books.built, p.rule rule = a :=
    fun a ha => List.mem_map.1 ((w.built_ranked p).mem_iff.1 ha)
  have hdomestic : ∀ a ∈ (w.ranked p).books.built, ∀ b ∈ a.actions, b.domestic = true := by
    intro a ha
    obtain ⟨rule, hr, rfl⟩ := hbuilt a ha
    exact domestic rule hr
  have hindependent : Rule.Independent (w.ranked p).books.built := by
    intro a ha b hb
    obtain ⟨rule, hr, rfl⟩ := hbuilt a ha
    obtain ⟨rule', hr', rfl⟩ := hbuilt b hb
    exact independent rule hr rule' hr'
  rcases round_ruleOutcomes run uniform (w.ids_ranked p ▸ distinct) hdomestic hindependent
    (fun now rules reports h => timely reports (by rw [h]; rfl)) aloft with
    ⟨hshut, hnone, hstore⟩ | ⟨hopens, reports, rfl, hreports, hchanged⟩
  · refine .inl ⟨fun h => hshut ((w.opens_ranked p).2 h), ?_, hstore⟩
    unfold Round.reports?
    split
    · exact absurd rfl (hnone _ _ _)
    · rfl
  · have hopens' : w.Opens := (w.opens_ranked p).1 hopens
    have hperm := ruleOutcomes_ranked p uniform distinct hopens'
    refine .inr ⟨hopens', reports, rfl, ?_, ?_, ?_, ?_, ?_⟩
    · rw [hreports]
      exact hperm.map _
    · rw [hchanged.devices]
      exact List.map_congr_left fun d _ =>
        (upon_perm w.gate independent (w.books.built_ids distinct) hperm.symm d).symm
    · have hids : ((w.begun.ruleOutcomes w.clock w.books.built).map RuleOutcome.rule).Nodup := by
        rw [ruleOutcomes, List.map_map]
        simpa only [Function.comp_def, (ruleOutcome_of _ _ _).ruleId]
          using w.books.built_ids distinct
      rw [hchanged.rules]
      show (w.store.rules.map p.row).map _ = _
      rw [List.map_map, List.map_map]
      refine List.map_congr_left fun r _ => ?_
      exact (noting_perm hids hperm.symm (p.row r)).symm.trans
        (List.foldl_hom p.row fun r d => p.noting_row d.rule d.note r)
    · obtain ⟨ys, hys, hkept⟩ := hchanged.executions
      exact ⟨ys, hys, (List.Perm.of_eq hkept).trans (hperm.flatMap_right _)⟩
    · obtain ⟨ks, hks, hjobs⟩ := hchanged.jobs
      exact ⟨ks, hks, (List.Perm.of_eq hjobs).trans (hperm.flatMap_right _)⟩

/-- Two lists that go on from a third in the same way, but for order and for what a function
leaves out. -/
def GrowAlike {α : Type} (f : α → α) (as bs cs : List α) : Prop :=
  ∃ xs ys, bs = as ++ xs ∧ cs = as ++ ys ∧ (xs.map f).Perm (ys.map f)

/-- **Independent rules may come in any order.** Let calls fail, if they do, in the same way every
time, and let the enabled rules have no actions but commands and jobs, and no device that one of
them commands be read or commanded by another. Two ticks that begin in the same way but for the
priorities of the rules, in which no action is given up and no command arrives that was given up
before, both look at the rules or both do not. They report the same on each rule, and leave the
same devices, the same rows but for the priorities, and the same executions and jobs but for
their numbers and their order. -/
theorem ranks_change_no_deed {w v v' : World} {p q : Ranking} {x y : Except Fault (Option Round)}
    (runp : Engine.round.run.run (w.ranked p) = (x, v))
    (runq : Engine.round.run.run (w.ranked q) = (y, v')) (uniform : w.Uniform)
    (distinct : w.books.ids.Nodup)
    (domestic : ∀ rule ∈ w.books.built, ∀ a ∈ rule.actions, a.domestic = true)
    (independent : Rule.Independent w.books.built)
    (timely : ∀ reports, Round.reports? x = some reports → ∀ r ∈ reports, r.Timely)
    (timely' : ∀ reports, Round.reports? y = some reports → ∀ r ∈ reports, r.Timely)
    (aloft : ∀ f ∈ w.flights, v.elapsed < f.due ∧ v'.elapsed < f.due) :
    (Round.reports? x).isSome = (Round.reports? y).isSome ∧
    (∀ rs, Round.reports? x = some rs → ∀ rs', Round.reports? y = some rs' →
      (rs.map Report.unnumbered).Perm (rs'.map Report.unnumbered)) ∧
    v.store.devices = v'.store.devices ∧
    (∃ rows : List RuleRow, v.store.rules = rows.map p.row ∧ v'.store.rules = rows.map q.row) ∧
    GrowAlike ExecutionRow.unnumbered w.store.executions v.store.executions v'.store.executions ∧
    GrowAlike JobRow.unnumbered w.store.jobs v.store.jobs v'.store.jobs := by
  rcases Engine.round_ranked runp uniform distinct domestic independent timely
    fun f hf => (aloft f hf).1 with ⟨hshut, hx, hv⟩ | ⟨hopens, rs, hx, hp⟩
  · rcases Engine.round_ranked runq uniform distinct domestic independent timely'
      fun f hf => (aloft f hf).2 with ⟨-, hy, hv'⟩ | ⟨hopens, -⟩
    · rw [hx, hy, hv, hv']
      exact ⟨rfl, fun _ h => (by cases h), rfl, ⟨w.store.rules, rfl, rfl⟩,
        ⟨[], [], (List.append_nil _).symm, (List.append_nil _).symm, .refl _⟩,
        ⟨[], [], (List.append_nil _).symm, (List.append_nil _).symm, .refl _⟩⟩
    · exact absurd hopens hshut
  · rcases Engine.round_ranked runq uniform distinct domestic independent timely'
      fun f hf => (aloft f hf).2 with ⟨hshut, -⟩ | ⟨-, rs', hy, hq⟩
    · exact absurd hopens hshut
    · obtain ⟨xs, hxs, hxsperm⟩ := hp.executions
      obtain ⟨ys, hys, hysperm⟩ := hq.executions
      obtain ⟨js, hjs, hjsperm⟩ := hp.jobs
      obtain ⟨ks, hks, hksperm⟩ := hq.jobs
      rw [hx, hy]
      refine ⟨rfl, ?_, hp.devices.trans hq.devices.symm, ⟨_, hp.rules, hq.rules⟩,
        ⟨xs, ys, hxs, hys, hxsperm.trans hysperm.symm⟩,
        ⟨js, ks, hjs, hks, hjsperm.trans hksperm.symm⟩⟩
      rintro _ ⟨⟩ _ ⟨⟩
      exact hp.reports.trans hq.reports.symm

/-- A rule that switches the pump off and asks for a check of it. -/
def Definition.draining : Definition :=
  { Definition.vent with
    priority := 2
    actions := [.device ⟨"pump", .turnOff, none, none⟩, .job ⟨"checks", .low, []⟩] }

/-- A world with a rule for the fan, which is off, and one for the pump, which is on. -/
def World.paired : World :=
  { World.quiet 0 with
    store := {
      rules := [.ofDefinition 1 .airing, .ofDefinition 2 .draining]
      devices := [{ id := "fan", name := "Fan" },
        { id := "pump", name := "Pump", status := "on" }] } }

/-- The fan is switched on and the pump off, whichever of the two comes first. -/
theorem ranks_change_no_deed_fan_pump :
    ∃ x y v v' rs rs', Engine.round.run.run (World.paired.ranked fun id => id) = (x, v) ∧
      Engine.round.run.run (World.paired.ranked fun id => -id) = (y, v') ∧
      Round.reports? x = some rs ∧ Round.reports? y = some rs' ∧
      rs.map Report.ruleId = [1, 2] ∧ rs'.map Report.ruleId = [2, 1] ∧
      (rs.map Report.unnumbered).Perm (rs'.map Report.unnumbered) ∧
      v.store.devices = v'.store.devices ∧ v.store.devices.map (·.status) = ["on", "off"] := by
  have hp : (Round.smooth (Engine.round.run.run (World.paired.ranked fun id => id)).1,
      (Round.reports? (Engine.round.run.run (World.paired.ranked fun id => id)).1).map
        fun rs => rs.map Report.ruleId,
      (Engine.round.run.run (World.paired.ranked fun id => id)).2.store.devices.map (·.status))
      = (true, some [1, 2], ["on", "off"]) := by
    simp only [World.paired, World.ranked, Engine.round, Engine.tickLocked, Store.enabledRules_eq,
      Engine.tickWith, Engine.arrange, RuleOrder.sort_eq]
    decide +kernel
  have hq : (Round.smooth (Engine.round.run.run (World.paired.ranked fun id => -id)).1,
      (Round.reports? (Engine.round.run.run (World.paired.ranked fun id => -id)).1).map
        fun rs => rs.map Report.ruleId) = (true, some [2, 1]) := by
    simp only [World.paired, World.ranked, Engine.round, Engine.tickLocked, Store.enabledRules_eq,
      Engine.tickWith, Engine.arrange, RuleOrder.sort_eq]
    decide +kernel
  have htimely : ∀ {x v} {r : Ranking}, Engine.round.run.run (World.paired.ranked r) = (x, v) →
      Round.smooth x = true → ∀ rs, Round.reports? x = some rs → ∀ r ∈ rs, r.Timely := by
    intro x v r run smooth rs hrs
    obtain ⟨now, rules, hx⟩ := Round.reports?_eq_some.1 hrs
    exact Engine.round_timely run smooth now rules rs hx
  rcases hx : Engine.round.run.run (World.paired.ranked fun id => id) with ⟨x, v⟩
  rcases hy : Engine.round.run.run (World.paired.ranked fun id => -id) with ⟨y, v'⟩
  simp only [hx, hy, Prod.mk.injEq, Option.map_eq_some_iff] at hp hq
  obtain ⟨hsmooth, ⟨rs, hrs, hids⟩, hstatuses⟩ := hp
  obtain ⟨hsmooth', rs', hrs', hids'⟩ := hq
  obtain ⟨-, hreports, hdevices, -⟩ := ranks_change_no_deed hx hy (fun c s hs => by cases hs)
    (by decide) (by rw [Books.built, Books.enabledRows_eq]; decide +kernel)
    (by rw [Books.built, Books.enabledRows_eq]; decide +kernel) (htimely hx hsmooth)
    (htimely hy hsmooth') fun _ hf => absurd hf List.not_mem_nil
  exact ⟨x, y, v, v', rs, rs', rfl, rfl, hrs, hrs', hids, hids', hreports rs hrs rs' hrs', hdevices,
    hstatuses⟩

/-- Independent rules leave one device with another status where they come the other way round. -/
def World.RanksTell (w : World) : Prop :=
  w.books.ids.Nodup ∧ (∀ rule ∈ w.books.built, ∀ a ∈ rule.actions, a.domestic = true) ∧
    Rule.Independent w.books.built ∧
    (Engine.round.run.run (w.ranked fun id => id)).2.store.devices.map (·.status)
      ≠ (Engine.round.run.run (w.ranked fun id => -id)).2.store.devices.map (·.status)

/-- A rule that turns the pump over. -/
def Definition.flushing : Definition :=
  { Definition.vent with actions := [.device ⟨"pump", .toggle, none, none⟩] }

/-- A world in which turning over takes longer than an action may take. -/
def World.tardy : World :=
  { World.quiet 0 with
    settings := { (World.quiet 0).settings with actionTimeout := 0.6 }
    store := {
      rules := [.ofDefinition 1 .turning, .ofDefinition 2 .flushing]
      devices := [{ id := "fan", name := "Fan" }, { id := "pump", name := "Pump" }] }
    delays := [("TOGGLE", 900000)] }

/-- A world in which one command fails, the next one that there is. -/
def World.faltering : World :=
  { World.paired with outages := [(.deviceCommand, ⟨some (.foreign .runtime ""), [none]⟩)] }

/-- A rule that switches the lamp on where the pump is on. -/
def Definition.lighting : Definition :=
  { Definition.vent with
    conditions := .all [.leaf (.device ⟨"pump", "on"⟩)]
    actions := [.device ⟨"lamp", .turnOn, none, none⟩] }

/-- A world in which the pump is about to be switched on by a command that was given up. -/
def World.overdue : World :=
  { World.quiet 0 with
    store := {
      rules := [.ofDefinition 1 .airing, .ofDefinition 2 .lighting]
      devices := [{ id := "fan", name := "Fan" }, { id := "pump", name := "Pump" },
        { id := "lamp", name := "Lamp" }] }
    delays := [("TURN_ON", 500000)]
    flights := [⟨0, "pump", "TURN_ON", none, 300000, none⟩]
    tickets := 1 }

/-- Commands land in the order of their times, which can be evaluated. -/
theorem World.timed_eq : (World.instTimed : Timed World) =
    { elapse := fun d w => ((w.flights.filter fun f => decide (f.due ≤ w.elapsed + d)).insertionSort
        fun f g => decide (f.due ≤ g.due) = true).foldl land
          { w with
            elapsed := w.elapsed + d
            flights := w.flights.filter fun f => !decide (f.due ≤ w.elapsed + d) }
      locked := fun w => w.memory.locked } := by
  have helapse : World.elapse = fun d w => ((w.flights.filter fun f =>
      decide (f.due ≤ w.elapsed + d)).insertionSort fun f g => decide (f.due ≤ g.due) = true).foldl
        land { w with
          elapsed := w.elapsed + d
          flights := w.flights.filter fun f => !decide (f.due ≤ w.elapsed + d) } := by
    funext d w
    unfold elapse
    simp only
    rw [Sorting.mergeSort_eq_insertionSort]
    · intro a b c
      simp only [decide_eq_true_eq]
      exact Nat.le_trans
    · intro a b
      simp only [Bool.or_eq_true, decide_eq_true_eq]
      exact Nat.le_total _ _
  show ({ elapse := elapse, locked := fun w => w.memory.locked } : Timed World) = _
  rw [helapse]

/-- Priorities tell where an action is given up, where a command fails that would not fail again,
and where a command arrives that was given up before. -/
theorem ranks_tell :
    World.tardy.RanksTell ∧ World.faltering.RanksTell ∧ World.overdue.RanksTell := by
  refine ⟨⟨by decide, ?_, ?_, ?_⟩, ⟨by decide, ?_, ?_, ?_⟩, ⟨by decide, ?_, ?_, ?_⟩⟩
  · rw [Books.built, Books.enabledRows_eq]
    decide +kernel
  · rw [Books.built, Books.enabledRows_eq]
    decide +kernel
  · simp only [World.tardy, World.ranked, Engine.round, Engine.tickLocked,
      Store.enabledRules_eq, Engine.tickWith, Engine.arrange, RuleOrder.sort_eq]
    decide +kernel
  · rw [Books.built, Books.enabledRows_eq]
    decide +kernel
  · rw [Books.built, Books.enabledRows_eq]
    decide +kernel
  · simp only [World.faltering, World.paired, World.ranked, Engine.round, Engine.tickLocked,
      Store.enabledRules_eq, Engine.tickWith, Engine.arrange, RuleOrder.sort_eq]
    decide +kernel
  · rw [Books.built, Books.enabledRows_eq]
    decide +kernel
  · rw [Books.built, Books.enabledRows_eq]
    decide +kernel
  · simp only [World.overdue, World.ranked, Engine.round, Engine.tickLocked,
      Store.enabledRules_eq, Engine.tickWith, Engine.arrange, RuleOrder.sort_eq]
    rw [World.timed_eq]
    decide +kernel

end Glasshouse
