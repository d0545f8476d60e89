/-
Glasshouse.Proofs.Engine.MalformedRows — malformed rows and the tick that loads them. A
tick looks once at every rule that its rows hold and only counts the other
rows, unless the reading of a row ends in a fault: that fault ends the tick
before it has looked at any rule. Main statement: `tick_isolates_rows`.

Side conditions of the main statement. The tick begins: the lock is free, and its
call is not laid down to fail. The tracker holds times with an offset, as it does
whenever it was filled from rows and on clocks with one. Which readings of rows end in
a fault, `RuleRow.Raises` tells; a row whose nesting ends but is too deep for the
stack is outside of this.
-/
import Glasshouse.Proofs.Rule.Faults
import Glasshouse.Proofs.Engine.History

namespace Glasshouse

open Calendar

/-! ## Rows -/

/-- The rows leave no rules to look at exactly if the reading of one ends in a fault. -/
theorem Engine.sift_error_iff {rows : List RuleRow} :
    (∃ f n, sift rows = (.error f, n)) ↔ ∃ row ∈ rows, row.Raises := by
  induction rows with
  | nil => simp [sift]
  | cons row rows ih =>
    rw [List.exists_mem_cons_iff, ← ih, ← row.faulty_toRule, sift, Faulty]
    rcases sift rows with ⟨x, n⟩
    cases row.toRule with
    | ok rule => cases x <;> simp [Except.map]
    | error e => cases e <;> simp

/-! ## Looks -/

theorem Recorded.tally {x : Execution} {b b' : Books} (h : Recorded x b b') :
    b'.evaluated = b.evaluated ∧ b'.invalid = b.invalid := by
  rcases h with rfl | ⟨row, _, rfl⟩
  · exact ⟨rfl, rfl⟩
  · exact ⟨rfl, rfl⟩

theorem Noted.tally {id : Int} {t : Moment} {n : Int} {noted : Bool} {b b' : Books}
    (h : Noted id t n noted b b') : b'.evaluated = b.evaluated ∧ b'.invalid = b.invalid := by
  rcases h with ⟨_, rfl⟩ | ⟨_, i, _, rfl⟩
  · exact ⟨rfl, rfl⟩
  · exact ⟨rfl, rfl⟩

namespace Engine

variable {now : Moment} {b b' : Books}

/-- Whatever becomes of a rule, it is counted once as looked at and no row as refused. -/
theorem Course.tally {rule : Rule} {bypass force : Bool} {r : Report}
    (h : Course rule now bypass force b r b') :
    b'.evaluated = b.evaluated + 1 ∧ b'.invalid = b.invalid := by
  cases h with
  | notMatched => exact ⟨rfl, rfl⟩
  | suppressed _ _ _ record => exact record.tally
  | triggered _ _ _ _ note record =>
    obtain ⟨he, hi⟩ := record.tally
    obtain ⟨he', hi'⟩ := note.tally
    exact ⟨he.trans he', hi.trans hi'⟩
  | failed _ _ _ record => exact record.tally
  | faulted _ _ _ record => exact record.tally

theorem Courses.ruleIds {rules : List Rule} {reports : List Report}
    (h : Courses now rules b reports b') : reports.map Report.ruleId = rules.map (·.id) := by
  induction h with
  | nil => rfl
  | cons first _ ih => rw [List.map_cons, List.map_cons, first.ruleId, ih]

theorem Courses.tally {rules : List Rule} {reports : List Report}
    (h : Courses now rules b reports b') :
    b'.evaluated = b.evaluated + rules.length ∧ b'.invalid = b.invalid := by
  induction h with
  | nil => exact ⟨rfl, rfl⟩
  | cons first _ ih =>
    obtain ⟨he, hi⟩ := first.tally
    refine ⟨?_, ih.2.trans hi⟩
    rw [ih.1, he, List.length_cons]
    omega

end Engine

/-- A summary counts the rules that were looked at. -/
theorem Round.evaluated_done (now : Moment) (rules : List Rule) (reports : List Report) :
    (Round.done now rules reports).summary.evaluated = reports.length := by
  have hcount : ∀ s : Summary,
      (reports.foldl Summary.add s).evaluated = s.evaluated + reports.length := by
    induction reports with
    | nil => exact fun s => rfl
    | cons r reports ih =>
      intro s
      have hadd : (s.add r).evaluated = s.evaluated + 1 := by cases r <;> rfl
      rw [List.foldl_cons, ih, hadd, List.length_cons]
      omega
  exact (hcount _).trans (Nat.zero_add _)

/-! ## Ticks -/

/-- What a tick owes to the rows that it loads: it looks once at every rule that they
hold, one after the other, and every other row is only counted. -/
structure Attended (b : Books) (rules : List Rule) (reports : List Report) (b' : Books) :
    Prop where
  order : rules.Perm b.built
  looks : Engine.Courses b.clock rules
    ((b.refuse b.refusals).track (b.cooldowns.refreshed b.built)) reports b'
  reported : reports.map Report.ruleId = rules.map (·.id)
  evaluated : b'.evaluated = b.evaluated + rules.length
  invalid : b'.invalid = b.invalid + b.refusals

/-- A tick gives a summary and, if it could load rows, does what it owes to them. -/
def World.Isolates (w : World) : Prop :=
  ∃ s, (Engine.tick.run.run w).1 = .ok (some s)
    ∧ ((w.consult .enabledRules).1 = none → ∃ rules reports,
        Attended w.books rules reports (Engine.tick.run.run w).2.books
          ∧ s = (Round.done w.clock rules reports).summary ∧ s.evaluated = rules.length)

namespace Engine

/-- A tick in numbers takes the turn of the tick in full. -/
theorem tick_turn (w : World) : ∃ r b', Turn w r b'
    ∧ (tick.run.run w).1 = r.map (·.map Round.summary) ∧ (tick.run.run w).2.books = b' := by
  have ht := round_turn w
  refine ⟨_, _, ht, ?_⟩
  unfold tick
  rw [Work.run_bind]
  rcases round.run.run w with ⟨r | f, v⟩
  · exact ⟨rfl, rfl⟩
  · exact ⟨rfl, rfl⟩

/-- Where the reading of no row ends in a fault, a tick that has loaded the rows does
what it owes to them. -/
theorem Served.attended {b b' : Books} {r : Except Fault Round} (aware : b.cooldowns.Aware)
    (calm : ∀ row ∈ b.enabledRows, ¬ row.Raises) (h : Served b.clock b.enabledRows b r b') :
    ∃ rules reports, r = .ok (.done b.clock rules reports) ∧ Attended b rules reports b' := by
  have hmerge := Cooldown.refresh_of_aware aware b.built_aware
  cases h with
  | @unbuilt f n build =>
    obtain ⟨row, mem, raises⟩ := sift_error_iff.1 ⟨f, n, build⟩
    exact absurd raises (calm row mem)
  | unmerged build merge =>
    obtain ⟨rfl, _⟩ := sift_built build
    cases hmerge.symm.trans merge
  | @done _ sorted _ _ reports _ build merge order looks =>
    obtain ⟨rfl, rfl⟩ := sift_built build
    cases hmerge.symm.trans merge
    exact ⟨sorted, reports, rfl, {
      order := order
      looks := looks
      reported := looks.ruleIds
      evaluated := looks.tally.1
      invalid := looks.tally.2 }⟩

/-- A row whose reading ends in a fault ends the tick that has loaded it, and of the other
rows some may have been counted. -/
theorem Served.stopped {now : Moment} {rows : List RuleRow} {b b' : Books}
    {r : Except Fault Round} {row : RuleRow} (mem : row ∈ rows) (raises : row.Raises)
    (h : Served now rows b r b') : ∃ f n, r = .error f ∧ b' = b.refuse n := by
  obtain ⟨f, n, hf⟩ := sift_error_iff.2 ⟨row, mem, raises⟩
  cases h with
  | @unbuilt g m build => exact ⟨g, m, rfl, rfl⟩
  | unmerged build _ =>
    rw [hf] at build
    cases build
  | done build _ _ _ =>
    rw [hf] at build
    cases build

end Engine

/-- A row whose reading ends in a fault ends a tick that loads it, without a summary and
before any rule is looked at. -/
theorem tick_stopped {w : World} (free : w.memory.locked = false)
    (begins : (w.consult .tick).1 = none) (load : (w.consult .enabledRules).1 = none)
    {row : RuleRow} (mem : row ∈ w.books.enabledRows) (raises : row.Raises) :
    (∃ f, (Engine.tick.run.run w).1 = .error f)
      ∧ ∃ n, (Engine.tick.run.run w).2.books = w.books.refuse n := by
  obtain ⟨r, b', turn, hr, hb⟩ := Engine.tick_turn w
  cases turn with
  | refused fails => simp [begins] at fails
  | skipped busy => simp [free] at busy
  | unloaded fails => simp [load] at fails
  | served _ serve =>
    obtain ⟨f, n, rfl, rfl⟩ := serve.stopped mem raises
    exact ⟨⟨f, hr⟩, n, hb⟩

/-- A tick isolates malformed rows exactly if the reading of none of them ends in a
fault. A single row that does ends the tick before any rule is looked at. -/
theorem tick_isolates_rows (w : World) (free : w.memory.locked = false)
    (begins : (w.consult .tick).1 = none) (aware : w.memory.cooldowns.Aware) :
    (w.Isolates ↔ ((w.consult .enabledRules).1 = none → ∀ row ∈ w.books.enabledRows, ¬ row.Raises))
      ∧ ((w.consult .enabledRules).1 = none → (∃ row ∈ w.books.enabledRows, row.Raises) →
        (∃ f, (Engine.tick.run.run w).1 = .error f)
          ∧ ∃ n, (Engine.tick.run.run w).2.books = w.books.refuse n) := by
  refine ⟨⟨?_, ?_⟩, fun load ⟨row, mem, raises⟩ => tick_stopped free begins load mem raises⟩
  · rintro ⟨s, hs, _⟩ load row mem raises
    obtain ⟨⟨f, hf⟩, _⟩ := tick_stopped free begins load mem raises
    rw [hs] at hf
    cases hf
  · intro calm
    obtain ⟨r, b', turn, hr, hb⟩ := Engine.tick_turn w
    cases turn with
    | refused fails => simp [begins] at fails
    | skipped busy => simp [free] at busy
    | unloaded fails => exact ⟨_, hr, fun load => by simp [load] at fails⟩
    | served load serve =>
      obtain ⟨rules, reports, rfl, owed⟩ := serve.attended aware (calm load)
      subst hb
      refine ⟨_, hr, fun _ => ⟨rules, reports, owed, rfl, ?_⟩⟩
      have hlength := congrArg List.length owed.reported
      rw [List.length_map, List.length_map] at hlength
      exact (Round.evaluated_done _ _ _).trans hlength

/-- A world at midnight with such rows and without a history. -/
def World.holding (rows : List RuleRow) : World :=
  { World.quiet 0 with store := { rules := rows } }

/-- A row without conditions, which is refused. -/
def RuleRow.blank : RuleRow := { id := 2, name := "blank", conditions := .null }

/-- A row whose conditions are a group of five, which is no list of children. -/
def RuleRow.crowd : RuleRow where
  id := 2
  name := "crowd"
  conditions := .record [("type", .str "group"), ("rules", .int 5)]

/-- Next to a row that is refused a rule is looked at, and the row is counted. -/
theorem tick_isolates_blank :
    (World.holding [.ofDefinition 1 .vent, .blank]).memory.locked = false
      ∧ ((World.holding [.ofDefinition 1 .vent, .blank]).consult .tick).1 = none
      ∧ (World.holding [.ofDefinition 1 .vent, .blank]).memory.cooldowns.Aware
      ∧ (World.holding [.ofDefinition 1 .vent, .blank]).Isolates
      ∧ (RuleRow.ofDefinition 1 .vent).rule?.isSome = true ∧ RuleRow.blank.rule?.isNone = true := by
  have aware : (World.holding [.ofDefinition 1 .vent, .blank]).memory.cooldowns.Aware :=
    fun _ _ => nofun
  refine ⟨rfl, rfl, aware, ?_, by decide +kernel, by decide +kernel⟩
  refine (tick_isolates_rows _ rfl rfl aware).1.2 fun _ row hrow raises => ?_
  have calm : ∀ row ∈ [RuleRow.ofDefinition 1 .vent, .blank], ¬ row.Raises := by decide +kernel
  exact calm row (Books.mem_of_enabledRows hrow) raises

/-- Next to a group of five a rule is not looked at, and the tick gives no summary. -/
theorem crowd_stops_tick :
    ((World.holding [.ofDefinition 1 .vent, .crowd]).consult .enabledRules).1 = none
      ∧ (RuleRow.ofDefinition 1 .vent).rule?.isSome = true
      ∧ ¬ (World.holding [.ofDefinition 1 .vent, .crowd]).Isolates
      ∧ (Engine.tick.run.run (World.holding [.ofDefinition 1 .vent, .crowd])).2.books.evaluated
        = 0 := by
  have loaded : RuleRow.crowd ∈ (World.holding [.ofDefinition 1 .vent, .crowd]).books.enabledRows :=
    Books.mem_enabledRows.2 ⟨List.mem_cons_of_mem _ (List.mem_cons_self ..), rfl⟩
  have raises : RuleRow.crowd.Raises :=
    .inl ⟨_, .inl rfl, .childless rfl rfl ⟨_, rfl⟩⟩
  obtain ⟨⟨f, hf⟩, n, hn⟩ := tick_stopped rfl rfl rfl loaded raises
  refine ⟨rfl, by decide +kernel, ?_, congrArg Books.evaluated hn⟩
  rintro ⟨s, hs, _⟩
  rw [hs] at hf
  cases hf

end Glasshouse
