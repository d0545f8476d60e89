/-
Glasshouse.Proofs.Store.Rows — what the calls to the store leave behind when they
succeed: rows added, changed in place or removed, and the rule that a row
holds. A change in place never touches a row's number, its silence or its
conditions.
-/
import Glasshouse.Store.Executions
import Glasshouse.Store.Rules
import Glasshouse.Proofs.Basic.Moment

namespace Glasshouse

open Calendar

/-- A sequence that may fail gives a result if both of its parts do. -/
theorem bind_eq_ok {ε α β : Type} {x : Except ε α} {f : α → Except ε β} {b : β} :
    x >>= f = .ok b ↔ ∃ a, x = .ok a ∧ f a = .ok b := by
  cases x with
  | ok a => exact ⟨fun h => ⟨a, rfl, h⟩, fun ⟨_, ha, h⟩ => by cases ha; exact h⟩
  | error e => exact ⟨fun h => (by cases h), fun ⟨_, ha, _⟩ => (by cases ha)⟩

theorem map_eq_ok {ε α β : Type} {f : α → β} {x : Except ε α} {b : β} :
    x.map f = .ok b ↔ ∃ a, x = .ok a ∧ f a = b := by
  cases x <;> simp [Except.map]

/-- A sequence fails with a fault of its first part, or of the second. -/
theorem bind_eq_error {ε α β : Type} {x : Except ε α} {f : α → Except ε β} {e : ε} :
    x >>= f = .error e ↔ x = .error e ∨ ∃ a, x = .ok a ∧ f a = .error e := by
  cases x with
  | ok a =>
    constructor
    · exact fun h => .inr ⟨a, rfl, h⟩
    · rintro (h | ⟨_, ⟨⟩, h⟩)
      · cases h
      · exact h
  | error e' =>
    constructor
    · rintro ⟨⟩
      exact .inl rfl
    · rintro (⟨⟨⟩⟩ | ⟨_, h, _⟩)
      · rfl
      · cases h

/-! ## The rule of a row -/

/-- A rule has the number, the history and the silence of a row. -/
structure Rule.IsOf (rule : Rule) (row : RuleRow) : Prop where
  id : rule.id = row.id
  last : rule.lastTriggered = row.lastTriggered.map Moment.ofInstant
  count : (rule.triggerCount : Int) = row.triggerCount
  cooldown : (rule.cooldown : Int) = row.cooldown

namespace Schema

theorem natural_int_eq_ok {k : Int} {n : Nat} : natural (.int k) = .ok n ↔ (n : Int) = k := by
  simp only [natural, integer, Checked.andThen]
  split
  · rename_i h
    simp only [Checked.flaw, reduceCtorEq, false_iff]
    omega
  · rename_i h
    simp only [Checked.ok.injEq]
    omega

theorem required_eq_ok {α : Type} {o : Fields} {f : FieldName} {read : Doc → Checked α} {a : α}
    {k : String} {d : Doc} (hf : f.find? o = some (k, d)) :
    required o f read = .ok a ↔ read d = .ok a := by
  simp only [required, hf, Checked.under_eq_ok]

theorem optional_eq_ok {α : Type} {o : Fields} {f : FieldName} {x a : α}
    {read : Doc → Checked α} {k : String} {d : Doc} (hf : f.find? o = some (k, d)) :
    optional o f x read = .ok a ↔ read d = .ok a := by
  simp only [optional, hf, Checked.under_eq_ok]

end Schema

theorem Definition.accept_eq_ok {α : Type} {wrap : List Issue → Rejection} {x : Checked α} {a : α} :
    accept wrap x = .ok a ↔ x = .ok a := by
  cases x <;> simp [accept]

/-- A definition read from fields has the silence that stands there. -/
theorem Definition.cooldown_of_readFields {o : Fields} {x : Checked Definition} {d : Definition}
    {k : Int} (hk : Key.cooldownMinutes.find? o = some ("cooldown_minutes", .int k))
    (h : Definition.readFields o = .ok x) (hx : x = .ok d) : (d.cooldown : Int) = k := by
  unfold readFields at h
  obtain ⟨conditions, _, h⟩ := bind_eq_ok.1 h
  obtain ⟨actions, _, h⟩ := bind_eq_ok.1 h
  cases h
  simp only [Checked.seq_eq_ok] at hx
  obtain ⟨_, _, ⟨_, _, ⟨_, n, ⟨_, _, ⟨_, _, ⟨_, _, hm, _, rfl⟩, _, rfl⟩, _, rfl⟩, hn, rfl⟩,
    _, rfl⟩, _, rfl⟩ := hx
  obtain ⟨name, _, rfl⟩ := Checked.map_eq_ok.1 hm
  rw [Schema.optional_eq_ok hk, Schema.natural_int_eq_ok] at hn
  exact hn

/-- A definition read from fields has the priority that stands there. -/
theorem Definition.priority_of_readFields {o : Fields} {x : Checked Definition} {d : Definition}
    {k : Int} (hk : Key.rulePriority.find? o = some ("priority", .int k))
    (h : Definition.readFields o = .ok x) (hx : x = .ok d) : d.priority = k := by
  unfold readFields at h
  obtain ⟨conditions, _, h⟩ := bind_eq_ok.1 h
  obtain ⟨actions, _, h⟩ := bind_eq_ok.1 h
  cases h
  simp only [Checked.seq_eq_ok] at hx
  obtain ⟨_, _, ⟨_, _, ⟨_, _, ⟨_, n, ⟨_, _, ⟨_, _, hm, _, rfl⟩, _, rfl⟩, hn, rfl⟩, _, rfl⟩,
    _, rfl⟩, _, rfl⟩ := hx
  obtain ⟨name, _, rfl⟩ := Checked.map_eq_ok.1 hm
  rw [Schema.optional_eq_ok hk] at hn
  exact (Checked.ok.inj hn).symm

namespace RuleRow

theorem find_id (r : RuleRow) : Key.id.find? r.fields = some ("id", .int r.id) := rfl

theorem find_cooldown (r : RuleRow) :
    Key.cooldownMinutes.find? r.fields = some ("cooldown_minutes", .int r.cooldown) := rfl

theorem find_priority (r : RuleRow) :
    Key.rulePriority.find? r.fields = some ("priority", .int r.priority) := rfl

theorem get_triggerCount (r : RuleRow) :
    Fields.get? "trigger_count" r.fields = some (.int r.triggerCount) := rfl

/-- A count of zero is read as no count, which is zero again. -/
theorem count_or_zero (n : Int) :
    (if (Doc.int n).truthy then Doc.int n else .int 0) = .int n := by
  by_cases h : n = 0
  · simp [Doc.truthy, h]
  · simp [Doc.truthy, h]

/-- The rule that a row holds, if its reading succeeds. -/
def rule? (row : RuleRow) : Option Rule := row.toRule.toOption

theorem rule?_eq_some {row : RuleRow} {rule : Rule} :
    row.rule? = some rule ↔ row.toRule = .ok rule := by
  unfold rule?
  cases row.toRule <;> simp [Except.toOption]

/-- The rule that a row holds is the definition that its fields are read as, under the row's
number and with its history. -/
theorem definition_of_toRule {row : RuleRow} {rule : Rule} (h : row.toRule = .ok rule) :
    ∃ (d : Definition) (n : Nat), Definition.readFields row.fields = .ok (.ok d)
      ∧ (n : Int) = row.triggerCount
      ∧ rule = ⟨d, row.id, row.lastTriggered.map Moment.ofInstant, n⟩ := by
  unfold toRule Rule.ofRecord at h
  cases hr : Rule.read row.fields
      ((row.lastTriggered.map fun i => ⟨i, none⟩).map Moment.assumeUtc) with
  | error e =>
    rw [hr] at h
    cases h
  | ok r =>
    rw [hr] at h
    cases h
    unfold Rule.read at hr
    obtain ⟨x, hd, hr⟩ := bind_eq_ok.1 hr
    simp only [get_triggerCount, count_or_zero] at hr
    have hx := Definition.accept_eq_ok.1 hr
    simp only [Checked.seq_eq_ok, Checked.under_eq_ok] at hx
    obtain ⟨_, n, ⟨_, k, hm, hk, rfl⟩, hn, rfl⟩ := hx
    obtain ⟨d, rfl, rfl⟩ := Checked.map_eq_ok.1 hm
    rw [Schema.required_eq_ok row.find_id] at hk
    cases hk
    refine ⟨d, n, hd, Schema.natural_int_eq_ok.1 hn, ?_⟩
    cases row.lastTriggered with
    | none => rfl
    | some i => rfl

/-- The rule that a row holds has the row's number, history and silence. -/
theorem isOf_of_toRule {row : RuleRow} {rule : Rule} (h : row.toRule = .ok rule) :
    rule.IsOf row := by
  obtain ⟨d, n, hd, hn, rfl⟩ := definition_of_toRule h
  exact ⟨rfl, rfl, hn, Definition.cooldown_of_readFields row.find_cooldown hd rfl⟩

/-- The rule that a row holds has the row's priority. -/
theorem priority_of_toRule {row : RuleRow} {rule : Rule} (h : row.toRule = .ok rule) :
    rule.priority = row.priority := by
  obtain ⟨d, n, hd, -, rfl⟩ := definition_of_toRule h
  exact Definition.priority_of_readFields row.find_priority hd rfl

/-! ## Rows changed in place -/

/-- A row with a trigger noted: the time never moves back and the count never shrinks. -/
def noted (i : Instant) (n : Int) (r : RuleRow) : RuleRow :=
  { r with
    lastTriggered := some (match r.lastTriggered with
      | some j => max i j
      | none => i)
    triggerCount := max r.triggerCount n }

/-- A noted time is not after any bound on the stored and the new time. -/
theorem le_of_noted {i k l : Instant} {n : Int} {row : RuleRow}
    (h : (row.noted i n).lastTriggered = some l) (hi : i ≤ k)
    (hj : ∀ j, row.lastTriggered = some j → j ≤ k) : l ≤ k := by
  cases hr : row.lastTriggered with
  | none =>
    simp only [noted, hr, Option.some.injEq] at h
    exact h ▸ hi
  | some j =>
    simp only [noted, hr, Option.some.injEq] at h
    exact h ▸ Int.max_le.2 ⟨hi, hj j hr⟩

/-- A row switched on or off. -/
def switched (on : Bool) (r : RuleRow) : RuleRow := { r with enabled := on }

end RuleRow

/-- A row holds what was to be recorded. -/
structure ExecutionRow.IsOf (row : ExecutionRow) (e : Execution) : Prop where
  ruleId : row.ruleId = e.ruleId
  time : e.triggeredAt.toInstant = .ok row.triggeredAt
  success : row.success = e.success
  suppressed : row.suppressed = e.suppressed

namespace Store

theorem requireFits_eq_ok {ns : List Int} {u : Unit} :
    requireFits ns = .ok u ↔ ns.all fits = true := by
  unfold requireFits
  split <;> simp_all

theorem updateRule_of_absent {s : Store} {id : Int} (h : s.rule? id = none)
    (f : RuleRow → RuleRow) : s.updateRule id f = s := by
  have hid : ∀ r ∈ s.rules, (if r.id == id then f r else r) = r := by
    intro r hr
    rw [if_neg (List.find?_eq_none.1 h r hr)]
  unfold updateRule
  rw [List.map_congr_left hid, List.map_id']

theorem noteTrigger_eq_ok {s s' : Store} {id : Int} {t : Moment} {n : Int} {u : Unit}
    (h : s.noteTrigger id t n = .ok (u, s')) :
    ∃ i, t.toInstant = .ok i ∧ s' = s.updateRule id (RuleRow.noted i n) := by
  unfold noteTrigger at h
  obtain ⟨i, hi, h⟩ := bind_eq_ok.1 h
  obtain ⟨_, _, h⟩ := bind_eq_ok.1 h
  refine ⟨i, hi, ?_⟩
  cases hr : s.rule? id with
  | none =>
    rw [updateRule_of_absent hr]
    simp only [hr] at h
    cases h
    rfl
  | some r =>
    simp only [hr] at h
    split at h
    · obtain ⟨_, _, h⟩ := bind_eq_ok.1 h
      cases h
      rfl
    · cases h
      rfl

theorem recordExecution_eq_ok {s s' : Store} {e : Execution} {n : Int}
    (h : s.recordExecution e = .ok (n, s')) :
    ∃ row : ExecutionRow, row.IsOf e ∧ s' = { s with executions := s.executions ++ [row] } := by
  unfold recordExecution at h
  obtain ⟨i, hi, h⟩ := bind_eq_ok.1 h
  split at h
  · obtain ⟨_, _, h⟩ := bind_eq_ok.1 h
    cases h
    refine ⟨_, ?_, rfl⟩
    exact ⟨rfl, hi, rfl, rfl⟩
  · cases h

theorem createRule_eq_ok {s s' : Store} {d : Definition} {row : RuleRow}
    (h : s.createRule d = .ok (row, s')) :
    row = .ofDefinition s.nextRule d ∧ fits row.id = true
      ∧ s' = { s with rules := s.rules ++ [row] } := by
  unfold createRule at h
  dsimp only at h
  split at h
  · unfold addRule at h
    obtain ⟨_, hf, h⟩ := bind_eq_ok.1 h
    split at h
    · cases h
    · cases h
      rw [requireFits_eq_ok, List.all_cons, Bool.and_eq_true] at hf
      exact ⟨rfl, hf.1, rfl⟩
  · cases h

/-- The number of the next rule is in use by no rule. -/
theorem nextRule_not_mem (s : Store) : s.nextRule ∉ s.rules.map (·.id) :=
  fun h => Int.lt_irrefl _ (lt_nextId h)

theorem setEnabled_eq_ok {s s' : Store} {id : Int} {on : Bool} {r : Option RuleRow}
    (h : s.setEnabled id on = .ok (r, s')) :
    s' = s.updateRule id (RuleRow.switched on) := by
  unfold setEnabled at h
  obtain ⟨_, _, h⟩ := bind_eq_ok.1 h
  cases h
  rfl

theorem setAllEnabled_eq_ok {s s' : Store} {ids : List Int} {on : Bool} {rs : List RuleRow}
    (h : s.setAllEnabled ids on = .ok (rs, s')) :
    s' = ids.foldl (fun t id => t.updateRule id (RuleRow.switched on)) s := by
  unfold setAllEnabled at h
  obtain ⟨_, _, h⟩ := bind_eq_ok.1 h
  cases h
  rfl

theorem deleteRule_eq_ok {s s' : Store} {id : Int} {b : Bool}
    (h : s.deleteRule id = .ok (b, s')) :
    (b = true ∧ s' = { s with
        rules := s.rules.filter fun r => r.id != id
        executions := s.executions.filter fun e => e.ruleId != id })
      ∨ (b = false ∧ s' = s) := by
  unfold deleteRule at h
  obtain ⟨_, _, h⟩ := bind_eq_ok.1 h
  split at h
  · cases h
    exact .inl ⟨rfl, rfl⟩
  · cases h
    exact .inr ⟨rfl, rfl⟩

end Store

end Glasshouse
