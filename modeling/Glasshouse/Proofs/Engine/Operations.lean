/-
Glasshouse.Proofs.Engine.Operations — what the engine's operations do. `Processed` takes a
look at one rule apart; `round_eq`, `tickLocked_eq` and `tickWith_eq` say what a
tick comes to in one world. To the books, which are the rows of rules, their
history, the tracker and the counts, `Course` says all that looking at one rule
can do, `Turn` all that a tick can do and `Manual` all that a trigger by hand can
do once it has the lock; the theorems of this file show that the operations do
nothing else.
-/
import Glasshouse.Proofs.Cooldown.Operations
import Glasshouse.Proofs.World.Apart
import Glasshouse.Proofs.Store.Rows

namespace Glasshouse

open Calendar Plan

/-- What the engine keeps account of, and the clock that it goes by. -/
structure Books where
  clock : Moment
  rules : List RuleRow
  executions : List ExecutionRow
  cooldowns : Cooldown
  /-- Records that could not be written. -/
  lost : Nat
  /-- Rules looked at. -/
  evaluated : Nat
  /-- Rows that were refused. -/
  invalid : Nat

namespace Books

/-- One more rule looked at. -/
def looked (b : Books) : Books := { b with evaluated := b.evaluated + 1 }

/-- One more record lost. -/
def lose (b : Books) : Books := { b with lost := b.lost + 1 }

/-- Rows refused. -/
def refuse (b : Books) (n : Nat) : Books := { b with invalid := b.invalid + n }

/-- Another tracker. -/
def track (b : Books) (c : Cooldown) : Books := { b with cooldowns := c }

/-- An execution written. -/
def write (b : Books) (row : ExecutionRow) : Books :=
  { b with executions := b.executions ++ [row] }

/-- The rows of one number changed. -/
def update (b : Books) (id : Int) (f : RuleRow → RuleRow) : Books :=
  { b with rules := b.rules.map fun r => if r.id == id then f r else r }

/-- The rows of the enabled rules, as a tick loads them. -/
def enabledRows (b : Books) : List RuleRow :=
  (b.rules.mergeSort RuleRow.before).filter (·.enabled)

/-- The rules that the rows of the enabled rules hold. -/
def built (b : Books) : List Rule := b.enabledRows.filterMap RuleRow.rule?

/-- How many rows of enabled rules hold no rule. -/
def refusals (b : Books) : Nat := b.enabledRows.countP fun row => row.rule?.isNone

end Books

/-- The books of a world. -/
def World.books (w : World) : Books where
  clock := w.clock
  rules := w.store.rules
  executions := w.store.executions
  cooldowns := w.memory.cooldowns
  lost := w.memory.lost
  evaluated := w.memory.tally.evaluated
  invalid := w.memory.tally.invalid

namespace World

/-- Rows refused. -/
def refuse (w : World) (n : Nat) : World :=
  { w with memory := { w.memory with
    tally := { w.memory.tally with invalid := w.memory.tally.invalid + n } } }

@[simp] theorem refuse_refuse (w : World) (m n : Nat) :
    (w.refuse m).refuse n = w.refuse (m + n) := by
  unfold refuse
  rw [Nat.add_assoc]

/-- Other counts. -/
def tallied (f : Tally → Tally) (w : World) : World :=
  { w with memory := { w.memory with tally := f w.memory.tally } }

/-- One more rule looked at. -/
def looked (w : World) : World := w.tallied fun t => { t with evaluated := t.evaluated + 1 }

theorem books_of_interior {v w : World} (h : v.interior = w.interior) : v.books = w.books := by
  have hb : ∀ u : World, u.books = ⟨u.interior.clock, u.interior.rules, u.interior.executions,
      u.interior.memory.cooldowns, u.interior.memory.lost, u.interior.memory.tally.evaluated,
      u.interior.memory.tally.invalid⟩ := fun _ => rfl
  rw [hb, hb, h]

theorem consult_fst (c : Contact) (w : World) :
    (w.consult c).1 = (w.outages.get? c).bind Script.head := by
  unfold consult
  cases w.outages.get? c with
  | none => rfl
  | some s => rfl

/-- What a call fails with does not depend on calls of other kinds. -/
theorem consult_fst_of_ne {c d : Contact} (h : c ≠ d) (w : World) :
    ((w.consult c).2.consult d).1 = (w.consult d).1 := by
  rw [consult_fst, consult_fst]
  unfold consult
  cases w.outages.get? c with
  | none => rfl
  | some s =>
    show (Table.get? (Table.put w.outages c s.next) d).bind Script.head = _
    rw [Table.get?_put, if_neg h]

@[simp] theorem books_consult (c : Contact) (w : World) : (w.consult c).2.books = w.books :=
  books_of_interior ((outward_consult c).interior_eq w)

@[simp] theorem books_elapse (d : Duration) (w : World) : (w.elapse d).books = w.books :=
  books_of_interior (interior_elapse d w)

theorem Apart.books_eq {α : Type} {p : Activity α} (h : Apart p) (w : World) :
    (p.run w).2.books = w.books :=
  books_of_interior (h.interior_eq w)

theorem books_of_apart {α : Type} {x : Work α} (h : Work.Apart x) {w v : World}
    {r : Except Fault α} (hr : x.run.run w = (r, v)) : v.books = w.books := by
  have hb := Apart.books_eq h w
  rwa [hr] at hb

/-- A call to the store either fails and leaves the books as they are, or does its
work on the store. -/
theorem books_callStore {α : Type} (c : Contact) (f : Store → Except Fault (α × Store))
    (w : World) :
    ((∃ e, (w.callStore c f).1 = .error e) ∧ (w.callStore c f).2.books = w.books)
      ∨ ∃ a s t, f s = .ok (a, t) ∧ s.rules = w.store.rules ∧ s.executions = w.store.executions
        ∧ (w.callStore c f).1 = .ok a
        ∧ (w.callStore c f).2.books = { w.books with rules := t.rules, executions := t.executions } := by
  unfold callStore
  have hb := books_consult c w
  rcases hc : w.consult c with ⟨_ | e, v⟩
  · rw [hc] at hb
    cases hf : f v.store with
    | error e => exact .inl ⟨⟨e, by simp only [hf]⟩, by simp only [hf]; exact hb⟩
    | ok p =>
      obtain ⟨a, t⟩ := p
      refine .inr ⟨a, v.store, t, hf, congrArg Books.rules hb, congrArg Books.executions hb, ?_, ?_⟩
      · simp only [hf]
      · simp only [hf, ← hb]
        rfl
  · rw [hc] at hb
    exact .inl ⟨⟨e, rfl⟩, hb⟩

end World

/-! ## Records -/

/-- An execution was written, or that it could not be was counted. -/
def Recorded (x : Execution) (b b' : Books) : Prop :=
  b' = b.lose ∨ ∃ row : ExecutionRow, row.IsOf x ∧ b' = b.write row

/-- A trigger was noted with its rule, or that it could not be was counted. -/
def Noted (id : Int) (t : Moment) (n : Int) (noted : Bool) (b b' : Books) : Prop :=
  (noted = false ∧ b' = b.lose)
    ∨ (noted = true ∧ ∃ i, t.toInstant = .ok i ∧ b' = b.update id (RuleRow.noted i n))

/-- The rule that a report is about. -/
def Report.ruleId : Report → Int
  | .notMatched id _ => id
  | .suppressed x => x.ruleId
  | .triggered x _ => x.ruleId
  | .failed x => x.ruleId

namespace Engine

@[simp] theorem run_remember (f : Memory → Memory) (w : World) :
    (remember f).run w = ((), { w with memory := f w.memory }) := rfl

@[simp] theorem run_count (f : Tally → Tally) (w : World) :
    (count f).run w = ((), { w with memory := { w.memory with tally := f w.memory.tally } }) := rfl

/-- A record is kept as the store takes it, or counted as lost. -/
theorem run_keep {α : Type} (x : Work α) (w : World) :
    (keep x).run w = match x.run.run w with
      | (.ok a, v) => (some a, v)
      | (.error _, v) => (none, { v with memory := { v.memory with lost := v.memory.lost + 1 } }) := by
  unfold keep
  rw [run_bind']
  rcases x.run.run w with ⟨_ | _, v⟩ <;> rfl

theorem record_books (x : Execution) (w : World) :
    Recorded x w.books ((record x).run w).2.books := by
  unfold record
  rw [run_keep, Work.run_store]
  rcases World.books_callStore .recordExecution (fun s => s.recordExecution x) w with
    ⟨⟨e, he⟩, hb⟩ | ⟨n, s, t, hf, hr, hx, hn, hb⟩
  · rcases hc : w.callStore .recordExecution fun s => s.recordExecution x with ⟨r, v⟩
    rw [hc] at he hb
    cases he
    exact .inl (congrArg Books.lose hb)
  · rcases hc : w.callStore .recordExecution fun s => s.recordExecution x with ⟨r, v⟩
    rw [hc] at hn hb
    cases hn
    obtain ⟨row, hrow, rfl⟩ := Store.recordExecution_eq_ok hf
    refine .inr ⟨row, hrow, hb.trans ?_⟩
    simp only [hr, hx]
    rfl

theorem noteTrigger_books (id : Int) (t : Moment) (n : Nat) (w : World) :
    Noted id t n ((noteTrigger id t n).run w).1.isSome w.books
      ((noteTrigger id t n).run w).2.books := by
  unfold noteTrigger
  rw [run_keep, Work.run_store]
  rcases World.books_callStore .noteTrigger (fun s => s.noteTrigger id t n) w with
    ⟨⟨e, he⟩, hb⟩ | ⟨u, s, s', hf, hr, hx, hn, hb⟩
  · rcases hc : w.callStore .noteTrigger fun s => s.noteTrigger id t n with ⟨r, v⟩
    rw [hc] at he hb
    cases he
    exact .inl ⟨rfl, congrArg Books.lose hb⟩
  · rcases hc : w.callStore .noteTrigger fun s => s.noteTrigger id t n with ⟨r, v⟩
    rw [hc] at hn hb
    cases hn
    obtain ⟨i, hi, rfl⟩ := Store.noteTrigger_eq_ok hf
    refine .inr ⟨rfl, i, hi, hb.trans ?_⟩
    simp only [Store.updateRule, hr, hx]
    rfl

/-! ## One rule -/

/-- How looking at a rule goes: its conditions are judged, and unless that settles it, the rule
is responded to. What goes wrong on the way is recorded. -/
inductive Processed (rule : Rule) (now : Moment) (bypass force : Bool) (w : World) :
    Report → World → Prop
  | unjudged {f : Fault} {u v : World} {r : Report}
      (judged : (evaluate rule.conditions now).run.run w.looked = (.error f, u))
      (record : (recordFault rule now none f).run u = (r, v)) :
      Processed rule now bypass force w r v
  | notMatched {e : Evaluation} {s : Snapshot} {u : World}
      (judged : (evaluate rule.conditions now).run.run w.looked = (.ok (e, s), u))
      (hold : e.result = false) (forced : force = false) :
      Processed rule now bypass force w (.notMatched rule.id e) u
  | responded {e : Evaluation} {s : Snapshot} {u v : World} {r : Report}
      (judged : (evaluate rule.conditions now).run.run w.looked = (.ok (e, s), u))
      (hold : e.result = true ∨ force = true)
      (respond : (respond rule now bypass e s).run.run u = (.ok r, v)) :
      Processed rule now bypass force w r v
  | faulted {e : Evaluation} {s : Snapshot} {f : Fault} {u z v : World} {r : Report}
      (judged : (evaluate rule.conditions now).run.run w.looked = (.ok (e, s), u))
      (hold : e.result = true ∨ force = true)
      (respond : (respond rule now bypass e s).run.run u = (.error f, z))
      (record : (recordFault rule now (some (e, s)) f).run z = (r, v)) :
      Processed rule now bypass force w r v

theorem processRule_processed {rule : Rule} {now : Moment} {bypass force : Bool} {w v : World}
    {r : Report} (run : (processRule rule now bypass force).run w = (r, v)) :
    Processed rule now bypass force w r v := by
  unfold processRule at run
  rw [run_bind', run_bind'] at run
  rcases judged : (evaluate rule.conditions now).run.run w.looked with ⟨x, u⟩
  rw [show ((count fun t => { t with evaluated := t.evaluated + 1 }).run w).2 = w.looked from rfl,
    judged] at run
  rcases x with f | ⟨e, s⟩
  · exact .unjudged judged run
  · by_cases hold : e.result = true ∨ force = true
    · have hgoes : (!e.result && !force) = false := by
        rcases hold with h | h <;> simp [h]
      simp only [hgoes, Bool.false_eq_true, if_false] at run
      rw [run_bind'] at run
      rcases hrespond : (respond rule now bypass e s).run.run u with ⟨y, z⟩
      rw [hrespond] at run
      cases y with
      | ok r' =>
        cases run
        exact .responded judged hold hrespond
      | error f => exact .faulted judged hold hrespond run
    · obtain ⟨hresult, hforce⟩ := not_or.1 hold
      rw [Bool.not_eq_true] at hresult hforce
      simp only [hresult, hforce, Bool.not_false, Bool.and_self, if_true] at run
      cases run
      exact .notMatched judged hresult hforce

/-- What looking at a rule can do: give what became of it, and change the books. -/
inductive Course (rule : Rule) (now : Moment) (bypass force : Bool) (b : Books) :
    Report → Books → Prop
  /-- The conditions do not hold. -/
  | notMatched (e : Evaluation) (hold : e.result = false) (forced : force = false) :
      Course rule now bypass force b (.notMatched rule.id e) b.looked
  /-- The conditions hold, but the rule has fired not long ago. -/
  | suppressed {e : Evaluation} {s : Snapshot} {b' : Books} (hold : e.result = true ∨ force = true)
      (bypassed : bypass = false) (eligible : b.cooldowns.eligible rule.id now = .ok false)
      (record : Recorded { execution rule now e s with suppressed := true } b.looked b') :
      Course rule now bypass force b
        (.suppressed { execution rule now e s with suppressed := true }) b'
  /-- All actions succeeded. -/
  | triggered {e : Evaluation} {s : Snapshot} {outcomes : List Outcome} {t : Moment} {n : Nat}
      {c : Cooldown} {noted : Bool} {b₁ b' : Books} (hold : e.result = true ∨ force = true)
      (eligible : bypass = true ∨ b.cooldowns.eligible rule.id now = .ok true)
      (success : outcomes.all Outcome.succeeded = true)
      (mark : b.cooldowns.mark rule.id now = .ok ((t, n), c))
      (note : Noted rule.id t n noted (b.looked.track c) b₁)
      (record : Recorded { execution rule now e s with
        success := true
        actions := outcomes.map Outcome.toDoc
        error := Outcome.complaint? outcomes } b₁ b') :
      Course rule now bypass force b (.triggered { execution rule now e s with
        success := true
        actions := outcomes.map Outcome.toDoc
        error := Outcome.complaint? outcomes } noted) b'
  /-- Some action failed. -/
  | failed {e : Evaluation} {s : Snapshot} {outcomes : List Outcome} {b' : Books}
      (hold : e.result = true ∨ force = true)
      (eligible : bypass = true ∨ b.cooldowns.eligible rule.id now = .ok true)
      (failure : outcomes.all Outcome.succeeded = false)
      (record : Recorded { execution rule now e s with
        success := false
        actions := outcomes.map Outcome.toDoc
        error := Outcome.complaint? outcomes } b.looked b') :
      Course rule now bypass force b (.failed { execution rule now e s with
        success := false
        actions := outcomes.map Outcome.toDoc
        error := Outcome.complaint? outcomes }) b'
  /-- Something else went wrong. -/
  | faulted (judged : Option (Evaluation × Snapshot)) (f : Fault) {x : Execution} {b' : Books}
      (content : x = {
        ruleId := rule.id
        triggeredAt := now
        success := false
        triggerData := judged.map fun p => p.2.toDoc
        evaluation := judged.map fun p => p.1.toDoc
        error := some f.record
        stackTrace := some "" })
      (record : Recorded x b.looked b') : Course rule now bypass force b (.failed x) b'

/-- What responding to a rule that was counted can do: end as looking at it ends, or
fail and leave the books as they are. -/
def Responded (rule : Rule) (now : Moment) (bypass force : Bool) (b : Books) :
    Except Fault Report × World → Prop
  | (.ok r, v) => Course rule now bypass force b r v.books
  | (.error _, v) => v.books = b.looked

/-- The actions of a rule carried out, with the mark of a success. -/
theorem markTriggered_books (rule : Rule) (now : Moment) (w : World) :
    ((∃ f, ((markTriggered rule now).run.run w).1 = .error f)
        ∧ ((markTriggered rule now).run.run w).2 = w)
      ∨ ∃ t n c noted, w.books.cooldowns.mark rule.id now = .ok ((t, n), c)
        ∧ ((markTriggered rule now).run.run w).1 = .ok noted
        ∧ Noted rule.id t n noted (w.books.track c) ((markTriggered rule now).run.run w).2.books := by
  unfold markTriggered
  rw [Work.run_bind]
  cases hm : w.memory.cooldowns.mark rule.id now with
  | error f =>
    refine .inl ?_
    simp only [Work.run_mk, run_change, hm]
    exact ⟨⟨f, rfl⟩, trivial⟩
  | ok p =>
    obtain ⟨⟨t, n⟩, c⟩ := p
    refine .inr ?_
    simp only [Work.run_mk, run_change, hm, Work.run_bind, Work.run_lift, Work.run_pure]
    exact ⟨t, n, c, _, hm, rfl, noteTrigger_books rule.id t n
      { w with memory := { w.memory with cooldowns := c } }⟩

theorem fire_books {rule : Rule} {now : Moment} {bypass force : Bool} {e : Evaluation}
    (s : Snapshot) {b : Books} {w : World} (hw : w.books = b.looked)
    (hold : e.result = true ∨ force = true)
    (eligible : bypass = true ∨ b.cooldowns.eligible rule.id now = .ok true) :
    Responded rule now bypass force b ((fire rule now e s).run.run w) := by
  unfold fire
  rw [Work.run_bind]
  rcases hd : (Dispatch.run rule.actions ⟨rule.id, rule.name, now, some s⟩).run.run w with ⟨r, v⟩
  have hv : v.books = b.looked := (World.books_of_apart (apart_dispatch _ _) hd).trans hw
  cases r with
  | error f => exact hv
  | ok outcomes =>
    cases hs : outcomes.all Outcome.succeeded with
    | true =>
      simp only [hs, if_true]
      rw [Work.run_bind]
      rcases markTriggered_books rule now v with ⟨⟨f, hf⟩, hu⟩ | ⟨t, n, c, noted, hm, hn, hb⟩
      · rcases hx : (markTriggered rule now).run.run v with ⟨x, u⟩
        rw [hx] at hf hu
        cases hf
        cases hu
        exact hv
      · rcases hx : (markTriggered rule now).run.run v with ⟨x, u⟩
        rw [hx] at hn hb
        cases hn
        rw [hv] at hm hb
        simp only [Work.run_bind, Work.run_lift, Work.run_pure]
        exact .triggered hold eligible hs hm hb (record_books _ u)
    | false =>
      simp only [hs, Bool.false_eq_true, if_false, countFailure, Work.run_bind, Work.run_lift,
        Work.run_pure]
      refine .failed hold eligible hs ?_
      rw [← hv]
      exact record_books _ _

theorem suppress_books {rule : Rule} {now : Moment} {force : Bool} {e : Evaluation} (s : Snapshot)
    {b : Books} {w : World} (hw : w.books = b.looked) (hold : e.result = true ∨ force = true)
    (eligible : b.cooldowns.eligible rule.id now = .ok false) :
    Responded rule now false force b ((suppress rule now e s).run.run w) := by
  unfold suppress
  simp only [Work.run_bind, Work.run_lift, run_count, run_look, Work.run_ofExcept]
  cases w.memory.cooldowns.remaining rule.id now with
  | error f => exact hw
  | ok left =>
    refine .suppressed hold rfl eligible ?_
    rw [← hw]
    exact record_books _ _

theorem respond_books {rule : Rule} {now : Moment} {bypass force : Bool} {e : Evaluation}
    (s : Snapshot) {b : Books} {w : World} (hw : w.books = b.looked)
    (hold : e.result = true ∨ force = true) :
    Responded rule now bypass force b ((respond rule now bypass e s).run.run w) := by
  unfold respond
  cases bypass with
  | true => exact fire_books s hw hold (.inl rfl)
  | false =>
    have hc : w.memory.cooldowns = b.cooldowns := congrArg Books.cooldowns hw
    simp only [Bool.false_eq_true, if_false, eligible, Work.run_bind, Work.run_lift, run_look,
      Work.run_ofExcept, hc]
    cases he : b.cooldowns.eligible rule.id now with
    | error f => exact hw
    | ok may =>
      cases may with
      | true => exact fire_books s hw hold (.inr he)
      | false => exact suppress_books s hw hold he

theorem recordFault_course (rule : Rule) (now : Moment) (bypass force : Bool)
    (judged : Option (Evaluation × Snapshot)) (f : Fault) {b : Books} {w : World}
    (hw : w.books = b.looked) :
    Course rule now bypass force b ((recordFault rule now judged f).run w).1
      ((recordFault rule now judged f).run w).2.books := by
  unfold recordFault
  simp only [run_bind', run_count, run_pure]
  refine .faulted judged f rfl ?_
  rw [← hw]
  exact record_books _ _

/-- Looking at a rule takes one of the courses. -/
theorem processRule_course (rule : Rule) (now : Moment) (bypass force : Bool) (w : World) :
    Course rule now bypass force w.books ((processRule rule now bypass force).run w).1
      ((processRule rule now bypass force).run w).2.books := by
  rcases hrun : (processRule rule now bypass force).run w with ⟨r, v⟩
  have apart : ∀ {x u}, (evaluate rule.conditions now).run.run w.looked = (x, u) →
      u.books = w.books.looked := World.books_of_apart (apart_evaluate _ _)
  cases processRule_processed hrun with
  | @unjudged f u _ _ judged record =>
    have h := recordFault_course rule now bypass force none f (apart judged)
    rwa [record] at h
  | notMatched judged hold forced =>
    show Course rule now bypass force w.books _ (World.books _)
    rw [apart judged]
    exact .notMatched _ hold forced
  | @responded _ s _ _ _ judged hold respond =>
    have h : Responded rule now bypass force w.books _ := respond_books s (apart judged) hold
    rwa [respond] at h
  | @faulted e s f _ _ _ _ judged hold respond record =>
    have hresponded : Responded rule now bypass force w.books _ :=
      respond_books s (apart judged) hold
    rw [respond] at hresponded
    have h := recordFault_course rule now bypass force (some (e, s)) f hresponded
    rwa [record] at h

theorem Course.ruleId {rule : Rule} {now : Moment} {bypass force : Bool} {b b' : Books}
    {r : Report} (h : Course rule now bypass force b r b') : r.ruleId = rule.id := by
  cases h with
  | notMatched => rfl
  | suppressed => rfl
  | triggered => rfl
  | failed => rfl
  | faulted _ _ content =>
    subst content
    rfl

/-- What a course does to the books where all times have an offset. -/
inductive Effect (id : Int) (now : Moment) (b : Books) : Report → Books → Prop
  | nothing (e : Evaluation) : Effect id now b (.notMatched id e) b.looked
  /-- An execution is recorded that does not count as a trigger. -/
  | quiet {r : Report} {x : Execution} {b' : Books} (report : r = .suppressed x ∨ r = .failed x)
      (ruleId : x.ruleId = id) (time : x.triggeredAt = now) (same : x.success = x.suppressed)
      (record : Recorded x b.looked b') : Effect id now b r b'
  /-- A trigger is noted in the tracker and with the rule, and recorded. -/
  | trigger {x : Execution} {noted : Bool} {b₁ b' : Books} (ruleId : x.ruleId = id)
      (time : x.triggeredAt = now) (success : x.success = true) (fired : x.suppressed = false)
      (note : Noted id (Cooldown.latest (b.cooldowns.last.get? id) now)
        (b.cooldowns.triggerCount id + 1 : Nat) noted
        (b.looked.track (b.cooldowns.marked id now)) b₁)
      (record : Recorded x b₁ b') : Effect id now b (.triggered x noted) b'

theorem Course.effect {rule : Rule} {now : Moment} {bypass force : Bool} {b b' : Books}
    {r : Report} (h : Course rule now bypass force b r b') (ht : b.cooldowns.Aware)
    (hn : now.Aware) : Effect rule.id now b r b' := by
  cases h with
  | notMatched e _ _ => exact .nothing e
  | suppressed _ _ _ record => exact .quiet (.inl rfl) rfl rfl rfl record
  | triggered _ _ _ mark note record =>
    rw [Cooldown.mark_of_aware ht rule.id hn] at mark
    cases mark
    exact .trigger rfl rfl rfl rfl note record
  | failed _ _ _ record => exact .quiet (.inr rfl) rfl rfl rfl record
  | faulted _ _ content record =>
    subst content
    exact .quiet (.inr rfl) rfl rfl rfl record

theorem Effect.ruleId {id : Int} {now : Moment} {b b' : Books} {r : Report}
    (h : Effect id now b r b') : r.ruleId = id := by
  cases h with
  | nothing e => rfl
  | quiet report ruleId _ _ _ => rcases report with rfl | rfl <;> exact ruleId
  | trigger ruleId _ _ _ _ _ => exact ruleId

/-! ## Ticks -/

/-- What looking at rules one after the other can do. -/
inductive Courses (now : Moment) : List Rule → Books → List Report → Books → Prop
  | nil (b : Books) : Courses now [] b [] b
  | cons {rule : Rule} {rules : List Rule} {b b₁ b' : Books} {r : Report} {rs : List Report}
      (first : Course rule now false false b r b₁) (rest : Courses now rules b₁ rs b') :
      Courses now (rule :: rules) b (r :: rs) b'

theorem processAll_courses (now : Moment) (rules : List Rule) (w : World) :
    Courses now rules w.books ((processAll now rules).run w).1
      ((processAll now rules).run w).2.books := by
  induction rules generalizing w with
  | nil => exact .nil _
  | cons rule rules ih =>
    unfold processAll
    simp only [run_bind', run_pure]
    exact .cons (processRule_course rule now false false w) (ih _)

/-- The first rule is looked at, and then the others. -/
theorem processAll_cons {now : Moment} {rule : Rule} {rules : List Rule} {v v' : World}
    {reports : List Report} (run : (processAll now (rule :: rules)).run v = (reports, v')) :
    ∃ r u rs, (processRule rule now false false).run v = (r, u)
      ∧ (processAll now rules).run u = (rs, v') ∧ reports = r :: rs := by
  unfold processAll at run
  simp only [run_bind', run_pure] at run
  cases run
  exact ⟨_, _, _, rfl, rfl, rfl⟩

/-- The rules that rows hold, unless one of them raises a fault, and the number of
rows that were refused up to then. -/
def sift : List RuleRow → Except Fault (List Rule) × Nat
  | [] => (.ok [], 0)
  | row :: rows =>
    match row.toRule with
    | .ok r => ((sift rows).1.map (r :: ·), (sift rows).2)
    | .error (.rejected _) => ((sift rows).1, (sift rows).2 + 1)
    | .error (.fault f) => (.error f, 0)

/-- Where no row raises a fault, every row gives its rule or is counted. -/
theorem sift_ok {rows : List RuleRow} {rules : List Rule} {n : Nat}
    (h : sift rows = (.ok rules, n)) :
    rules = rows.filterMap RuleRow.rule? ∧ n = rows.countP fun row => row.rule?.isNone := by
  induction rows generalizing rules n with
  | nil =>
    cases h
    exact ⟨rfl, rfl⟩
  | cons row rows ih =>
    unfold sift at h
    rcases hs : sift rows with ⟨x, k⟩
    rw [hs] at h
    cases hrow : row.toRule with
    | ok rule =>
      have hrule : row.rule? = some rule := RuleRow.rule?_eq_some.2 hrow
      rw [hrow] at h
      cases x with
      | error f => cases h
      | ok rs =>
        cases h
        obtain ⟨rfl, rfl⟩ := ih hs
        simp [hrule]
    | error e =>
      have hrule : row.rule? = none := by simp [RuleRow.rule?, hrow, Except.toOption]
      rw [hrow] at h
      cases e with
      | fault f => cases h
      | rejected q =>
        cases h
        obtain ⟨rfl, rfl⟩ := ih hs
        simp [hrule]

theorem sift_built {b : Books} {rules : List Rule} {n : Nat}
    (h : sift b.enabledRows = (.ok rules, n)) : rules = b.built ∧ n = b.refusals :=
  sift_ok h

/-- Building rules counts the rows that are refused and does nothing else. -/
theorem build_run (rows : List RuleRow) (w : World) :
    (build rows).run.run w = ((sift rows).1, w.refuse (sift rows).2) := by
  induction rows generalizing w with
  | nil => rfl
  | cons row rows ih =>
    unfold build sift
    cases hr : row.toRule with
    | ok r =>
      simp only [Work.run_bind, ih w]
      cases (sift rows).1 with
      | ok rs => rfl
      | error f => rfl
    | error e =>
      cases e with
      | fault f => rfl
      | rejected q =>
        simp only [Work.run_bind, Work.run_lift, run_count]
        show (build rows).run.run (w.refuse 1) = _
        rw [ih, World.refuse_refuse, Nat.add_comm]

end Engine

namespace World

/-- A world in which a tick was left out. -/
def skipping (w : World) : World := w.tallied fun t => { t with skipped := t.skipped + 1 }

/-- A world in which a tick has the lock. -/
def locking (w : World) : World := { w with memory := { w.memory with locked := true } }

/-- A world in which the lock is free again. -/
def unlocked (w : World) : World := { w with memory := { w.memory with locked := false } }

/-- A world in which a tick was counted. -/
def ticked (w : World) : World :=
  { w with memory := { w.memory with
    lastTickAt := some w.clock
    tally := { w.memory.tally with ticks := w.memory.tally.ticks + 1 } } }

/-- A world in which the last tick met an error. -/
def withLastError (error : String) (w : World) : World :=
  { w with memory := { w.memory with lastError := some error } }

/-- A world in which the last tick met no error. -/
def settled (w : World) : World := { w with memory := { w.memory with lastError := none } }

/-- A world in which a tick has built its rules and handed them to the tracker. -/
def merging (rules : List Rule) (c : Cooldown) (w : World) : World :=
  { w with memory := { w.memory with activeRules := rules.length, cooldowns := c } }

/-- A world in which it has put them in order, too. -/
def ordering (rules : List Rule) (c : Cooldown) (w : World) : World :=
  { w with memory := { w.memory with
    activeRules := rules.length, cooldowns := c, order := (w.memory.order.sort rules).2 } }

end World

namespace Engine

/-- What a tick does with the rows that it has loaded: it builds the rules, hands them to the
tracker, puts them in order and looks at them. A fault of the first two ends it. -/
theorem tickWith_eq (now : Moment) (rows : List RuleRow) (w : World) :
    (tickWith now rows).run.run w = match sift rows with
      | (.error f, n) => (.error f, w.refuse n)
      | (.ok rules, n) => match w.memory.cooldowns.refresh rules with
        | (.error f, c) => (.error f, (w.refuse n).merging rules c)
        | (.ok _, c) =>
          let sorted := (w.memory.order.sort rules).1
          let looked := (processAll now sorted).run ((w.refuse n).ordering rules c)
          (.ok (.done now sorted looked.1), looked.2.settled) := by
  unfold tickWith
  rw [Work.run_bind, build_run]
  rcases sift rows with ⟨f | rules, n⟩
  · rfl
  · simp only [Work.run_bind, Work.run_lift, run_remember, adjust, arrange, Work.run_mk,
      run_change, Work.run_pure]
    rw [show (w.refuse n).memory.cooldowns = w.memory.cooldowns from rfl]
    rcases w.memory.cooldowns.refresh rules with ⟨f | _, c⟩
    · rfl
    · rfl

/-- What a tick does once it holds the lock: it is counted and loads the rows, or reports
that it could not. -/
theorem tickLocked_eq (w : World) :
    tickLocked.run.run w = match w.ticked.consult .enabledRules with
      | (some f, v) => let error := "Failed to load rules: " ++ f.text
        (.ok (.unloaded w.clock error), v.withLastError error)
      | (none, v) => (tickWith w.clock v.books.enabledRows).run.run v := by
  unfold tickLocked
  rw [Work.run_bind, Work.run_lift, run_look]
  simp only
  rw [Work.run_bind, Work.run_lift, run_count]
  simp only
  rw [Work.run_bind, Work.run_lift, run_remember]
  change (ExceptT.lift (Work.fetch .enabledRules fun s => .ok s.enabledRules).run
    >>= _).run.run w.ticked = _
  rw [Work.run_bind, Work.run_lift, Work.run_fetch]
  rcases w.ticked.consult .enabledRules with ⟨_ | f, v⟩
  · rfl
  · rfl

/-- What a tick does: it takes the lock and frees it at its end, unless the lock is held or
the tick is laid down to fail. -/
theorem round_eq (w : World) :
    round.run.run w = match w.consult .tick with
      | (some f, v) => (.error f, v)
      | (none, v) => if v.memory.locked then (.ok none, v.skipping)
        else let p := tickLocked.run.run v.locking
          (p.1.map some, p.2.unlocked) := by
  unfold round Work.consult
  rw [Work.run_bind]
  simp only [Work.run_mk, run_change]
  rcases w.consult .tick with ⟨_ | f, v⟩
  · simp only [Work.run_bind, Work.run_lift, run_look]
    cases v.memory.locked with
    | true => rfl
    | false =>
      simp only [Bool.false_eq_true, if_false, Work.run_bind, Work.run_mk, locked, run_bind',
        run_remember, run_pure]
      rw [show ({ v with memory := { v.memory with locked := true } } : World) = v.locking from rfl]
      rcases tickLocked.run.run v.locking with ⟨f | r, u⟩
      · rfl
      · rfl
  · rfl

/-- All that a tick can do to the books with the rows that it has loaded. -/
inductive Served (now : Moment) (rows : List RuleRow) (b : Books) :
    Except Fault Round → Books → Prop
  /-- A row raised a fault. -/
  | unbuilt {f : Fault} {n : Nat} (build : sift rows = (.error f, n)) :
      Served now rows b (.error f) (b.refuse n)
  /-- The tracker could not take over the history of some rule. -/
  | unmerged {rules : List Rule} {f : Fault} {n : Nat} {c : Cooldown}
      (build : sift rows = (.ok rules, n)) (merge : b.cooldowns.refresh rules = (.error f, c)) :
      Served now rows b (.error f) ((b.refuse n).track c)
  /-- The rules were looked at in some order. -/
  | done {rules sorted : List Rule} {n : Nat} {c : Cooldown} {reports : List Report} {b' : Books}
      (build : sift rows = (.ok rules, n)) (merge : b.cooldowns.refresh rules = (.ok (), c))
      (order : sorted.Perm rules) (looks : Courses now sorted ((b.refuse n).track c) reports b') :
      Served now rows b (.ok (.done now sorted reports)) b'

/-- All that a tick can do to the books, and when. -/
inductive Turn (w : World) : Except Fault (Option Round) → Books → Prop
  /-- The tick does not begin. -/
  | refused {f : Fault} (begins : (w.consult .tick).1 = some f) : Turn w (.error f) w.books
  /-- Another tick or a trigger is under way. -/
  | skipped (busy : w.memory.locked = true) : Turn w (.ok none) w.books
  /-- The rules could not be loaded. -/
  | unloaded {f : Fault} (load : (w.consult .enabledRules).1 = some f) :
      Turn w (.ok (some (.unloaded w.clock ("Failed to load rules: " ++ f.text)))) w.books
  | served {r : Except Fault Round} {b' : Books} (load : (w.consult .enabledRules).1 = none)
      (serve : Served w.clock w.books.enabledRows w.books r b') : Turn w (r.map some) b'

theorem tickWith_served (now : Moment) (rows : List RuleRow) (w : World) :
    Served now rows w.books ((tickWith now rows).run.run w).1
      ((tickWith now rows).run.run w).2.books := by
  rw [tickWith_eq]
  rcases hs : sift rows with ⟨f | rules, n⟩
  · exact .unbuilt hs
  · dsimp only
    rcases hm : w.memory.cooldowns.refresh rules with ⟨f | _, c⟩
    · exact .unmerged hs hm
    · have hp := RuleOrder.sortBy_perm w.memory.order (·.id) (·.priority) rules
      exact .done hs hm hp (processAll_courses now (w.memory.order.sort rules).1
        ((w.refuse n).ordering rules c))

/-- The rows of enabled rules are loaded as the books have them, or not at all. -/
theorem fetchEnabled_run (w : World) :
    ∃ v, (Work.fetch .enabledRules fun s => .ok s.enabledRules).run.run w
        = ((match (w.consult .enabledRules).1 with
            | some f => .error f
            | none => .ok w.books.enabledRows), v)
      ∧ v.books = w.books := by
  rw [Work.run_fetch]
  have hb := World.books_consult .enabledRules w
  rcases hc : w.consult .enabledRules with ⟨e, v⟩
  rw [hc] at hb
  cases e with
  | some e => exact ⟨v, rfl, hb⟩
  | none =>
    have hr : v.store.rules = w.books.rules := congrArg Books.rules hb
    refine ⟨v, ?_, hb⟩
    simp only [Store.enabledRules, Store.allRules, Books.enabledRows, hr]

/-- A tick that holds the lock takes one of the turns. -/
theorem tickLocked_turn {u w : World} (hb : u.books = w.books)
    (hload : (u.consult .enabledRules).1 = (w.consult .enabledRules).1) :
    Turn w ((tickLocked.run.run u).1.map some) (tickLocked.run.run u).2.books := by
  have hclock : u.ticked.clock = w.clock := congrArg Books.clock hb
  have hbooks : (u.ticked.consult .enabledRules).2.books = w.books :=
    (World.books_consult .enabledRules u.ticked).trans hb
  have hticked : (u.ticked.consult .enabledRules).1 = (w.consult .enabledRules).1 := by
    rw [← hload, World.consult_fst, World.consult_fst]
    rfl
  rw [tickLocked_eq]
  rcases hc : u.ticked.consult .enabledRules with ⟨_ | f, v⟩
  · rw [hc] at hbooks hticked
    have ht := tickWith_served w.clock w.books.enabledRows v
    rw [show v.books = w.books from hbooks] at ht
    dsimp only
    rw [show v.books = w.books from hbooks, show u.clock = w.clock from hclock]
    exact .served hticked.symm ht
  · rw [hc] at hbooks hticked
    show Turn w (.ok (some (.unloaded u.clock _))) v.books
    rw [show v.books = w.books from hbooks, show u.clock = w.clock from hclock]
    exact .unloaded hticked.symm

/-- A tick takes one of the turns. -/
theorem round_turn (w : World) :
    Turn w (round.run.run w).1 (round.run.run w).2.books := by
  have hb := World.books_consult .tick w
  have hm : (w.consult .tick).2.memory = w.memory :=
    congrArg Interior.memory ((World.outward_consult .tick).interior_eq w)
  have hload := World.consult_fst_of_ne (c := .tick) (d := .enabledRules) nofun w
  rw [round_eq]
  rcases hc : w.consult .tick with ⟨_ | f, v⟩
  · rw [hc] at hb hm hload
    dsimp only
    cases hl : v.memory.locked with
    | true =>
      show Turn w (.ok none) v.books
      rw [show v.books = w.books from hb]
      exact .skipped (by rw [← hl, ← hm])
    | false =>
      refine tickLocked_turn (u := v.locking) hb ?_
      rw [← hload, World.consult_fst, World.consult_fst]
      rfl
  · rw [hc] at hb
    show Turn w (.error f) v.books
    rw [show v.books = w.books from hb]
    exact .refused (congrArg Prod.fst hc)

/-! ## By hand -/

/-- All that a trigger by hand can do to the books once it has the lock. -/
inductive Manual (rule : Rule) (force : Bool) (b : Books) : Except Fault Report → Books → Prop
  /-- The tracker could not take over the history of the rule. -/
  | unmerged {f : Fault} {c : Cooldown} (merge : b.cooldowns.sync rule = (.error f, c)) :
      Manual rule force b (.error f) (b.track c)
  /-- The rule was looked at. -/
  | looked {c : Cooldown} {r : Report} {b' : Books} (merge : b.cooldowns.sync rule = (.ok (), c))
      (look : Course rule b.clock true force (b.track c) r b') : Manual rule force b (.ok r) b'

theorem triggerLocked_manual (rule : Rule) (force : Bool) (w : World) :
    Manual rule force w.books ((locked (triggerLocked rule force).run).run w).1
      ((locked (triggerLocked rule force).run).run w).2.books := by
  unfold locked triggerLocked
  simp only [run_bind', run_remember, run_pure, adjust, Work.run_bind, Work.run_mk, run_change,
    Work.run_lift, run_look]
  rcases hm : w.memory.cooldowns.sync rule with ⟨z, c⟩
  cases z with
  | error f => exact .unmerged hm
  | ok _ =>
    exact .looked hm (processRule_course rule w.clock true force
      { w with memory := { w.memory with cooldowns := c, locked := true } })

/-- A row that is fetched is in the books, and fetching changes nothing there. -/
theorem fetchRule_run (id : Int) (w : World) :
    ∃ x v, (Work.fetch .getRule fun s => s.findRule id).run.run w = (x, v) ∧ v.books = w.books
      ∧ ∀ row, x = .ok (some row) → row ∈ w.books.rules ∧ row.id = id := by
  rw [Work.run_fetch]
  have hb := World.books_consult .getRule w
  rcases hc : w.consult .getRule with ⟨e, v⟩
  rw [hc] at hb
  cases e with
  | some e => exact ⟨_, _, rfl, hb, fun row h => by cases h⟩
  | none =>
    refine ⟨_, _, rfl, hb, fun row h => ?_⟩
    unfold Store.findRule at h
    obtain ⟨_, _, h⟩ := bind_eq_ok.1 h
    have hf : v.store.rules.find? (·.id == id) = some row := Except.ok.inj h
    have hr : v.store.rules = w.books.rules := congrArg Books.rules hb
    rw [hr] at hf
    exact ⟨List.mem_of_find?_eq_some hf, by simpa using List.find?_some hf⟩

/-- A rule is loaded from a row that there is, and loading changes no books. -/
theorem load_run (id : Int) (w : World) :
    ∃ x v, (load id).run.run w = (x, v) ∧ v.books = w.books
      ∧ ∀ rule, x = .ok rule → ∃ row ∈ w.books.rules, row.id = id ∧ row.toRule = .ok rule := by
  unfold load
  obtain ⟨x, v, hx, hv, hrow⟩ := fetchRule_run id w
  rw [Work.run_bind]
  simp only [liftM, monadLift, MonadLift.monadLift, Work.run_lift, hx]
  cases x with
  | error f => exact ⟨_, _, rfl, hv, fun rule h => by cases h⟩
  | ok o =>
    cases o with
    | none => exact ⟨_, _, rfl, hv, fun rule h => by cases h⟩
    | some row =>
      obtain ⟨hmem, hid⟩ := hrow row rfl
      exact ⟨_, _, rfl, hv, fun rule h => ⟨row, hmem, hid, h⟩⟩

/-- Waiting for the lock changes no books. -/
theorem awaitLock_books (w : World) :
    ((Plan.awaitLock : Activity Unit).run w).2.books = w.books := by
  unfold awaitLock
  simp only [Plan.run]
  split
  · exact World.books_elapse _ w
  · rfl

/-- A trigger by hand either leaves the books as they are, or loads a rule from its
row and does with it what it can once it has the lock. -/
theorem trigger_run (id : Int) (force : Bool) (w : World) :
    ∃ x v, (trigger id force).run.run w = (x, v)
      ∧ ((∃ e, x = .error e) ∧ v.books = w.books
        ∨ ∃ rule, (∃ row ∈ w.books.rules, row.id = id ∧ row.toRule = .ok rule)
          ∧ ∃ r, x = r.mapError .fault ∧ Manual rule force w.books r v.books) := by
  unfold trigger
  obtain ⟨x, v, hx, hv, hrow⟩ := load_run id w
  rw [Work.run_bind, hx]
  cases x with
  | error e => exact ⟨_, _, rfl, .inl ⟨⟨e, rfl⟩, hv⟩⟩
  | ok rule =>
    have hb : ((Plan.awaitLock : Activity Unit).run v).2.books = w.books :=
      (awaitLock_books v).trans hv
    simp only [Work.run_bind, Work.run_lift]
    have hm := triggerLocked_manual rule force ((Plan.awaitLock : Activity Unit).run v).2
    rw [hb] at hm
    exact ⟨_, _, rfl, .inr ⟨rule, hrow rule rfl, _, rfl, hm⟩⟩

end Engine

end Glasshouse
