/-
Glasshouse.Proofs.Service.Handling — calls that fail, and what they have done until
then. A handler that only reads is `Idle`; one whose changes are its last step
that can fail is `Firm`. Two calls are neither (`Slip`): a rule is switched
before its row turns out to have no form for an answer, and a tick is counted
before a row stops it. Main statement: `handle_failed`.
-/
import Glasshouse.Proofs.Engine.Audit
import Glasshouse.Proofs.Doc.Reading
import Glasshouse.Service

namespace Glasshouse

open Calendar Plan

/-! ## Worlds left as they are -/

/-- A world afterwards that differs from the one before in the scripts of outages at most. -/
def World.Untouched (w v : World) : Prop := ∃ t, v = w.failing t

namespace World.Untouched

variable {u v w : World}

protected theorem refl (w : World) : w.Untouched w := ⟨w.outages, rfl⟩

protected theorem trans (h : w.Untouched v) (k : v.Untouched u) : w.Untouched u := by
  obtain ⟨t, rfl⟩ := h
  obtain ⟨s, rfl⟩ := k
  exact ⟨s, rfl⟩

theorem store_eq (h : w.Untouched v) : v.store = w.store := by
  obtain ⟨t, rfl⟩ := h
  rfl

theorem memory_eq (h : w.Untouched v) : v.memory = w.memory := by
  obtain ⟨t, rfl⟩ := h
  rfl

theorem books_eq (h : w.Untouched v) : v.books = w.books := by
  obtain ⟨t, rfl⟩ := h
  rfl

end World.Untouched

theorem World.untouched_consult (c : Contact) (w : World) : w.Untouched (w.consult c).2 :=
  w.consult_failing c

/-- A call to the store that does its work changes the store alone. One that fails touches
nothing, and was laid down to fail or has met a fault. -/
theorem World.callStore_cases {α : Type} (c : Contact) (f : Store → Except Fault (α × Store))
    (w : World) :
    (∃ a s, (w.consult c).1 = none ∧ f w.store = .ok (a, s) ∧ (w.callStore c f).1 = .ok a
        ∧ World.Untouched { w with store := s } (w.callStore c f).2)
      ∨ (∃ e, (w.callStore c f).1 = .error e) ∧ w.Untouched (w.callStore c f).2
        ∧ ((w.consult c).1 = none → ∃ e, f w.store = .error e) := by
  obtain ⟨t, ht⟩ := w.consult_failing c
  unfold callStore
  rcases hc : w.consult c with ⟨_ | e, v⟩
  · obtain rfl : v = w.failing t := by rw [hc] at ht; exact ht
    have hstore : f (w.failing t).store = f w.store := rfl
    cases hf : f w.store with
    | ok p =>
      refine .inl ⟨p.1, p.2, rfl, rfl, by simp only [hstore, hf], t, ?_⟩
      simp only [hstore, hf]
      rfl
    | error e =>
      exact .inr ⟨⟨e, by simp only [hstore, hf]⟩, ⟨t, by simp only [hstore, hf]⟩, fun _ => ⟨e, rfl⟩⟩
  · obtain rfl : v = w.failing t := by rw [hc] at ht; exact ht
    exact .inr ⟨⟨e, rfl⟩, ⟨t, rfl⟩, nofun⟩

section Computations

variable {ε α β : Type}

/-- A computation that touches nothing. -/
def Idle (x : ExceptT ε Activity α) : Prop := ∀ w : World, w.Untouched (x.run.run w).2

/-- A computation that, begun in a world, touches nothing where it fails. -/
def Firm (w : World) (x : ExceptT ε Activity α) : Prop :=
  ∀ e v, x.run.run w = (.error e, v) → w.Untouched v

/-- A computation that, begun in a world, does not fail. -/
def Sure (w : World) (x : ExceptT ε Activity α) : Prop := ∃ a, (x.run.run w).1 = .ok a

namespace Idle

protected theorem pure (a : α) : Idle (pure a : ExceptT ε Activity α) := fun w => .refl w

protected theorem throw (e : ε) : Idle (throw e : ExceptT ε Activity α) := fun w => .refl w

protected theorem look (f : World → α) :
    Idle (ExceptT.lift (Plan.look f) : ExceptT ε Activity α) := fun w => .refl w

protected theorem bind {x : ExceptT ε Activity α} {f : α → ExceptT ε Activity β} (hx : Idle x)
    (hf : ∀ a, Idle (f a)) : Idle (x >>= f) := by
  intro w
  have hw := hx w
  rw [Work.run_bind]
  rcases hr : x.run.run w with ⟨r, v⟩
  rw [hr] at hw
  cases r with
  | error e => exact hw
  | ok a => exact hw.trans (hf a v)

theorem mapM {f : α → ExceptT ε Activity β} (hf : ∀ a, Idle (f a)) (as : List α) :
    Idle (as.mapM f) := by
  induction as with
  | nil => exact .pure []
  | cons a as ih =>
    rw [List.mapM_cons]
    exact (hf a).bind fun b => ih.bind fun bs => .pure (b :: bs)

theorem firm {x : ExceptT ε Activity α} (hx : Idle x) (w : World) : Firm w x := by
  intro e v h
  have hw := hx w
  rwa [h] at hw

end Idle

namespace Firm

variable {w : World} {x : ExceptT ε Activity α} {f : α → ExceptT ε Activity β}

/-- What only reads may come first. -/
theorem after_idle (hx : Idle x) (hf : ∀ a v, x.run.run w = (.ok a, v) → w.Untouched v →
    Firm v (f a)) : Firm w (x >>= f) := by
  intro e u h
  have hw := hx w
  rw [Work.run_bind] at h
  rcases hr : x.run.run w with ⟨r, v⟩
  rw [hr] at h hw
  cases r with
  | error e =>
    cases h
    exact hw
  | ok a => exact hw.trans (hf a v hr hw e u h)

/-- What cannot fail may follow. -/
theorem before_sure (hx : Firm w x) (hf : ∀ a v, x.run.run w = (.ok a, v) → Sure v (f a)) :
    Firm w (x >>= f) := by
  intro e u h
  rw [Work.run_bind] at h
  rcases hr : x.run.run w with ⟨r, v⟩
  rw [hr] at h
  cases r with
  | error e =>
    cases h
    exact hx e _ hr
  | ok a =>
    obtain ⟨b, hb⟩ := hf a v hr
    rw [show (f a).run.run v = (.error e, u) from h] at hb
    cases hb

end Firm

/-- Faults given another form change nothing else. -/
theorem run_mapError {δ : Type} (f : ε → δ) (x : ExceptT ε Activity α) (w : World) :
    (ExceptT.mk (x.run.bind fun r => pure (r.mapError f)) : ExceptT δ Activity α).run.run w
      = ((x.run.run w).1.mapError f, (x.run.run w).2) :=
  Plan.run_bind ..

theorem Idle.mapError {δ : Type} {f : ε → δ} {x : ExceptT ε Activity α} (hx : Idle x) :
    Idle (ExceptT.mk (x.run.bind fun r => pure (r.mapError f)) : ExceptT δ Activity α) := by
  intro w
  rw [run_mapError]
  exact hx w

theorem Firm.mapError {δ : Type} {f : ε → δ} {x : ExceptT ε Activity α} {w : World}
    (hx : Firm w x) :
    Firm w (ExceptT.mk (x.run.bind fun r => pure (r.mapError f)) : ExceptT δ Activity α) := by
  intro e v h
  rw [run_mapError] at h
  rcases hr : x.run.run w with ⟨a | e, u⟩
  · rw [hr] at h
    cases h
    exact hx _ _ hr
  · rw [hr] at h
    cases h

end Computations

/-! ## Parts of handlers -/

/-- A call to the store that changes it touches nothing where it fails. -/
theorem firm_store {α : Type} (c : Contact) (f : Store → Except Fault (α × Store)) (w : World) :
    Firm w (Work.store c f) := by
  intro e v h
  rw [Work.run_store] at h
  rcases w.callStore_cases c f with ⟨a, s, -, -, ha, -⟩ | ⟨-, hw, -⟩
  · rw [h] at ha
    cases ha
  · rwa [h] at hw

namespace Store

variable {s : Store} {n : Int}

/-- The row of a rule that was switched is the row from before, switched. -/
theorem rule?_switched (on : Bool) :
    (s.updateRule n (RuleRow.switched on)).rule? n = (s.rule? n).map (RuleRow.switched on) := by
  have hid : ((·.id == n) ∘ fun r : RuleRow => if r.id == n then r.switched on else r)
      = (·.id == n) := by
    funext r
    show ((if r.id == n then r.switched on else r).id == n) = (r.id == n)
    split <;> rfl
  show (s.rules.map fun r => if r.id == n then r.switched on else r).find? (·.id == n) = _
  rw [List.find?_map, hid]
  show (s.rule? n).map _ = _
  cases hr : s.rule? n with
  | none => rfl
  | some row =>
    have hrow : row.id = n := by simpa using List.find?_some hr
    simp only [Option.map_some, hrow, beq_self_eq_true, if_true]

/-- A rule is switched where it can be looked up. -/
theorem setEnabled_eq (s : Store) (n : Int) (on : Bool) :
    s.setEnabled n on = (s.findRule n).map fun found =>
      (found.map (RuleRow.switched on), s.updateRule n (RuleRow.switched on)) := by
  unfold setEnabled findRule
  cases requireFits [n] with
  | error e => rfl
  | ok u =>
    show Except.ok ((s.updateRule n (RuleRow.switched on)).rule? n, _) = _
    rw [rule?_switched]
    rfl

theorem findRule_eq_ok {found : Option RuleRow} (h : s.findRule n = .ok found) :
    s.rule? n = found := by
  unfold findRule at h
  obtain ⟨_, _, h⟩ := bind_eq_ok.1 h
  exact Except.ok.inj h

/-- Switching a rule to what it is changes nothing. -/
theorem updateRule_switched (distinct : (s.rules.map (·.id)).Nodup) {row : RuleRow}
    (stored : s.rule? n = some row) : s.updateRule n (RuleRow.switched row.enabled) = s := by
  have hsame : ∀ r ∈ s.rules, (if r.id == n then r.switched row.enabled else r) = r := by
    intro r hr
    split
    · rename_i hid
      have hrow : row.id = n := by simpa using List.find?_some stored
      have hmem : row ∈ s.rules := List.mem_of_find?_eq_some stored
      have heq : r = row := List.inj_on_of_nodup_map distinct hr hmem
        ((by simpa using hid : r.id = n).trans hrow.symm)
      rw [heq]
      rfl
    · rfl
  unfold updateRule
  rw [List.map_congr_left hsame, List.map_id']

end Store

namespace Engine

/-- Conditions are tested without any consequence. -/
theorem idle_testDoc (d : Doc) : Idle (testDoc d) := by
  have htest : ∀ c, Idle (test c) := fun c => .bind (.look World.clock) fun now =>
    .bind (Work.Reads.evaluate c now) fun p => .pure _
  exact .bind (fun w => .refl w) fun c => (htest c).mapError

theorem idle_load (id : Int) : Idle (load id) := by
  have hfetch : ∀ w : World,
      w.Untouched ((Work.fetch .getRule fun s => s.findRule id).run.run w).2 :=
    Work.Reads.fetch _ _
  refine Idle.bind (fun w => ?_) fun r => ?_
  · simp only [liftM, monadLift, MonadLift.monadLift, Work.run_lift]
    exact hfetch w
  · split
    · exact .throw _
    · exact .throw _
    · exact fun w => .refl w

/-- Once it has its rule, a trigger by hand does not fail. -/
theorem firm_trigger {w : World} (free : w.memory.locked = false)
    (aware : w.memory.cooldowns.Aware) (id : Int) (force : Bool) : Firm w (trigger id force) := by
  unfold trigger
  refine .after_idle (idle_load id) fun rule v hload hv => ?_
  have hrule : rule.Aware := by
    obtain ⟨x, u, hx, -, hrow⟩ := load_run id w
    cases hload.symm.trans hx
    obtain ⟨row, -, -, hr⟩ := hrow rule rfl
    exact (RuleRow.isOf_of_toRule hr).aware
  have hawait : (Plan.awaitLock : Activity Unit).run v = ((), v) := by
    have hfree : Timed.locked v = false := (congrArg Memory.locked hv.memory_eq).trans free
    simp only [Plan.awaitLock, Plan.run, hfree, Bool.false_eq_true, if_false]
  intro e u h
  rw [Work.run_bind, Work.run_lift, hawait] at h
  simp only [Work.run_bind, Work.run_lift] at h
  have hm := triggerLocked_manual rule force v
  generalize ((locked (triggerLocked rule force).run).run v).1 = r at h hm
  generalize ((locked (triggerLocked rule force).run).run v).2.books = b at hm
  cases hm with
  | unmerged merge =>
    have hsync := Cooldown.sync_of_aware (show w.books.cooldowns.Aware from aware) hrule
    rw [hv.books_eq, hsync] at merge
    cases merge
  | looked => cases h

/-- A row whose reading ends in a fault stops the tick that has loaded it, but not before
the tick was counted. -/
theorem tick_raises {w : World} (free : w.memory.locked = false)
    (begins : (w.consult .tick).1 = none) (load : (w.consult .enabledRules).1 = none)
    {row : RuleRow} (mem : row ∈ w.books.enabledRows) (raises : row.Raises) :
    ∃ f t n, tick.run.run w = (.error f, ((w.ticked.failing t).refuse n).unlocked) := by
  obtain ⟨f, n, hsift⟩ := sift_error_iff.2 ⟨row, mem, raises⟩
  obtain ⟨s, hload, htick⟩ := tick_begins free begins
  obtain ⟨t, hlocked⟩ := tickLocked_loads (w := (w.failing s).locking) (hload.trans load)
  refine ⟨f, t, n, ?_⟩
  have hwith : (tickWith w.clock w.books.enabledRows).run.run
      ((w.failing s).locking.ticked.failing t)
        = (.error f, ((w.failing s).locking.ticked.failing t).refuse n) := by
    rw [tickWith_eq, hsift]
  rw [htick, hlocked]
  exact congrArg (fun p : Except Fault Round × World =>
    (p.1.map (some ·.summary), p.2.unlocked)) hwith

/-- A tick that is laid down to fail touches nothing. -/
theorem tick_refused {w : World} {f : Fault} (begins : (w.consult .tick).1 = some f) :
    tick.run.run w = (.error f, (w.consult .tick).2) := by
  unfold tick
  rw [Work.run_bind, round_eq]
  rcases hc : w.consult .tick with ⟨e, u⟩
  rw [hc] at begins
  cases begins
  rfl

/-- A tick that fails was laid down to fail, and touches nothing, or was stopped by a row. -/
theorem tick_failed {w v : World} {f : Fault} (free : w.memory.locked = false)
    (aware : w.memory.cooldowns.Aware) (h : tick.run.run w = (.error f, v)) :
    (w.consult .tick).1 ≠ none ∧ w.Untouched v
      ∨ (w.consult .tick).1 = none ∧ (w.consult .enabledRules).1 = none
        ∧ (∃ row ∈ w.books.enabledRows, row.Raises)
        ∧ v.memory.tally.ticks = w.memory.tally.ticks + 1 := by
  cases begins : (w.consult .tick).1 with
  | some g =>
    refine .inl ⟨nofun, ?_⟩
    cases h.symm.trans (tick_refused begins)
    exact w.untouched_consult .tick
  | none =>
    obtain ⟨r, b', turn, hr, -⟩ := tick_turn w
    rw [h] at hr
    cases turn with
    | refused fails => simp [begins] at fails
    | skipped busy => simp [free] at busy
    | unloaded => cases hr
    | served load serve =>
      by_cases stopped : ∃ row ∈ w.books.enabledRows, row.Raises
      · obtain ⟨row, mem, raises⟩ := stopped
        obtain ⟨g, t, n, hrun⟩ := tick_raises free begins load mem raises
        cases h.symm.trans hrun
        exact .inr ⟨rfl, load, ⟨row, mem, raises⟩, rfl⟩
      · obtain ⟨rules, reports, rfl, -⟩ :=
          serve.attended aware fun row mem raises => stopped ⟨row, mem, raises⟩
        cases hr

end Engine

namespace Service

open Handling

namespace Handling

theorem idle_valid {α : Type} (x : Checked α) : Idle (valid x) := by
  cases x with
  | ok a => exact .pure a
  | flawed is => exact .throw _
  | broken e => exact .throw _

theorem idle_present {α : Type} (o : Option α) : Idle (present o) := by
  cases o with
  | some a => exact .pure a
  | none => exact .throw _

theorem idle_fit {α : Type} (o : Option α) : Idle (fit o) := by
  cases o with
  | some a => exact .pure a
  | none => exact .throw _

theorem idle_fetch {α : Type} (c : Contact) (f : Store → Except Fault α) :
    Idle (work (Work.fetch c f)) :=
  Idle.mapError (Work.Reads.fetch c f)

theorem idle_findRule (id : Int) : Idle (findRule id) :=
  .bind (idle_fetch _ _) idle_present

theorem idle_ok (d : Doc) : Idle (ok d) := .pure _

theorem sure_ok (d : Doc) (w : World) : Sure w (ok d) := ⟨_, rfl⟩

end Handling

/-! ## Handlers that only read -/

theorem idle_listRules (c : Call) : Idle (listRules c) :=
  .bind (idle_valid _) fun _ => .bind (idle_fetch _ _) fun _ =>
    .bind (.mapM (fun _ => idle_fit _) _) fun _ => idle_ok _

theorem idle_testConditions (b : Option Doc) : Idle (testConditions b) :=
  .bind (idle_valid _) fun d => .bind (Engine.idle_testDoc d).mapError fun _ => idle_ok _

theorem idle_showRule (id : String) : Idle (showRule id) :=
  .bind (idle_valid _) fun n => .bind (idle_findRule n) fun _ =>
    .bind (idle_fit _) fun _ => idle_ok _

theorem idle_executions (c : Call) (id : String) : Idle (executions c id) :=
  .bind (idle_valid _) fun _ => .bind (idle_findRule _) fun _ => .bind (idle_fetch _ _) fun _ =>
    .bind (.mapM (fun _ => idle_fit _) _) fun _ => idle_ok _

theorem idle_stats (c : Call) (id : String) : Idle (stats c id) := by
  refine .bind (idle_valid _) fun _ => .bind (idle_findRule _) fun _ => .bind (.look _) fun _ => ?_
  have hrest : ∀ n start stop, Idle (do
      let s ← work (.fetch .stats (·.stats n start stop))
      ok (s.toDoc fun i => .str (Moment.ofInstant i).textZ)) :=
    fun _ _ _ => .bind (idle_fetch _ _) fun _ => idle_ok _
  split
  · exact .bind (.pure _) fun start => hrest _ start _
  · exact .bind (Idle.mapError fun w => .refl w) fun start => hrest _ start _

theorem idle_status : Idle status := .bind (.look _) fun _ => idle_ok _

/-! ## Handlers that write -/

theorem isTable_leaf (l : Leaf) : isTable l.toDoc = true := by
  cases l <;> rfl

theorem isTable_condition (c : Condition) : isTable c.toDoc = true := by
  cases c with
  | leaf l => exact isTable_leaf l
  | _ => rfl

theorem isTables_actions (as : List Action) : isTables (Action.listToDoc as) = true := by
  show (as.map Action.toDoc).all isTable = true
  rw [List.all_map, List.all_eq_true]
  intro a _
  cases a <;> rfl

/-- Whether a row has the form of an answer depends on its conditions and actions. -/
theorem ruleView_eq_none {r : RuleRow} :
    ruleView? r = none ↔ (isTable r.conditions && isTables r.actions) = false := by
  unfold ruleView?
  cases isTable r.conditions && isTables r.actions <;> simp

/-- The row of a definition has the form of an answer. -/
theorem ruleView_ofDefinition (id : Int) (d : Definition) :
    ruleView? (.ofDefinition id d) = some (RuleRow.ofDefinition id d).toDoc := by
  unfold ruleView?
  rw [if_pos]
  rw [Bool.and_eq_true]
  exact ⟨isTable_condition d.conditions, isTables_actions d.actions⟩

/-- A call to the store in a handler that has succeeded has done its work. -/
theorem work_store_eq_ok {α : Type} {c : Contact} {f : Store → Except Fault (α × Store)}
    {w v : World} {a : α} (h : (work (Work.store c f)).run.run w = (.ok a, v)) :
    ∃ s, f w.store = .ok (a, s) ∧ World.Untouched { w with store := s } v := by
  have hrun := run_mapError Obstacle.failed (Work.store c f) w
  rw [Work.run_store] at hrun
  replace h := hrun.symm.trans h
  rcases w.callStore_cases c f with ⟨b, s, -, hs, hb, hv⟩ | ⟨⟨e, he⟩, -, -⟩
  · rw [hb] at h
    cases h
    exact ⟨s, hs, hv⟩
  · rw [he] at h
    cases h

theorem firm_createRule (b : Option Doc) (w : World) : Firm w (createRule b) := by
  refine .after_idle (idle_valid _) fun draft v _ _ => .after_idle ?_ fun d u _ _ => ?_
  · exact Idle.mapError fun w => .refl w
  refine .before_sure (firm_store .createRule _ u).mapError fun row x hrow => ?_
  obtain ⟨s, hs, -⟩ := work_store_eq_ok hrow
  obtain ⟨rfl, -, -⟩ := Store.createRule_eq_ok hs
  rw [ruleView_ofDefinition]
  exact ⟨_, rfl⟩

theorem firm_setRules (b : Option Doc) (on : Bool) (w : World) : Firm w (setRules b on) :=
  .after_idle (idle_valid _) fun _ v _ _ =>
    .before_sure (firm_store .setAllEnabled _ v).mapError fun _ u _ => sure_ok _ u

theorem firm_deleteRule (id : String) (w : World) : Firm w (deleteRule id) := by
  refine .after_idle (idle_valid _) fun n v _ _ e u h => ?_
  rw [Work.run_bind] at h
  rcases hr : (work (.store .deleteRule (·.deleteRule n))).run.run v with ⟨r, x⟩
  rw [hr] at h
  cases r with
  | error e =>
    cases h
    exact (firm_store .deleteRule (·.deleteRule n) v).mapError _ _ hr
  | ok there =>
    obtain ⟨s, hs, hx⟩ := work_store_eq_ok hr
    rcases Store.deleteRule_eq_ok hs with ⟨rfl, -⟩ | ⟨rfl, rfl⟩
    · cases h
    · cases h
      exact hx

theorem firm_trigger (b : Option Doc) (id : String) {w : World} (free : w.memory.locked = false)
    (aware : w.memory.cooldowns.Aware) : Firm w (trigger b id) := by
  refine .after_idle (idle_valid _) fun p v _ hv => ?_
  refine .before_sure (Firm.mapError (Engine.firm_trigger ?_ ?_ p.1 p.2)) fun _ u _ => sure_ok _ u
  · rw [hv.memory_eq]
    exact free
  · rw [hv.memory_eq]
    exact aware

theorem sure_andStatus (p : Activity Unit) (w : World) : Sure w (andStatus p) := by
  unfold andStatus status
  rw [Sure, Work.run_bind, Work.run_lift]
  simp only [Work.run_bind, Work.run_lift]
  exact sure_ok _ _

/-! ## Calls that slip -/

/-- What is done before it turns out that it cannot be answered. -/
inductive Slip (w : World) : Route → Prop
  /-- A rule is switched whose row has no form for an answer. -/
  | switched {id : String} {on : Bool} {n : Int} {row : RuleRow} (number : ruleNumber id = .ok n)
      (works : (w.consult .setEnabled).1 = none) (stored : w.store.findRule n = .ok (some row))
      (formless : ruleView? row = none) (turned : row.enabled ≠ on) : Slip w (.setRule id on)
  /-- A tick that was counted is stopped by a row. -/
  | stopped {row : RuleRow} (begins : (w.consult .tick).1 = none)
      (load : (w.consult .enabledRules).1 = none) (mem : row ∈ w.books.enabledRows)
      (raises : row.Raises) : Slip w .tick

/-- What a failure leaves behind: another store or another memory if there was a slip,
and otherwise the world as it was. -/
structure Failed (slip : Prop) (w v : World) : Prop where
  changed : slip → v.store ≠ w.store ∨ v.memory ≠ w.memory
  untouched : ¬ slip → w.Untouched v

theorem Failed.of_untouched {slip : Prop} {w v : World} (h : w.Untouched v) (sound : ¬ slip) :
    Failed slip w v :=
  ⟨fun slips => absurd slips sound, fun _ => h⟩

theorem tick_handler_failed {w v : World} {o : Obstacle} (free : w.memory.locked = false)
    (aware : w.memory.cooldowns.Aware) (h : tick.run.run w = (.error o, v)) :
    Failed (Slip w .tick) w v := by
  have hticks : ∃ f, Engine.tick.run.run w = (.error f, v) := by
    unfold tick Scheduler.tickNow at h
    rw [Work.run_bind, work, run_mapError, Work.run_bind] at h
    rcases hr : Engine.tick.run.run w with ⟨f | s, u⟩
    · rw [hr] at h
      cases h
      exact ⟨f, rfl⟩
    · rw [hr] at h
      simp only [Work.run_bind, Work.run_lift] at h
      cases h
  obtain ⟨f, hf⟩ := hticks
  rcases Engine.tick_failed free aware hf with
    ⟨refused, hv⟩ | ⟨begins, load, ⟨row, mem, raises⟩, hv⟩
  · refine .of_untouched hv fun slip => ?_
    cases slip with
    | stopped begins => exact refused begins
  · refine ⟨fun _ => .inr fun hmem => ?_, fun calm => absurd (.stopped begins load mem raises) calm⟩
    rw [hmem] at hv
    omega

/-- A handler fails at its first reading, with nothing touched, or after it. -/
theorem failed_of_valid {α β : Type} {x : Checked α} {f : α → Handling β} {w v : World}
    {o : Obstacle} (h : (valid x >>= f).run.run w = (.error o, v)) :
    ((∀ a, x ≠ .ok a) ∧ v = w) ∨ ∃ a, x = .ok a ∧ (f a).run.run w = (.error o, v) := by
  rw [Work.run_bind] at h
  cases x with
  | ok a => exact .inr ⟨a, rfl, h⟩
  | flawed is =>
    cases h
    exact .inl ⟨nofun, rfl⟩
  | broken e =>
    cases h
    exact .inl ⟨nofun, rfl⟩

/-- A rule is switched before its row is found to be missing or without form. -/
theorem setRule_failed {w v : World} {o : Obstacle} {id : String} {on : Bool}
    (distinct : w.books.ids.Nodup) (h : (setRule id on).run.run w = (.error o, v)) :
    Failed (Slip w (.setRule id on)) w v := by
  rcases failed_of_valid h with ⟨hn, rfl⟩ | ⟨n, hn, h⟩
  · refine .of_untouched (.refl v) fun slip => ?_
    cases slip with
    | switched number => exact hn _ number
  have hread : Slip w (.setRule id on) → (w.consult .setEnabled).1 = none
      ∧ ∃ row, w.store.findRule n = .ok (some row) ∧ ruleView? row = none ∧ row.enabled ≠ on := by
    rintro (⟨number, works, stored, formless, turned⟩)
    cases hn.symm.trans number
    exact ⟨works, _, stored, formless, turned⟩
  rw [Work.run_bind, work, run_mapError, Work.run_store] at h
  rcases w.callStore_cases .setEnabled (·.setEnabled n on) with
    ⟨found, s, works, hs, ha, hv⟩ | ⟨⟨e, he⟩, hv, hfault⟩
  · rw [ha] at h
    rw [Store.setEnabled_eq] at hs
    obtain ⟨old, hold, hs⟩ := map_eq_ok.1 hs
    obtain ⟨rfl, rfl⟩ := Prod.mk.inj hs
    have hrule := Store.findRule_eq_ok hold
    cases old with
    | none =>
      cases h
      rw [Store.updateRule_of_absent hrule] at hv
      refine .of_untouched hv fun slip => ?_
      obtain ⟨-, row, stored, -⟩ := hread slip
      cases hold.symm.trans stored
    | some row =>
      replace h : (fit (ruleView? (row.switched on)) >>= fun d => ok d).run.run
        (w.callStore .setEnabled (·.setEnabled n on)).2 = (.error o, v) := h
      cases hview : ruleView? (row.switched on) with
      | some d =>
        rw [hview] at h
        cases h
      | none =>
        rw [hview] at h
        cases h
        have formless : ruleView? row = none :=
          ruleView_eq_none.2 ((ruleView_eq_none (r := row.switched on)).1 hview)
        by_cases hon : row.enabled = on
        · subst hon
          rw [Store.updateRule_switched distinct hrule] at hv
          refine .of_untouched hv fun slip => ?_
          obtain ⟨-, _, stored, -, turned⟩ := hread slip
          cases hold.symm.trans stored
          exact turned rfl
        · refine ⟨fun _ => .inl fun hsame => ?_,
            fun sound => absurd (.switched hn works hold formless hon) sound⟩
          have hrow := Store.rule?_switched (s := w.store) (n := n) on
          have hstore := hv.store_eq.symm.trans hsame
          rw [show w.store.updateRule n (RuleRow.switched on) = w.store from hstore, hrule] at hrow
          exact hon (congrArg RuleRow.enabled (Option.some.inj hrow))
  · rw [he] at h
    cases h
    refine .of_untouched hv fun slip => ?_
    obtain ⟨works, row, stored, -⟩ := hread slip
    obtain ⟨f, hf⟩ := hfault works
    rw [Store.setEnabled_eq, stored] at hf
    cases hf

/-- A handler that fails has slipped, or has touched nothing. -/
theorem handle_failed {w v : World} {c : Call} {b : Option Doc} {r : Route} {o : Obstacle}
    (free : w.memory.locked = false) (aware : w.memory.cooldowns.Aware)
    (distinct : w.books.ids.Nodup) (h : (handle c b r).run.run w = (.error o, v)) :
    Failed (Slip w r) w v := by
  cases r with
  | setRule id on => exact setRule_failed distinct h
  | tick => exact tick_handler_failed free aware h
  | start | stop =>
    obtain ⟨a, ha⟩ := sure_andStatus _ w
    cases (congrArg Prod.fst h).symm.trans ha
  | health => cases h
  | status => exact .of_untouched (idle_status.firm w _ _ h) nofun
  | listRules => exact .of_untouched ((idle_listRules c).firm w _ _ h) nofun
  | testConditions => exact .of_untouched ((idle_testConditions b).firm w _ _ h) nofun
  | rule id => exact .of_untouched ((idle_showRule id).firm w _ _ h) nofun
  | executions id => exact .of_untouched ((idle_executions c id).firm w _ _ h) nofun
  | stats id => exact .of_untouched ((idle_stats c id).firm w _ _ h) nofun
  | createRule => exact .of_untouched (firm_createRule b w _ _ h) nofun
  | setRules on => exact .of_untouched (firm_setRules b on w _ _ h) nofun
  | deleteRule id => exact .of_untouched (firm_deleteRule id w _ _ h) nofun
  | trigger id => exact .of_untouched (firm_trigger b id free aware _ _ h) nofun

/-! ## Answers -/

/-- Whether an answer tells of a success. -/
def Answer.succeeds (a : Answer) : Bool := decide (200 ≤ a.status) && decide (a.status < 300)

/-- A handler whose own answers all tell of a success. -/
def OnlySuccess (x : Handling Answer) : Prop :=
  ∀ w a v, x.run.run w = (.ok a, v) → a.succeeds = true

namespace OnlySuccess

theorem bind {α : Type} {x : Handling α} {f : α → Handling Answer} (hf : ∀ a, OnlySuccess (f a)) :
    OnlySuccess (x >>= f) := by
  intro w a v h
  rw [Work.run_bind] at h
  rcases hr : x.run.run w with ⟨e | b, u⟩
  · rw [hr] at h
    cases h
  · rw [hr] at h
    exact hf b u a v h

theorem ok (d : Doc) : OnlySuccess (ok d) := by
  intro w a v h
  cases h
  rfl

theorem throw (o : Obstacle) : OnlySuccess (throw o) := by
  intro w a v h
  cases h

theorem andStatus (p : Activity Unit) : OnlySuccess (andStatus p) :=
  .bind fun _ => .bind fun _ => .ok _

/-- The answers of handlers tell of a success; all others come from obstacles. -/
theorem handle (c : Call) (b : Option Doc) (r : Route) : OnlySuccess (handle c b r) := by
  cases r with
  | health => exact .ok _
  | status => exact .bind fun _ => .ok _
  | start | stop => exact .andStatus _
  | tick => exact .bind fun _ => .ok _
  | setRules on | testConditions | trigger id => exact .bind fun _ => .bind fun _ => .ok _
  | listRules | rule id => exact .bind fun _ => .bind fun _ => .bind fun _ => .ok _
  | setRule id on => exact .bind fun _ => .bind fun _ => .bind fun _ => .bind fun _ => .ok _
  | executions id => exact .bind fun _ => .bind fun _ => .bind fun _ => .bind fun _ => .ok _
  | createRule =>
    refine .bind fun _ => .bind fun _ => .bind fun _ => .bind fun _ => fun w a v h => ?_
    cases h
    rfl
  | deleteRule id =>
    refine .bind fun _ => .bind fun there => ?_
    cases there with
    | true => exact .ok _
    | false => exact .throw _
  | stats id =>
    refine .bind fun _ => .bind fun _ => .bind fun _ => ?_
    split
    · exact .bind fun _ => .bind fun _ => .ok _
    · exact .bind fun _ => .bind fun _ => .ok _

end OnlySuccess

/-! ## Calls -/

/-- A call that does something before it fails. -/
def Call.Slips (c : Call) (w : World) : Prop := ∃ r, Route.ofCall c = .ok r ∧ Slip w r

/-- A call is answered at once, or by a handler. -/
theorem respond_cases (c : Call) (w : World) :
    (((respond c).run w).2 = w ∧ ∀ r, Route.ofCall c = .ok r → r.takesBody = true)
      ∨ ∃ r b, Route.ofCall c = .ok r
        ∧ ((respond c).run w).1 = (match ((handle c b r).run.run w).1 with
          | .ok a => a
          | .error o => o.answer)
        ∧ ((respond c).run w).2 = ((handle c b r).run.run w).2 := by
  unfold respond
  cases hr : Route.ofCall c with
  | error a => exact .inl ⟨rfl, nofun⟩
  | ok r =>
    cases hb : document c r with
    | error o =>
      refine .inl ⟨by simp only [hb]; rfl, fun r' hr' => ?_⟩
      cases hr'
      unfold document at hb
      split at hb
      · assumption
      · cases hb
    | ok b =>
      refine .inr ⟨r, b, rfl, ?_⟩
      simp only [hb, run_bind']
      rcases (handle c b r).run.run w with ⟨o | a, v⟩
      · exact ⟨rfl, rfl⟩
      · exact ⟨rfl, rfl⟩

/-- A call that fails has slipped, or has touched nothing. -/
theorem respond_failed {w : World} {c : Call} (free : w.memory.locked = false)
    (aware : w.memory.cooldowns.Aware) (distinct : w.books.ids.Nodup)
    (fails : ((respond c).run w).1.succeeds = false) :
    Failed (c.Slips w) w ((respond c).run w).2 := by
  rcases respond_cases c w with ⟨hw, hbody⟩ | ⟨r, b, hr, ha, hv⟩
  · rw [hw]
    refine .of_untouched (.refl w) ?_
    rintro ⟨r, hr, slip⟩
    have htakes := hbody r hr
    cases slip with
    | switched | stopped => cases htakes
  · have hslips : c.Slips w ↔ Slip w r := by
      constructor
      · rintro ⟨r', hr', slip⟩
        cases hr.symm.trans hr'
        exact slip
      · exact fun slip => ⟨r, hr, slip⟩
    rw [hslips, hv]
    rcases hx : (handle c b r).run.run w with ⟨o | a, v⟩
    · exact handle_failed free aware distinct hx
    · rw [hx] at ha
      rw [ha, OnlySuccess.handle c b r w a v hx] at fails
      cases fails

end Service

end Glasshouse
