/-
Glasshouse.Proofs.Service.Listing — the order in which rules are listed, and the order in
which a tick looks at them. The first comes from the stored rows alone: by
priority, then by number. The second also comes from the tick before: among equal
priorities rules keep the places that they had then, and rules that were not
there come last. Main statement: `listing_shows_order_iff`, which tells when the
two orders are the same.

Side conditions of the main statement. The service began without a remembered order,
with rows that authoring stores (`Books.Regular`), and is now asked while nobody waits
for the lock and no call that is needed is laid down to fail. The statement is about
enabled rules: others are listed and not looked at.
-/
import Glasshouse.Proofs.Service.Calls
import Glasshouse.Proofs.Engine.Sorting

namespace Glasshouse

open Calendar Plan

/-! ## Listed rows -/

namespace Books

/-- The rules of the listing stand by priority, then by number. -/
theorem built_pairwise (b : Books) : b.built.Pairwise fun p q =>
    p.priority < q.priority ∨ p.priority = q.priority ∧ p.id ≤ q.id := by
  have hrows : b.enabledRows.Pairwise fun r s => r.before s = true :=
    (List.pairwise_mergeSort RuleRow.before_trans RuleRow.before_total _).filter _
  refine hrows.filterMap RuleRow.rule? fun r s hrs p hp q hq => ?_
  rw [RuleRow.rule?_eq_some] at hp hq
  rw [(RuleRow.isOf_of_toRule hp).id, (RuleRow.isOf_of_toRule hq).id,
    RuleRow.priority_of_toRule hp, RuleRow.priority_of_toRule hq]
  simpa only [RuleRow.before, Bool.or_eq_true, decide_eq_true_eq, Bool.and_eq_true,
    beq_iff_eq] using hrs

theorem enabledRows_eq (b : Books) :
    b.enabledRows = (b.rules.insertionSort fun r s => r.before s = true).filter (·.enabled) := by
  rw [enabledRows,
    Sorting.mergeSort_eq_insertionSort RuleRow.before_trans RuleRow.before_total]

/-- Rules are listed as they are put in order from remembered places exactly if among equal
priorities those places go the same way. -/
theorem sort_built_iff (b : Books) {ids : List Int} (nodup : ids.Nodup) :
    (RuleOrder.sort ⟨RuleOrder.placesOf ids⟩ b.built).1 = b.built ↔
      b.built.Pairwise fun p q => p.priority = q.priority → ids.idxOf p.id ≤ ids.idxOf q.id := by
  rw [RuleOrder.sort_eq_self_iff]
  have hbuilt := b.built_pairwise
  constructor
  · intro h
    refine (hbuilt.and h).imp fun {p q} hpq heq => ?_
    rcases (RuleOrder.before_iff nodup _ _ _).1 hpq.2 with hlt | ⟨-, hle⟩
    · exact absurd heq (Int.ne_of_lt hlt)
    · exact hle
  · intro h
    refine (hbuilt.and h).imp fun {p q} hpq => (RuleOrder.before_iff nodup _ _ _).2 ?_
    rcases hpq.1 with hlt | ⟨heq, -⟩
    · exact .inl hlt
    · exact .inr ⟨heq, hpq.2 heq⟩

end Books

namespace Service

/-- The call that asks for the enabled rules. -/
def Call.listing : Call := { method := "GET", place := ["api", "rules"], query := [("enabled", "true")] }

theorem run_mapM_fit {rows : List RuleRow} (form : ∀ r ∈ rows, ruleView? r ≠ none) (w : World) :
    (rows.mapM fun r => Handling.fit (ruleView? r)).run.run w
      = (.ok (rows.map RuleRow.toDoc), w) := by
  induction rows with
  | nil => rfl
  | cons r rows ih =>
    have hview : ruleView? r = some r.toDoc := by
      have hr := form r (List.mem_cons_self ..)
      unfold ruleView? at hr ⊢
      split at hr
      · rw [if_pos ‹_›]
      · exact absurd rfl hr
    have hone : (Handling.fit (ruleView? r)).run.run w = (.ok r.toDoc, w) := by
      rw [hview]
      rfl
    rw [List.mapM_cons, Work.run_bind, hone]
    simp only
    rw [Work.run_bind, ih fun s hs => form s (List.mem_cons_of_mem _ hs)]
    rfl

/-- Where all rows have the form of an answer, the listing holds the enabled ones, by
priority and number. -/
theorem respond_listing {w : World} (form : ∀ r ∈ w.books.rules, ruleView? r ≠ none)
    (lists : (w.consult .allRules).1 = none) :
    ((respond .listing).run w).1
      = .ofDoc 200 (finite (.list (w.books.enabledRows.map RuleRow.toDoc))) := by
  have hroute : Route.ofCall .listing = .ok .listRules := rfl
  have hrules : (w.consult .allRules).2.store.rules = w.store.rules :=
    congrArg Books.rules (World.books_consult .allRules w)
  have hchosen : w.store.allRules.filter (fun r => (some true).all (r.enabled == ·))
      = w.books.enabledRows := by
    simp [Store.allRules, Books.enabledRows, World.books]
  have hhandle : ((handle .listing none .listRules).run.run w).1
      = .ok (.ofDoc 200 (finite (.list (w.books.enabledRows.map RuleRow.toDoc)))) := by
    have hparameter : parameter Call.listing "enabled" none (fun s => some <$> Schema.truth (.str s))
        = .ok (some true) := rfl
    have hwork : (Handling.work (.fetch .allRules fun s => .ok s.allRules)).run.run w
        = (.ok w.store.allRules, (w.consult .allRules).2) := by
      unfold Handling.work
      rw [run_mapError, Work.run_fetch]
      rcases hc : w.consult .allRules with ⟨_ | f, v⟩
      · rw [hc] at hrules
        have hall : v.store.allRules = w.store.allRules := congrArg (List.mergeSort · _) hrules
        simp only [Except.mapError, hall]
      · rw [hc] at lists
        cases lists
    show ((listRules .listing).run.run w).1 = _
    unfold listRules
    rw [hparameter, Work.run_bind]
    simp only [Handling.valid, Work.run_pure]
    rw [Work.run_bind, hwork]
    simp only [hchosen]
    rw [Work.run_bind, run_mapM_fit fun r hr => form r (Books.mem_of_enabledRows hr)]
    rfl
  unfold respond
  simp only [hroute, document, Route.takesBody, Bool.false_eq_true, if_false, run_bind']
  rcases hr : (handle .listing none .listRules).run.run w with ⟨o | a, v⟩
  · rw [hr] at hhandle
    cases hhandle
  · rw [hr] at hhandle
    cases hhandle
    rfl

end Service

/-! ## The remembered order -/

/-- An activity that leaves the remembered order as it is. -/
def Plan.Orderly {α : Type} (p : Activity α) : Prop :=
  ∀ w : World, (p.run w).2.memory.order = w.memory.order

namespace Plan.Orderly

variable {ε α β : Type}

protected theorem pure (a : α) : Orderly (pure a : Activity α) := fun _ => rfl

protected theorem bind {p : Activity α} {k : α → Activity β} (hp : Orderly p)
    (hk : ∀ a, Orderly (k a)) : Orderly (p >>= k) := by
  intro w
  rw [run_bind']
  exact (hk _ _).trans (hp w)

protected theorem lift {p : Activity α} (hp : Orderly p) :
    Orderly (ExceptT.lift p : ExceptT ε Activity α).run := by
  intro w
  rw [Work.run_lift]
  exact hp w

/-- A sequence that may stop at a fault. -/
protected theorem seq {x : ExceptT ε Activity α} {f : α → ExceptT ε Activity β}
    (hx : Orderly x.run) (hf : ∀ a, Orderly (f a).run) : Orderly (x >>= f).run := by
  intro w
  have hw := hx w
  rw [Work.run_bind]
  rcases hr : x.run.run w with ⟨e | a, v⟩
  · rw [hr] at hw
    exact hw
  · rw [hr] at hw
    exact (hf a v).trans hw

theorem of_apart {p : Activity α} (hp : World.Apart p) : Orderly p :=
  fun w => congrArg (fun i : Interior => i.memory.order) (hp.interior_eq w)

theorem store (c : Contact) (f : Store → Except Fault (α × Store)) :
    Orderly (Work.store c f).run := fun w => congrArg Memory.order (w.memory_callStore c f)

end Plan.Orderly

namespace Engine

variable {α : Type}

theorem orderly_keep {x : Work α} (hx : Plan.Orderly x.run) : Plan.Orderly (keep x) := by
  intro w
  have hw := hx w
  rw [run_keep]
  rcases hr : x.run.run w with ⟨e | a, v⟩
  · rw [hr] at hw
    exact hw
  · rw [hr] at hw
    exact hw

theorem orderly_count (f : Tally → Tally) : Plan.Orderly (count f) := fun _ => rfl

theorem orderly_record (x : Execution) : Plan.Orderly (record x) := orderly_keep (.store _ _)

theorem orderly_fire (rule : Rule) (now : Moment) (e : Evaluation) (s : Snapshot) :
    Plan.Orderly (fire rule now e s).run := by
  have hmark : Plan.Orderly (markTriggered rule now).run := by
    refine .seq (fun w => ?_) fun p => .seq (.lift (orderly_keep (.store _ _))) fun _ =>
      .seq (.lift (orderly_count _)) fun _ => .pure _
    simp only [Work.run_mk, run_change]
    split <;> rfl
  have hfailure : Plan.Orderly countFailure.run := .seq (.lift (orderly_count _)) fun _ => .pure _
  refine .seq (.of_apart (apart_dispatch _ _)) fun outcomes => ?_
  simp only
  split
  · exact .seq hmark fun _ => .seq (.lift (orderly_record _)) fun _ =>
      .seq (.lift fun _ => rfl) fun _ => .pure _
  · exact .seq hfailure fun _ => .seq (.lift (orderly_record _)) fun _ =>
      .seq (.lift fun _ => rfl) fun _ => .pure _

theorem orderly_suppress (rule : Rule) (now : Moment) (e : Evaluation) (s : Snapshot) :
    Plan.Orderly (suppress rule now e s).run :=
  .seq (.lift (orderly_count _)) fun _ => .seq (.lift fun _ => rfl) fun _ =>
    .seq (fun _ => rfl) fun _ => .seq (.lift (orderly_record _)) fun _ => .pure _

theorem orderly_respond (rule : Rule) (now : Moment) (bypass : Bool) (e : Evaluation)
    (s : Snapshot) : Plan.Orderly (respond rule now bypass e s).run := by
  unfold respond
  cases bypass with
  | true => exact orderly_fire rule now e s
  | false =>
    refine .seq (.seq (.lift fun _ => rfl) fun _ => fun _ => rfl) fun may => ?_
    cases may with
    | true => exact orderly_fire rule now e s
    | false => exact orderly_suppress rule now e s

/-- Looking at a rule leaves the remembered order as it is. -/
theorem orderly_processRule (rule : Rule) (now : Moment) (bypass force : Bool) :
    Plan.Orderly (processRule rule now bypass force) := by
  have hfault : ∀ judged f, Plan.Orderly (recordFault rule now judged f) := fun judged f =>
    .bind (orderly_count _) fun _ => .bind (orderly_record _) fun _ => .pure _
  refine .bind (orderly_count _) fun _ => .bind (.of_apart (apart_evaluate _ _)) fun r => ?_
  rcases r with f | ⟨e, s⟩
  · exact hfault none f
  · simp only
    split
    · exact .pure _
    · refine .bind (orderly_respond rule now bypass e s) fun r => ?_
      cases r with
      | ok r => exact .pure r
      | error f => exact hfault _ f

theorem orderly_processAll (now : Moment) (rules : List Rule) :
    Plan.Orderly (processAll now rules) := by
  induction rules with
  | nil => exact .pure _
  | cons rule rules ih =>
    exact .bind (orderly_processRule rule now false false) fun _ => .bind ih fun _ => .pure _

end Engine

/-- The rules that a tick looked at, by number and in its order; what was known before if
the entry tells of no tick. -/
def Entry.arranges (ids : List Int) : Entry → List Int
  | .loaded rules => rules.map (·.id)
  | _ => ids

/-- The rules, by number, that the last tick of a log looked at, in its order. -/
def lastOrder (log : List Entry) : List Int := log.foldl Entry.arranges []

/-- Between two worlds the remembered order has become that of the last tick told of. -/
def World.Arranged (w : World) (told : List Entry) (v : World) : Prop :=
  ∀ ids, w.memory.order = ⟨RuleOrder.placesOf ids⟩ →
    v.memory.order = ⟨RuleOrder.placesOf (told.foldl Entry.arranges ids)⟩

theorem World.Arranged.of_eq {w v : World} (h : v.memory.order = w.memory.order) :
    w.Arranged [] v := fun _ hw => h.trans hw

theorem Round.arranges_done (now : Moment) (rules : List Rule) (reports : List Report)
    (ids : List Int) :
    (Round.entries (some (.done now rules reports))).foldl Entry.arranges ids
      = rules.map (·.id) := by
  have hlooked : ∀ ids', (reports.map (.looked true)).foldl Entry.arranges ids' = ids' := by
    intro ids'
    induction reports with
    | nil => rfl
    | cons r reports ih => exact ih
  exact hlooked _

namespace Engine

theorem tickWith_arranged (now : Moment) (rows : List RuleRow) (w : World) :
    w.Arranged (told Round.entries (((tickWith now rows).run.run w).1.map some))
      ((tickWith now rows).run.run w).2 := by
  rw [tickWith_eq]
  rcases sift rows with ⟨f | rules, n⟩
  · exact .of_eq rfl
  · dsimp only
    rcases w.memory.cooldowns.refresh rules with ⟨f | _, c⟩
    · exact .of_eq rfl
    · intro ids _
      simp only [Except.map, told, Round.arranges_done]
      exact orderly_processAll _ _ _

theorem tickLocked_arranged (w : World) :
    w.Arranged (told Round.entries ((tickLocked.run.run w).1.map some))
      (tickLocked.run.run w).2 := by
  have horder : (w.ticked.consult .enabledRules).2.memory.order = w.memory.order := by
    rw [(w.ticked.untouched_consult .enabledRules).memory_eq]
    rfl
  rw [tickLocked_eq]
  rcases hc : w.ticked.consult .enabledRules with ⟨_ | f, u⟩
  · rw [hc] at horder
    exact fun ids hw => tickWith_arranged _ _ u ids (horder.trans hw)
  · rw [hc] at horder
    exact .of_eq horder

/-- After a tick the remembered order is that in which it looked at rules, if it did. -/
theorem round_arranged (w : World) :
    w.Arranged (told Round.entries (Engine.round.run.run w).1) (Engine.round.run.run w).2 := by
  have hw : (w.consult .tick).2.memory.order = w.memory.order := by
    rw [(w.untouched_consult .tick).memory_eq]
  rw [round_eq]
  rcases hc : w.consult .tick with ⟨_ | f, v⟩
  · rw [hc] at hw
    dsimp only
    cases v.memory.locked with
    | true => exact .of_eq hw
    | false => exact fun ids ho => tickLocked_arranged v.locking ids (hw.trans ho)
  · rw [hc] at hw
    exact .of_eq hw

theorem orderly_load (id : Int) : Plan.Orderly (load id).run :=
  fun w => by rw [(idle_load id w).memory_eq]

theorem orderly_awaitLock : Plan.Orderly (Plan.awaitLock : Activity Unit) := by
  intro w
  unfold awaitLock
  simp only [Plan.run]
  split
  · exact congrArg (fun i : Interior => i.memory.order) (World.interior_elapse _ w)
  · rfl

theorem orderly_locked {α : Type} {p : Activity α} (hp : Plan.Orderly p) :
    Plan.Orderly (locked p) := .bind (fun _ => rfl) fun _ => .bind hp fun _ =>
  .bind (fun _ => rfl) fun _ => .pure _

theorem orderly_triggerLocked (rule : Rule) (force : Bool) :
    Plan.Orderly (triggerLocked rule force).run :=
  .seq (fun _ => rfl) fun _ => .seq (.lift fun _ => rfl) fun _ =>
    .lift (orderly_processRule _ _ _ _)

theorem orderly_trigger (id : Int) (force : Bool) : Plan.Orderly (trigger id force).run := by
  refine .seq (orderly_load id) fun rule => .seq (.lift orderly_awaitLock) fun _ =>
    .seq (.lift (orderly_locked (orderly_triggerLocked rule force))) fun r => fun _ => rfl

end Engine

/-- Whatever happens, the remembered order is that of the last tick told of. -/
theorem step_arranged (h : Happening) (s : Scene) :
    s.world.Arranged (h.step s).1 (h.step s).2.world := by
  have hquiet : ∀ {es : List Entry} {v : World}, v.memory.order = s.world.memory.order →
      (∀ ids, es.foldl Entry.arranges ids = ids) → s.world.Arranged es v :=
    fun hv hes ids hw => by rw [hes, hv, hw]
  have htold : ∀ {ε α : Type} (f : α → List Entry) (x : Except ε α),
      (∀ a ids, (f a).foldl Entry.arranges ids = ids) →
      ∀ ids, (told f x).foldl Entry.arranges ids = ids := by
    intro ε α f x hf ids
    cases x with
    | ok a => exact hf a ids
    | error e => rfl
  have hstore : ∀ {α : Type} (c : Contact) (f : Store → Except Fault (α × Store)),
      (s.world.callStore c f).2.memory.order = s.world.memory.order :=
    fun c f => congrArg Memory.order (s.world.memory_callStore c f)
  cases h with
  | tick => exact Engine.round_arranged s.world
  | trigger id force =>
    exact hquiet (Engine.orderly_trigger id force s.world) (htold _ _ fun _ _ => rfl)
  | request id force =>
    have hload := Engine.orderly_load id s.world
    simp only [Happening.step]
    rcases hr : (Engine.load id).run.run s.world with ⟨e | rule, v⟩
    · rw [hr] at hload
      exact .of_eq hload
    · rw [hr] at hload
      exact .of_eq hload
  | grant =>
    simp only [Happening.step]
    cases s.waiting with
    | nil => exact .of_eq rfl
    | cons p rest =>
      exact hquiet (Engine.orderly_locked (Engine.orderly_triggerLocked p.1 p.2) s.world)
        (htold _ _ fun _ _ => rfl)
  | create d => exact hquiet (hstore .createRule (·.createRule d)) (htold _ _ fun _ _ => rfl)
  | delete id =>
    refine hquiet (hstore .deleteRule (·.deleteRule id)) (htold _ _ fun b _ => ?_)
    cases b with
    | true => rfl
    | false => rfl
  | switch id on => exact .of_eq (hstore .setEnabled (·.setEnabled id on))
  | switchAll ids on => exact .of_eq (hstore .setAllEnabled (·.setAllEnabled ids on))
  | around v => exact .of_eq rfl

theorem live_arranged (hs : List Happening) (s : Scene) :
    s.world.Arranged (live hs s).1 (live hs s).2.world := by
  induction hs generalizing s with
  | nil => exact .of_eq rfl
  | cons h hs ih =>
    intro ids hw
    rw [live_cons, List.foldl_append]
    exact ih _ _ (step_arranged h s ids hw)

/-! ## Histories that end in a listing -/

/-- What happens to a service leaves no trigger waiting. -/
theorem Happening.Served.waiting {h : Happening} (served : h.Served) (w : World) :
    (h.step ⟨w, []⟩).2.waiting = [] := by
  cases h with
  | request | grant => exact served.under.elim
  | _ => rfl

theorem live_leads {hs : List Happening} (served : ∀ h ∈ hs, h.Served) (w : World) :
    w.Leads (live hs ⟨w, []⟩).2.world := by
  induction hs generalizing w with
  | nil => exact .refl w
  | cons h hs ih =>
    have hh := served h (List.mem_cons_self ..)
    have hscene : (h.step ⟨w, []⟩).2 = ⟨(h.step ⟨w, []⟩).2.world, []⟩ :=
      congrArg (Scene.mk (h.step ⟨w, []⟩).2.world) (hh.waiting w)
    rw [live_cons, hscene]
    exact (hh.leads w).trans (ih (fun k hk => served k (List.mem_cons_of_mem _ hk)) _)

theorem foldl_arranges_cases (log : List Entry) (ids : List Int) :
    log.foldl Entry.arranges ids = ids ∨
      ∃ rules, .loaded rules ∈ log ∧ log.foldl Entry.arranges ids = rules.map (·.id) := by
  induction log generalizing ids with
  | nil => exact .inl rfl
  | cons e log ih =>
    rcases ih (Entry.arranges ids e) with hsame | ⟨rules, hmem, hrules⟩
    · cases e with
      | loaded rules => exact .inr ⟨rules, List.mem_cons_self .., hsame⟩
      | _ => exact .inl hsame
    · exact .inr ⟨rules, List.mem_cons_of_mem _ hmem, hrules⟩

/-- A tick looks at every rule once. -/
theorem Chain.lastOrder_nodup {T : Terms} {b b' : Books} {log : List Entry}
    (h : Chain T b log b') : (lastOrder log).Nodup := by
  rcases foldl_arranges_cases log [] with hnone | ⟨rules, hmem, hrules⟩
  · rw [lastOrder, hnone]
    exact List.nodup_nil
  · rw [lastOrder, hrules]
    obtain ⟨es, fs, rfl⟩ := List.append_of_mem hmem
    obtain ⟨_, _, -, stride, -⟩ := h.split
    cases stride with
    | load order rows nodup => exact (order.map _).nodup_iff.2 nodup

namespace Service

open Engine

/-- After whatever has happened to a service that began without a remembered order, the
listing of the enabled rules holds their rows by priority and number, and the next tick
looks at the rules that these rows hold, each once. It takes them as they are listed
exactly if, among rules of equal priority, the one that is listed first did not come later
in the last tick; what the last tick did not look at counts as having come last. -/
theorem listing_shows_order_iff {w u : World} (callable : w.Callable) (regular : w.books.Regular)
    (unordered : w.memory.order = {}) {hs : List Happening} (served : ∀ h ∈ hs, h.Served)
    {log : List Entry} (after : live hs ⟨w, []⟩ = (log, ⟨u, []⟩))
    (lists : (u.consult .allRules).1 = none) (begins : (u.consult .tick).1 = none)
    (loads : (u.consult .enabledRules).1 = none) :
    ((respond .listing).run u).1
        = .ofDoc 200 (finite (.list (u.books.enabledRows.map RuleRow.toDoc)))
      ∧ ∃ processed reports v,
        Engine.round.run.run u = (.ok (some (.done u.clock processed reports)), v)
        ∧ reports.map Report.ruleId = processed.map (·.id)
        ∧ processed.Perm u.books.built
        ∧ (processed = u.books.built ↔ u.books.built.Pairwise fun p q =>
            p.priority = q.priority →
              (lastOrder log).idxOf p.id ≤ (lastOrder log).idxOf q.id) := by
  have hleads := live_leads served w
  have harranged := live_arranged hs ⟨w, []⟩ [] unordered
  have hchain := live_chain Terms.changing_fair (fun h hh => (served h hh).under) callable.scene
  rw [after] at hleads harranged hchain
  have hu := hleads.callable callable
  have hregular := hleads.regular callable regular
  refine ⟨respond_listing (fun r hr => (hregular r hr).form) lists, ?_⟩
  obtain ⟨t, hrun⟩ := round_run hu.free begins loads hu.sane.aware
    fun row hrow => (hregular row (Books.mem_of_enabledRows hrow)).calm
  refine ⟨u.lined, _, _, hrun, (processAll_courses _ _ _).ruleIds,
    u.memory.order.sortBy_perm (fun r : Rule => r.id) (fun r => r.priority) _, ?_⟩
  have horder : u.memory.order = ⟨RuleOrder.placesOf (lastOrder log)⟩ := harranged
  rw [World.lined, horder]
  exact u.books.sort_built_iff hchain.lastOrder_nodup

/-- Of two rules of the same priority the first is switched off during a tick. -/
def away : List Happening :=
  [.create .vent, .create .vent, .switch 1 false, .tick, .switch 1 true]

theorem away_served : ∀ h ∈ away, h.Served := by
  have hlegible : Definition.vent.Legible := (Definition.legible_of_parse
    (d := .record [("name", .str "vent"), ("conditions", .list [])]) rfl).1
  intro h hh
  simp only [away, List.mem_cons, List.not_mem_nil, or_false] at hh
  rcases hh with rfl | rfl | rfl | rfl | rfl
  · exact ⟨trivial, fun _ h => by cases h; exact hlegible⟩
  · exact ⟨trivial, fun _ h => by cases h; exact hlegible⟩
  · exact ⟨trivial, nofun⟩
  · exact ⟨trivial, nofun⟩
  · exact ⟨trivial, nofun⟩

/-- Afterwards all calls work, the two rules are listed by number, and the last tick looked
at the second alone. -/
theorem live_away :
    (live away ⟨.quiet 0, []⟩).2.world.outages.length = 0
      ∧ (live away ⟨.quiet 0, []⟩).2.world.books.built.map (fun r => (r.id, r.priority))
        = [(1, 5), (2, 5)]
      ∧ lastOrder (live away ⟨.quiet 0, []⟩).1 = [2] := by
  simp only [Books.built, Books.enabledRows_eq, away, live, Happening.step, Engine.round, tickLocked,
    Store.enabledRules_eq, tickWith, arrange, RuleOrder.sort_eq]
  decide +kernel

/-- Once it is switched on again, the next tick does not take the two as they are listed. -/
theorem listing_shows_order_iff_away :
    ∃ processed reports v, Engine.round.run.run (live away ⟨.quiet 0, []⟩).2.world
        = (.ok (some (.done (live away ⟨.quiet 0, []⟩).2.world.clock processed reports)), v)
      ∧ processed ≠ (live away ⟨.quiet 0, []⟩).2.world.books.built := by
  obtain ⟨outages, built, last⟩ := live_away
  have callable : (World.quiet 0).Callable :=
    ⟨((World.quiet_fresh 0).sane (Moment.utc_ofInstant _).aware).books, rfl⟩
  have working : ∀ c, ((live away ⟨.quiet 0, []⟩).2.world.consult c).1 = none := by
    intro c
    rw [World.consult_fst, List.length_eq_zero_iff.1 outages]
    rfl
  have after : live away ⟨.quiet 0, []⟩
      = ((live away ⟨.quiet 0, []⟩).1, ⟨(live away ⟨.quiet 0, []⟩).2.world, []⟩) := rfl
  obtain ⟨-, processed, reports, v, hrun, -, -, hiff⟩ := listing_shows_order_iff callable
    (fun _ hr => by cases hr) rfl away_served after (working _) (working _) (working _)
  refine ⟨processed, reports, v, hrun, fun heq => ?_⟩
  have hpairs := hiff.1 heq
  rw [last] at hpairs
  have hnumbers : ((live away ⟨.quiet 0, []⟩).2.world.books.built.map fun r =>
      (r.id, r.priority)).Pairwise fun p q => p.2 = q.2 → [2].idxOf p.1 ≤ [2].idxOf q.1 :=
    List.pairwise_map.2 hpairs
  rw [built] at hnumbers
  revert hnumbers
  decide

/-- The listing has the first rule first, the next tick looks at it last. -/
theorem away_listed_first_looked_at_last :
    (live away ⟨.quiet 0, []⟩).2.world.books.built.map (·.id) = [1, 2]
      ∧ (match (Engine.round.run.run (live away ⟨.quiet 0, []⟩).2.world).1 with
          | .ok (some (.done _ rules _)) => rules.map (·.id)
          | _ => []) = [2, 1] := by
  simp only [Books.built, Books.enabledRows_eq, away, live, Happening.step, Engine.round, tickLocked,
    Store.enabledRules_eq, tickWith, arrange, RuleOrder.sort_eq]
  decide +kernel

end Service

end Glasshouse
