/-
Glasshouse.Proofs.Service.Calls — calls one after the other, with ticks of the schedule
and changes of everything around between them. Every call leaves a world in
which the next can be answered (`Callable`), and rows that no call slips on
(`Regular`): authoring stores no others. Main statement:
`failed_calls_change_nothing`, for the last call of every session.

Side condition of the main statement (`Session`): what calls, answers of other
machines and the rows at first write are characters. Half of a surrogate pair can be
stored among the values of an action and has no form in an answer, so a call that
stores one fails after it, a further way to slip that no row of this library has.
-/
import Glasshouse.Proofs.Rule.Authoring
import Glasshouse.Proofs.Service.Handling
import Glasshouse.Proofs.Engine.ReusedNumbers

namespace Glasshouse

open Calendar Plan

/-! ## Regular rows -/

/-- A row that has the form of an answer, and whose reading ends in no fault. -/
structure RuleRow.Regular (r : RuleRow) : Prop where
  form : Service.ruleView? r ≠ none
  calm : ¬ r.Raises

/-- Books with regular rows. -/
def Books.Regular (b : Books) : Prop := ∀ row ∈ b.rules, row.Regular

/-- A row with the conditions and actions of a regular row is regular. -/
theorem RuleRow.Regular.congr {r s : RuleRow} (h : r.Regular)
    (conditions : s.conditions = r.conditions) (actions : s.actions = r.actions) : s.Regular := by
  refine ⟨fun hs => h.form ?_, fun hs => h.calm ?_⟩
  · rw [Service.ruleView_eq_none] at hs ⊢
    rwa [← conditions, ← actions]
  · unfold RuleRow.Raises at hs ⊢
    rwa [← conditions, ← actions]

/-- The row of a definition that was accepted is regular. -/
theorem RuleRow.regular_ofDefinition {x : Definition} (h : x.Legible) (id : Int) :
    (ofDefinition id x).Regular := by
  refine ⟨by rw [Service.ruleView_ofDefinition]; nofun, fun raises => ?_⟩
  obtain ⟨f, hf⟩ := (faulty_toRule _).2 raises
  have hread := toRule_later h id x.enabled none 0
  rw [show (ofDefinition id x).later x.enabled none 0 = ofDefinition id x from rfl, hf] at hread
  split at hread
  · cases hread
  · cases hread

namespace Books.Regular

variable {b b' : Books}

theorem update (h : b.Regular) (id : Int) (f : RuleRow → RuleRow)
    (hf : ∀ r, (f r).conditions = r.conditions ∧ (f r).actions = r.actions) :
    (b.update id f).Regular := by
  intro row hrow
  rcases Books.mem_update hrow with ⟨hmem, -⟩ | ⟨old, hmem, -, rfl⟩
  · exact h row hmem
  · exact (h old hmem).congr (hf old).1 (hf old).2

theorem recorded {x : Execution} (h : b.Regular) (hx : Recorded x b b') : b'.Regular := by
  intro row hrow
  rw [hx.same.1] at hrow
  exact h row hrow

theorem noted {id : Int} {t : Moment} {n : Int} {noted : Bool} (h : b.Regular)
    (hn : Noted id t n noted b b') : b'.Regular := by
  rcases hn with ⟨-, rfl⟩ | ⟨-, i, -, rfl⟩
  · exact h
  · exact h.update id (RuleRow.noted i n) fun _ => ⟨rfl, rfl⟩

theorem course {rule : Rule} {now : Moment} {bypass force : Bool} {r : Report} (h : b.Regular)
    (hc : Engine.Course rule now bypass force b r b') : b'.Regular := by
  have hlooked : b.looked.Regular := h
  have htracked : ∀ c, (b.looked.track c).Regular := fun _ => h
  cases hc with
  | notMatched => exact h
  | suppressed _ _ _ record => exact hlooked.recorded record
  | triggered _ _ _ _ note record => exact ((htracked _).noted note).recorded record
  | failed _ _ _ record => exact hlooked.recorded record
  | faulted _ _ _ record => exact hlooked.recorded record

/-- What does not create keeps rows regular. -/
theorem stride {T : Terms} {e : Option Entry} (h : b.Regular) (hs : Stride T b e b')
    (created : ∀ row, e = some (.created row) → row.Regular) : b'.Regular := by
  cases hs with
  | around _ => exact h
  | refuse n => exact h
  | switch id on => exact h.update id (RuleRow.switched on) fun _ => ⟨rfl, rfl⟩
  | create =>
    intro row hrow
    rcases List.mem_append.1 hrow with hold | hnew
    · exact h row hold
    · rw [List.mem_singleton.1 hnew]
      exact created _ rfl
  | delete id _ => exact fun row hrow => h row (List.mem_filter.1 hrow).1
  | load _ _ _ => exact h
  | look _ course => exact h.course course
  | @manual rule _ _ _ _ _ _ _ _ course =>
    have htracked : (b.track (b.cooldowns.merge rule)).Regular := h
    exact htracked.course course

theorem chain {T : Terms} {es : List Entry} (h : b.Regular) (hc : Chain T b es b')
    (created : ∀ row, .created row ∈ es → row.Regular) : b'.Regular := by
  induction hc with
  | nil => exact h
  | @cons _ _ _ e es first _ ih =>
    refine ih (h.stride first fun row he => created row ?_) fun row hrow =>
      created row (List.mem_append_right _ hrow)
    rw [he]
    exact List.mem_append_left _ (List.mem_singleton_self _)

end Books.Regular

/-! ## Worlds that can be called -/

/-- A world whose lock is free, whose times can be compared and whose rules have
different numbers. -/
structure World.Callable (w : World) : Prop where
  sane : w.books.Sane .changing
  free : w.memory.locked = false

/-- Worlds of which the second can be called if the first can, and has regular rows if
the first has. -/
structure World.Leads (w v : World) : Prop where
  callable : w.Callable → v.Callable
  regular : w.Callable → w.books.Regular → v.books.Regular

namespace World.Leads

variable {u v w : World}

protected theorem refl (w : World) : w.Leads w := ⟨id, fun _ h => h⟩

protected theorem trans (h : w.Leads v) (k : v.Leads u) : w.Leads u :=
  ⟨fun hw => k.callable (h.callable hw),
    fun hw hr => k.regular (h.callable hw) (h.regular hw hr)⟩

/-- What concerns neither the books nor the lock does not matter. -/
theorem of_books (books : v.books = w.books) (locked : v.memory.locked = w.memory.locked) :
    w.Leads v :=
  ⟨fun hw => ⟨books ▸ hw.sane, locked.trans hw.free⟩, fun _ hr => books ▸ hr⟩

theorem of_untouched (h : w.Untouched v) : w.Leads v :=
  of_books h.books_eq (congrArg Memory.locked h.memory_eq)

end World.Leads

/-- A happening that a call may amount to: nothing waits, and only what was accepted is
created. -/
structure Happening.Served (h : Happening) : Prop where
  under : h.Under .changing
  legible : ∀ d, h = .create d → d.Legible

theorem World.memory_callStore {α : Type} (c : Contact) (f : Store → Except Fault (α × Store))
    (w : World) : (w.callStore c f).2.memory = w.memory := by
  rcases w.callStore_cases c f with ⟨a, s, -, -, -, hv⟩ | ⟨-, hv, -⟩
  · exact hv.memory_eq
  · exact hv.memory_eq

namespace Engine

theorem locked_free {α : Type} (p : Activity α) (w : World) :
    ((locked p).run w).2.memory.locked = false := by
  unfold locked
  simp only [run_bind', run_remember, run_pure]

/-- A tick leaves the lock free. -/
theorem round_free {w : World} (free : w.memory.locked = false) :
    (round.run.run w).2.memory.locked = false := by
  have hw := w.untouched_consult .tick
  rw [round_eq]
  rcases hc : w.consult .tick with ⟨_ | f, v⟩
  · rw [hc] at hw
    have hfree : v.memory.locked = false := hw.memory_eq ▸ free
    dsimp only
    rw [hfree]
    rfl
  · rw [hc] at hw
    exact hw.memory_eq ▸ free

/-- A trigger by hand leaves the lock free. -/
theorem trigger_free {w : World} (free : w.memory.locked = false) (id : Int) (force : Bool) :
    ((trigger id force).run.run w).2.memory.locked = false := by
  unfold trigger
  rw [Work.run_bind]
  have hw := idle_load id w
  rcases hr : (load id).run.run w with ⟨r, v⟩
  rw [hr] at hw
  cases r with
  | error e => exact (congrArg Memory.locked hw.memory_eq).trans free
  | ok rule =>
    simp only [Work.run_bind, Work.run_lift]
    exact locked_free _ _

end Engine

theorem mem_told {ε α : Type} {f : α → List Entry} {x : Except ε α} {e : Entry} :
    e ∈ told f x ↔ ∃ a, x = .ok a ∧ e ∈ f a := by
  cases x <;> simp [told]

theorem World.Callable.scene {w : World} (hw : w.Callable) : (Scene.mk w []).Sane .changing :=
  ⟨hw.sane, fun p hp => by cases hp⟩

namespace Happening

variable {h : Happening}

/-- What is created is regular. -/
theorem Served.regular (served : h.Served) {w : World} {row : RuleRow}
    (created : .created row ∈ (h.step ⟨w, []⟩).1) : row.Regular := by
  cases h with
  | tick =>
    obtain ⟨r, -, hr⟩ := mem_told.1 created
    rcases r with _ | _ | _ <;> simp [Round.entries] at hr
  | trigger id force =>
    obtain ⟨r, -, hr⟩ := mem_told.1 created
    cases List.mem_singleton.1 hr
  | request | grant => exact served.under.elim
  | create d =>
    obtain ⟨new, hnew, hr⟩ := mem_told.1 created
    cases List.mem_singleton.1 hr
    rcases w.callStore_cases .createRule (·.createRule d) with
      ⟨_, s, -, hs, ha, -⟩ | ⟨⟨e, he⟩, -, -⟩
    · cases ha.symm.trans hnew
      rw [(Store.createRule_eq_ok hs).1]
      exact RuleRow.regular_ofDefinition (served.legible d rfl) _
    · cases he.symm.trans hnew
  | delete id =>
    obtain ⟨there, -, hr⟩ := mem_told.1 created
    cases there <;> simp at hr
  | switch | switchAll | around => cases created

/-- The lock stays free. -/
theorem Served.free (served : h.Served) {w : World} (free : w.memory.locked = false) :
    (h.step ⟨w, []⟩).2.world.memory.locked = false := by
  have hstore : ∀ {α : Type} (c : Contact) (f : Store → Except Fault (α × Store)),
      (w.callStore c f).2.memory.locked = false := fun c f =>
    (congrArg Memory.locked (w.memory_callStore c f)).trans free
  cases h with
  | tick => exact Engine.round_free free
  | trigger id force => exact Engine.trigger_free free id force
  | request | grant => exact served.under.elim
  | create d => exact hstore .createRule (·.createRule d)
  | delete id => exact hstore .deleteRule (·.deleteRule id)
  | switch id on => exact hstore .setEnabled (·.setEnabled id on)
  | switchAll ids on => exact hstore .setAllEnabled (·.setAllEnabled ids on)
  | around v => exact free

/-- What happens leads to a world that can be called. -/
theorem Served.leads (served : h.Served) (w : World) : w.Leads (h.step ⟨w, []⟩).2.world where
  callable hw := {
    sane := (step_sane Terms.changing_fair served.under hw.scene).books
    free := served.free hw.free }
  regular hw hr :=
    hr.chain (step_chain Terms.changing_fair served.under hw.scene).1
      fun _ created => served.regular created

end Happening

/-! ## Handlers lead on -/

/-- An activity that leads to a world that can be called. -/
def Plan.Leads {α : Type} (p : Activity α) : Prop := ∀ w : World, w.Leads (p.run w).2

/-- A computation that leads to a world that can be called, also where it fails. -/
def Leading {ε α : Type} (x : ExceptT ε Activity α) : Prop := Plan.Leads x.run

theorem Plan.Leads.bind {α β : Type} {p : Activity α} {k : α → Activity β} (hp : Leads p)
    (hk : ∀ a, Leads (k a)) : Leads (p >>= k) := by
  intro w
  rw [run_bind']
  exact (hp w).trans (hk _ _)

namespace Leading

variable {ε α β : Type} {x : ExceptT ε Activity α}

theorem of_idle (hx : Idle x) : Leading x := fun w => .of_untouched (hx w)

theorem lift {p : Activity α} (hp : Plan.Leads p) :
    Leading (ExceptT.lift p : ExceptT ε Activity α) := by
  intro w
  rw [Work.run_lift]
  exact hp w

theorem bind {f : α → ExceptT ε Activity β} (hx : Leading x)
    (hf : ∀ a, (∃ w v, x.run.run w = (.ok a, v)) → Leading (f a)) : Leading (x >>= f) := by
  intro w
  have hw := hx w
  rw [Work.run_bind]
  rcases hr : x.run.run w with ⟨r, v⟩
  rw [hr] at hw
  cases r with
  | error e => exact hw
  | ok a => exact hw.trans (hf a ⟨w, v, hr⟩ v)

theorem mapError {δ : Type} {f : ε → δ} (hx : Leading x) :
    Leading (ExceptT.mk (x.run.bind fun r => pure (r.mapError f)) : ExceptT δ Activity α) := by
  intro w
  rw [run_mapError]
  exact hx w

end Leading

/-- A tick in numbers leads on as a tick in full. -/
theorem Engine.leading_tick : Leading tick := by
  intro w
  have hround : w.Leads (round.run.run w).2 :=
    Happening.Served.leads (h := .tick) ⟨trivial, nofun⟩ w
  unfold tick
  rw [Work.run_bind]
  rcases hr : round.run.run w with ⟨f | r, v⟩
  · rwa [hr] at hround
  · rwa [hr] at hround

namespace Scheduler

theorem leads_announce : Plan.Leads announce := fun _ => .of_books rfl rfl

theorem leads_arrange (f : Schedule → Schedule) : Plan.Leads (arrange f) :=
  fun _ => .of_books rfl rfl

theorem leads_start : Plan.Leads start := by
  refine .bind (fun w => .refl w) fun running => ?_
  split
  · exact fun w => .refl w
  · exact .bind (leads_arrange _) fun _ => leads_announce

theorem leads_stop : Plan.Leads stop := by
  have hwait : ∀ d, Plan.Leads (Plan.whenFree d fun _ => pure ()) := by
    intro d w
    simp only [Plan.run]
    split
    · exact .of_books (w.books_elapse d)
        (congrArg (fun i : Interior => i.memory.locked) (World.interior_elapse d w))
    · exact .refl w
  refine .bind (fun w => .refl w) fun running => ?_
  split
  · exact .bind (leads_arrange _) fun _ => .bind (fun w => .refl w) fun d =>
      .bind (hwait d) fun _ => leads_announce
  · exact fun w => .refl w

/-- A tick of the schedule leads on, also where it fails. -/
theorem leads_tick : Plan.Leads tick := by
  refine .bind (leads_arrange _) fun _ => .bind Engine.leading_tick fun r => ?_
  cases r with
  | ok s => exact leads_announce
  | error f => exact .bind (fun w => .of_books rfl rfl) fun _ => leads_announce

theorem leading_tickNow : Leading tickNow :=
  .bind Engine.leading_tick fun _ _ => .bind (.lift leads_announce) fun _ _ => .of_idle (.pure _)

end Scheduler

namespace Service

open Handling

theorem leading_createRule (b : Option Doc) : Leading (createRule b) := by
  refine .bind (.of_idle (idle_valid _)) fun draft _ => .bind (.of_idle ?_) fun d hd => ?_
  · exact Idle.mapError fun w => .refl w
  have hlegible : d.Legible := by
    obtain ⟨w, v, hrun⟩ := hd
    have hparse : (Definition.parse draft).mapError obstacle = .ok d := congrArg Prod.fst hrun
    cases hp : Definition.parse draft with
    | ok x =>
      rw [hp] at hparse
      cases hparse
      exact (Definition.legible_of_parse hp).1
    | error e =>
      rw [hp] at hparse
      cases hparse
  have hserved : (Happening.create d).Served := ⟨trivial, fun _ h => by cases h; exact hlegible⟩
  refine .bind (Leading.mapError hserved.leads) fun row _ => ?_
  exact .of_idle (.bind (idle_fit _) fun _ => .pure _)

/-- Every handler leads on. -/
theorem leading_handle (c : Call) (b : Option Doc) (r : Route) : Leading (handle c b r) := by
  cases r with
  | createRule => exact leading_createRule b
  | setRules on =>
    refine .bind (.of_idle (idle_valid _)) fun ids _ =>
      .bind (.mapError ?_) fun _ _ => .of_idle (idle_ok _)
    exact Happening.Served.leads (h := .switchAll ids on) ⟨trivial, nofun⟩
  | setRule id on =>
    refine .bind (.of_idle (idle_valid _)) fun n _ =>
      .bind (.mapError ?_) fun _ _ => .of_idle ?_
    · exact Happening.Served.leads (h := .switch n on) ⟨trivial, nofun⟩
    · exact .bind (idle_present _) fun _ => .bind (idle_fit _) fun _ => idle_ok _
  | deleteRule id =>
    refine .bind (.of_idle (idle_valid _)) fun n _ =>
      .bind (.mapError ?_) fun there _ => .of_idle ?_
    · exact Happening.Served.leads (h := .delete n) ⟨trivial, nofun⟩
    · cases there with
      | true => exact idle_ok _
      | false => exact .throw _
  | trigger id =>
    refine .bind (.of_idle (idle_valid _)) fun p _ =>
      .bind (.mapError ?_) fun _ _ => .of_idle (idle_ok _)
    exact Happening.Served.leads (h := .trigger p.1 p.2) ⟨trivial, nofun⟩
  | tick => exact .bind (.mapError Scheduler.leading_tickNow) fun _ _ => .of_idle (idle_ok _)
  | start => exact .bind (.lift Scheduler.leads_start) fun _ _ => .of_idle idle_status
  | stop => exact .bind (.lift Scheduler.leads_stop) fun _ _ => .of_idle idle_status
  | health => exact .of_idle (idle_ok _)
  | status => exact .of_idle idle_status
  | listRules => exact .of_idle (idle_listRules c)
  | testConditions => exact .of_idle (idle_testConditions b)
  | rule id => exact .of_idle (idle_showRule id)
  | executions id => exact .of_idle (idle_executions c id)
  | stats id => exact .of_idle (idle_stats c id)

/-- Every call leads on, whether it succeeds or fails. -/
theorem respond_leads (c : Call) (w : World) : w.Leads ((respond c).run w).2 := by
  rcases respond_cases c w with ⟨hw, -⟩ | ⟨r, b, -, -, hv⟩
  · rw [hw]
    exact .refl w
  · rw [hv]
    exact leading_handle c b r w

/-! ## Sequences of calls -/

/-- Something that happens to a service. -/
inductive Incident where
  | call (c : Call)
  /-- A tick of the schedule. -/
  | tick
  /-- Clocks, readings, devices, lines and outages become what they are in another world;
  rules, their history and what the engine remembers stay. -/
  | around (v : World)

/-- What happens to a world. -/
def Incident.step : Incident → World → World
  | call c, w => ((respond c).run w).2
  | tick, w => (Scheduler.tick.run w).2
  | around v, w => w.amid v

/-- A world after what has happened to it. -/
def after (is : List Incident) (w : World) : World := is.foldl (fun w i => i.step w) w

/-- Whether the clock can be compared with times after something has happened. -/
def Incident.Aware : Incident → Prop
  | around v => v.clock.Aware
  | _ => True

theorem Incident.leads {i : Incident} (aware : i.Aware) (w : World) : w.Leads (i.step w) := by
  cases i with
  | call c => exact respond_leads c w
  | tick => exact Scheduler.leads_tick w
  | around v => exact Happening.Served.leads (h := .around v) ⟨aware, nofun⟩ w

/-- Whatever happens, the next call finds a world that can be called. -/
theorem after_leads {is : List Incident} (aware : ∀ i ∈ is, i.Aware) (w : World) :
    w.Leads (after is w) := by
  induction is generalizing w with
  | nil => exact .refl w
  | cons i is ih =>
    have hstep : w.Leads (i.step w) := Incident.leads (aware i (List.mem_cons_self ..)) w
    exact hstep.trans (ih (fun j hj => aware j (List.mem_cons_of_mem _ hj)) (i.step w))

/-- Among regular rows no call slips. -/
theorem not_slips_of_regular {w : World} (h : w.books.Regular) (c : Call) : ¬ c.Slips w := by
  rintro ⟨r, -, slip⟩
  cases slip with
  | switched _ _ stored formless _ =>
    exact (h _ (List.mem_of_find?_eq_some (Store.findRule_eq_ok stored))).form formless
  | stopped _ _ mem raises => exact (h _ (Books.mem_of_enabledRows mem)).calm raises

/-- Whether the answers of other machines that are laid down in a world write characters. -/
def AnswersCharacters (w : World) : Prop :=
  ∀ reply ∈ w.webhooks.replies.head :: w.webhooks.replies.rest, ∀ r : Response,
    reply.outcome = .ok r → Json.writesCharacters r.text = true

/-- Whether what comes in with something that happens writes characters. -/
def Incident.WritesCharacters : Incident → Prop
  | call c => Json.writesCharacters c.body = true
  | tick => True
  | around v => AnswersCharacters v

/-- What a service goes through from a world on: a call can be answered at first, the clock
stays comparable, and what is written are characters. -/
structure Session (w : World) (is : List Incident) : Prop where
  callable : w.Callable
  aware : ∀ i ∈ is, i.Aware
  rows : ∀ row ∈ w.store.rules,
    (row.conditions.texts ++ row.actions.texts).all Json.writesCharacters = true
  answers : AnswersCharacters w
  incidents : ∀ i ∈ is, i.WritesCharacters

/-- Whatever has happened in a session, a call that is not answered with a success leaves
everything as it was, apart from the scripts of outages, unless it slips: it switches a rule
whose row has no form for an answer, or it is a tick that a row stops after it was counted.
A call that slips leaves another store or another memory. Where all rows were regular at
first, which are all rows that authoring stores, no call ever slips. -/
theorem failed_calls_change_nothing {w : World} {is : List Incident} {c : Call}
    (session : Session w (is ++ [.call c]))
    (fails : ((respond c).run (after is w)).1.succeeds = false) :
    Failed (c.Slips (after is w)) (after is w) ((respond c).run (after is w)).2
      ∧ (w.books.Regular → ¬ c.Slips (after is w)) := by
  have hleads := after_leads (fun i hi => session.aware i (List.mem_append_left _ hi)) w
  have hw := hleads.callable session.callable
  refine ⟨respond_failed hw.free hw.sane.aware hw.sane.nodup fails, fun regular => ?_⟩
  exact not_slips_of_regular (hleads.regular session.callable regular) c

/-- A call that creates a rule which always holds. -/
def Call.vent : Call where
  method := "POST"
  place := ["api", "rules"]
  body := "\x7b\"name\": \"vent\", \"conditions\": []\x7d"

/-- A call that removes a rule which there is not. -/
def Call.remove : Call := { method := "DELETE", place := ["api", "rules", "7"] }

/-- A rule that there is not is looked for, after one was created and a tick. -/
theorem failed_calls_change_nothing_remove :
    Session (World.quiet 0) ([.call .vent, .tick] ++ [.call .remove])
      ∧ (after [.call .vent, .tick] (World.quiet 0)).store.rules.length = 1
      ∧ ((respond .remove).run (after [.call .vent, .tick] (World.quiet 0))).1.succeeds = false
      ∧ (after [.call .vent, .tick] (World.quiet 0)).Untouched
        ((respond .remove).run (after [.call .vent, .tick] (World.quiet 0))).2 := by
  have callable : (World.quiet 0).Callable :=
    ⟨((World.quiet_fresh 0).sane (Moment.utc_ofInstant _).aware).books, rfl⟩
  have answers : AnswersCharacters (World.quiet 0) := by
    intro reply hreply r hr
    cases List.mem_singleton.1 hreply
    cases hr
    decide +kernel
  have bodies : Json.writesCharacters Call.vent.body = true
      ∧ Json.writesCharacters Call.remove.body = true := by
    decide +kernel
  have session : Session (World.quiet 0) ([.call .vent, .tick] ++ [.call .remove]) := {
    callable
    aware := by simp [Incident.Aware]
    rows := nofun
    answers
    incidents := by simp [Incident.WritesCharacters, bodies] }
  have fails : ((respond .remove).run (after [.call .vent, .tick] (World.quiet 0))).1.succeeds
      = false := by decide +kernel
  obtain ⟨failed, sound⟩ := failed_calls_change_nothing session fails
  exact ⟨session, by decide +kernel, fails, failed.untouched (sound fun _ => nofun)⟩

end Service

/-- A row that is switched off, with a bare list for its conditions. -/
def RuleRow.bare : RuleRow := { id := 1, name := "bare", enabled := false, conditions := .list [] }

namespace Service

/-- A call that switches the first rule on. -/
def Call.enable : Call := { method := "POST", place := ["api", "rules", "1", "enable"] }

/-- Switching on a rule with a bare list for its conditions fails, but the rule is on. -/
theorem bare_switched_by_failure :
    (World.holding [.bare]).Callable
      ∧ ((respond .enable).run (World.holding [.bare])).1.status = 500
      ∧ (World.holding [.bare]).store.rules.map (·.enabled) = [false]
      ∧ ((respond .enable).run (World.holding [.bare])).2.store.rules.map (·.enabled) = [true] := by
  refine ⟨⟨⟨(Moment.utc_ofInstant _).aware, fun _ _ => nofun, ?_⟩, rfl⟩, ?_, rfl, ?_⟩
  · decide +kernel
  · decide +kernel
  · decide +kernel

end Service

end Glasshouse
