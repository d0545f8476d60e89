/-
Glasshouse.Proofs.Engine.Audit — what a tick writes, rule by rule. A rule that is looked
at does one of four things (`Audit`): its conditions do not hold and nothing is
written; it is cooling down and one execution says so; its actions are all tried,
and one execution and one event tell of them; or something goes wrong before the
actions, and one execution tells of that. A fifth thing can happen, which counts a
rule twice (`Miscount`): the rule is cooling down, but the time that is left is
longer than any span. Main statement: `tick_audits`.

How the proof goes. Each step of a look at a rule is an equation between worlds, whatever
outages do (`respond_run`, `fire_run`). `processRule_accounted` finds one of the things above
in every look, `processAll_audits` goes along the rules, and `Audits.tally` adds up the counts.

Side conditions of the main statement. The tick begins, loads its rows and can read
them all: the lock is free, neither call is laid down to fail, and no row is one that
`RuleRow.Raises`. No record is lost in it. Of these ends of a tick Engine.MalformedRows
and Engine.Losses tell.
-/
import Glasshouse.Proofs.Engine.MalformedRows
import Glasshouse.Proofs.Engine.TrackerChange

namespace Glasshouse

open Calendar Plan

/-! ## Changes of a world -/

/-- The row of an execution. -/
def Execution.row (x : Execution) (n : Int) (i : Instant) : ExecutionRow :=
  ⟨n, x.ruleId, i, x.success, x.suppressed, x.wholeTime?.getD 0, x.triggerData.getD .null,
    x.evaluation.getD .null, .list x.actions, x.error, x.stackTrace⟩

namespace World

/-- Other scripts of outages. -/
def failing (t : Table Contact (Script (Option Fault))) (w : World) : World :=
  { w with outages := t }

/-- One more rule that was suppressed. -/
def countSuppressed (w : World) : World :=
  w.tallied fun t => { t with suppressed := t.suppressed + 1 }

/-- One more rule that was triggered. -/
def countTriggered (w : World) : World := w.tallied fun t => { t with triggered := t.triggered + 1 }

/-- One more rule that failed. -/
def countFailed (w : World) : World := w.tallied fun t => { t with failed := t.failed + 1 }

/-- One more record that could not be written. -/
def lose (w : World) : World := { w with memory := { w.memory with lost := w.memory.lost + 1 } }

/-- An execution at the end of the history, under the next number. -/
def write (x : Execution) (i : Instant) (w : World) : World :=
  { w with store := { w.store with
    executions := w.store.executions ++ [x.row (Store.nextId (w.store.executions.map (·.id))) i] } }

/-- A trigger noted in the tracker and with the rule. -/
def credit (id : Int) (c : Cooldown) (i : Instant) (n : Nat) (w : World) : World :=
  { w with
    store := w.store.updateRule id (RuleRow.noted i n)
    memory := { w.memory with cooldowns := c } }

/-- An event handed to every subscriber. -/
def announce (e : Event) (w : World) : World := { w with channel := w.channel.publish e }

end World

/-! ## Reading -/

/-- A computation that changes no more than the scripts of outages. -/
def Work.Reads {α : Type} (x : Work α) : Prop := ∀ w, ∃ t, (x.run.run w).2 = w.failing t

theorem World.consult_failing (c : Contact) (w : World) : ∃ t, (w.consult c).2 = w.failing t := by
  unfold consult
  cases w.outages.get? c with
  | none => exact ⟨w.outages, rfl⟩
  | some s => exact ⟨w.outages.put c s.next, rfl⟩

namespace Work.Reads

variable {α β : Type}

protected theorem pure (a : α) : Work.Reads (pure a) := fun w => ⟨w.outages, rfl⟩

protected theorem throw (e : Fault) : Work.Reads (throw e : Work α) := fun w => ⟨w.outages, rfl⟩

protected theorem ofExcept (x : Except Fault α) : Work.Reads (Work.ofExcept x) :=
  fun w => ⟨w.outages, rfl⟩

protected theorem bind {x : Work α} {f : α → Work β} (hx : x.Reads) (hf : ∀ a, (f a).Reads) :
    (x >>= f).Reads := by
  intro w
  obtain ⟨t, ht⟩ := hx w
  rw [Work.run_bind]
  rcases hr : x.run.run w with ⟨r, v⟩
  rw [hr] at ht
  subst ht
  cases r with
  | error e => exact ⟨t, rfl⟩
  | ok a => exact hf a (w.failing t)

protected theorem consult (c : Contact) : (Work.consult c).Reads := by
  intro w
  obtain ⟨t, ht⟩ := w.consult_failing c
  exact ⟨t, by rw [Work.run_consult, ht]⟩

protected theorem fetch (c : Contact) (f : Store → Except Fault α) : (Work.fetch c f).Reads := by
  intro w
  obtain ⟨t, ht⟩ := w.consult_failing c
  refine ⟨t, ?_⟩
  rw [Work.run_fetch]
  rcases hc : w.consult c with ⟨_ | e, v⟩
  · exact (congrArg Prod.snd hc).symm.trans ht
  · exact (congrArg Prod.snd hc).symm.trans ht

theorem ask (now : Moment) (q : Query) : (Work.ask now q).Reads := by
  cases q with
  | device d => exact .bind (.consult _) fun _ => .fetch _ _
  | latest _ _ | aggregate _ _ _ _ | history _ _ _ | lastSeen _ => exact .fetch _ _

theorem gather (now : Moment) (qs : List Query) : (Snapshot.gather (Work.ask now) qs).Reads := by
  induction qs with
  | nil => exact .pure _
  | cons q qs ih => exact .bind (ask now q) fun a => .bind ih fun rest => .pure _

/-- Judging conditions reads. -/
theorem evaluate (c : Condition) (now : Moment) : (Engine.evaluate c now).Reads := by
  refine .bind (fun w => ⟨w.outages, rfl⟩) fun zone => .bind ?_ fun s =>
    .bind (.ofExcept _) fun e => .pure _
  unfold Condition.capture
  cases zone.local? now with
  | error e => exact .throw e
  | ok clock => exact .bind (gather now _) fun answers => .pure _

end Work.Reads

/-! ## Writing -/

namespace Store

/-- An execution is recorded as it is, under the next number. -/
theorem recordExecution_row {s s' : Store} {x : Execution} {n : Int}
    (h : s.recordExecution x = .ok (n, s')) :
    ∃ i, x.triggeredAt.toInstant = .ok i ∧ n = nextId (s.executions.map (·.id)) ∧
      s' = { s with executions := s.executions ++ [x.row n i] } := by
  unfold recordExecution at h
  obtain ⟨i, hi, h⟩ := bind_eq_ok.1 h
  cases ht : x.wholeTime? with
  | none =>
    rw [ht] at h
    cases h
  | some time =>
    rw [ht] at h
    obtain ⟨_, _, h⟩ := bind_eq_ok.1 h
    cases h
    exact ⟨i, hi, rfl, by simp only [Execution.row, ht, Option.getD_some]⟩

end Store

/-! ## Time that is left -/

namespace Cooldown

variable {c : Cooldown} {id : Int} {now : Moment}

/-- The time that is left of the silence of a rule has more days than a span can have. -/
def Overlong (c : Cooldown) (id : Int) (now : Moment) : Prop :=
  ∃ last since span, c.last.get? id = some last ∧ now.minus last = .ok since ∧
    c.silence id = .ok span ∧ 999999999 < (span - since) / dayLength

/-- The result of arithmetic on spans that is not negative is one unless it is too long. -/
theorem check_error_iff {x : Span} (h : 0 ≤ x / dayLength) :
    (∃ f, Span.check x = .error f) ↔ 999999999 < x / dayLength := by
  unfold Span.check
  by_cases hlong : 999999999 < x / dayLength
  · simp [hlong]
  · have hlow : ¬ x / dayLength < -999999999 :=
      Int.not_lt.2 (Int.le_trans (show (-999999999 : Int) ≤ 0 by decide) h)
    simp [hlong, hlow]

/-- The time that is left to a rule that is cooling down cannot be told exactly if it is
longer than any span. -/
theorem remaining_error_iff (h : c.eligible id now = .ok false) :
    (∃ f, c.remaining id now = .error f) ↔ c.Overlong id now := by
  unfold eligible at h
  cases hl : c.last.get? id with
  | none =>
    rw [hl] at h
    cases h
  | some l =>
    rw [hl] at h
    obtain ⟨since, hsince, h⟩ := bind_eq_ok.1 h
    obtain ⟨span, hspan, h⟩ := bind_eq_ok.1 h
    have hlt : since < span := by
      have hd : decide (span ≤ since) = false := Except.ok.inj h
      simpa using hd
    have hleft : 0 ≤ (span - since) / dayLength :=
      Int.ediv_nonneg (Int.sub_nonneg_of_le (Int.le_of_lt hlt)) (by decide)
    have hremaining : c.remaining id now = (Span.check (span - since)).map fun x => max x 0 := by
      unfold remaining
      rw [hl]
      simp only [hspan, hsince]
      rfl
    have hfault : (∃ f, c.remaining id now = .error f) ↔
        ∃ f, Span.check (span - since) = .error f := by
      rw [hremaining]
      cases Span.check (span - since) with
      | ok x => simp [Except.map]
      | error f => simp [Except.map]
    rw [hfault, check_error_iff hleft]
    constructor
    · exact fun hlong => ⟨l, since, span, hl, hsince, hspan, hlong⟩
    · rintro ⟨l', since', span', hl', hs', hp', hlong⟩
      cases hl.symm.trans hl'
      cases hsince.symm.trans hs'
      cases hspan.symm.trans hp'
      exact hlong

end Cooldown

namespace Engine

/-- A record is kept, or it is lost. -/
theorem keep_run {α : Type} (c : Contact) (f : Store → Except Fault (α × Store)) (w : World) :
    ∃ t, (keep (Work.store c f)).run w = (none, w.lose.failing t) ∨
      ∃ a s, f w.store = .ok (a, s) ∧
        (keep (Work.store c f)).run w = (some a, ({ w with store := s } : World).failing t) := by
  obtain ⟨t, ht⟩ := w.consult_failing c
  refine ⟨t, ?_⟩
  rw [run_keep, Work.run_store]
  unfold World.callStore
  rcases hc : w.consult c with ⟨_ | e, v⟩
  · rw [hc] at ht
    cases ht
    simp only
    cases hf : f w.store with
    | error e => exact .inl rfl
    | ok p => exact .inr ⟨p.1, p.2, rfl, rfl⟩
  · rw [hc] at ht
    cases ht
    exact .inl rfl

/-- An execution is written under the next number, or it is lost. -/
theorem record_run (x : Execution) (w : World) :
    ∃ t, ((record x).run w).2 = w.lose.failing t ∨
      ∃ i, x.triggeredAt.toInstant = .ok i ∧ ((record x).run w).2 = (w.write x i).failing t := by
  obtain ⟨t, h | ⟨n, s, hs, h⟩⟩ := keep_run .recordExecution (fun s => s.recordExecution x) w
  · exact ⟨t, .inl (congrArg Prod.snd h)⟩
  · obtain ⟨i, hi, rfl, rfl⟩ := Store.recordExecution_row hs
    exact ⟨t, .inr ⟨i, hi, congrArg Prod.snd h⟩⟩

/-! ## One rule -/

section Rule

variable (rule : Rule) (now : Moment) (w : World)

/-- What came of judging the conditions of a rule, once it has been counted. -/
def Verdict (x : Except Fault (Evaluation × Snapshot)) (t : Table Contact (Script (Option Fault))) :
    Prop :=
  (evaluate rule.conditions now).run.run w.looked = (x, w.looked.failing t)

/-- The actions of a rule that may fire, each tried once and in order; none of them
touches the books. -/
structure Tried (s : Snapshot) (outcomes : List Outcome) (u : World) : Prop where
  eligible : w.memory.cooldowns.eligible rule.id now = .ok true
  run : ∃ t, (Dispatch.tryFrom 0 ⟨rule.id, rule.name, now, some s⟩ rule.actions).run
    (w.looked.failing t) = (outcomes, u)
  each : outcomes.map (fun o => (o.index, o.kind))
    = rule.actions.zipIdx.map fun p => (p.2, p.1.kind)
  apart : u.interior = w.looked.interior

/-- Why a rule fails before any of its actions is tried. -/
inductive Stumbles : Option (Evaluation × Snapshot) → Fault → Prop
  /-- Its conditions cannot be judged. -/
  | evaluation {f : Fault} {t : Table Contact (Script (Option Fault))}
      (verdict : Verdict rule now w (.error f) t) : Stumbles none f
  /-- It cannot be told whether it may fire. -/
  | cooldown {e : Evaluation} {s : Snapshot} {f : Fault} {t : Table Contact (Script (Option Fault))}
      (verdict : Verdict rule now w (.ok (e, s)) t) (holds : e.result = true)
      (unsure : w.memory.cooldowns.eligible rule.id now = .error f) : Stumbles (some (e, s)) f
  /-- The dispatcher as a whole is laid down to fail. -/
  | dispatcher {e : Evaluation} {s : Snapshot} {f : Fault}
      {t : Table Contact (Script (Option Fault))} (verdict : Verdict rule now w (.ok (e, s)) t)
      (holds : e.result = true) (eligible : w.memory.cooldowns.eligible rule.id now = .ok true)
      (outage : ((w.looked.failing t).consult .dispatch).1 = some f) : Stumbles (some (e, s)) f

/-- The execution of a rule whose actions were tried. -/
def tried (e : Evaluation) (s : Snapshot) (outcomes : List Outcome) : Execution :=
  { execution rule now e s with
    success := outcomes.all Outcome.succeeded
    actions := outcomes.map Outcome.toDoc
    error := Outcome.complaint? outcomes }

/-- The execution of a rule that went wrong before any of its actions was tried. -/
def stumble (judged : Option (Evaluation × Snapshot)) (f : Fault) : Execution where
  ruleId := rule.id
  triggeredAt := now
  success := false
  triggerData := judged.map fun p => p.2.toDoc
  evaluation := judged.map fun p => p.1.toDoc
  error := some f.record
  stackTrace := some ""

/-- The event of a rule whose actions were tried. -/
def announcement (outcomes : List Outcome) : Event :=
  ⟨.ruleTriggered, triggeredEvent rule now (outcomes.all Outcome.succeeded) outcomes⟩

/-- What looking at a rule in a tick writes: the report on it, and the world afterwards.
Apart from scripts of outages and from what the actions themselves do, nothing else
changes. -/
inductive Audit : Report → World → Prop
  /-- The conditions do not hold: nothing is written. -/
  | notMatched {e : Evaluation} {s : Snapshot} {t : Table Contact (Script (Option Fault))}
      (verdict : Verdict rule now w (.ok (e, s)) t) (fails : e.result = false) :
      Audit (.notMatched rule.id e) (w.looked.failing t)
  /-- The rule is cooling down: one execution that is a success, suppressed and without
  actions. -/
  | suppressed {e : Evaluation} {s : Snapshot} {i : Instant} {left : Span}
      {t t' : Table Contact (Script (Option Fault))} (verdict : Verdict rule now w (.ok (e, s)) t)
      (holds : e.result = true) (cooling : w.memory.cooldowns.eligible rule.id now = .ok false)
      (remaining : w.memory.cooldowns.remaining rule.id now = .ok left)
      (time : now.toInstant = .ok i) :
      Audit (.suppressed { execution rule now e s with suppressed := true })
        ((w.looked.countSuppressed.write { execution rule now e s with suppressed := true }
          i).failing t')
  /-- All actions succeeded: the trigger is noted, with one execution and one event. -/
  | triggered {e : Evaluation} {s : Snapshot} {outcomes : List Outcome} {u : World}
      {c : Cooldown} {last : Moment} {n : Nat} {i k : Instant}
      {t t' : Table Contact (Script (Option Fault))} (verdict : Verdict rule now w (.ok (e, s)) t)
      (holds : e.result = true) (actions : Tried rule now w s outcomes u)
      (success : outcomes.all Outcome.succeeded = true)
      (mark : w.memory.cooldowns.mark rule.id now = .ok ((last, n), c))
      (noted : last.toInstant = .ok k) (time : now.toInstant = .ok i) :
      Audit (.triggered (tried rule now e s outcomes) true)
        ((((u.credit rule.id c k n).countTriggered.write (tried rule now e s outcomes) i).announce
          (announcement rule now outcomes)).failing t')
  /-- Some action failed: one execution and one event, and the trigger data stay. -/
  | failed {e : Evaluation} {s : Snapshot} {outcomes : List Outcome} {u : World} {i : Instant}
      {t t' : Table Contact (Script (Option Fault))} (verdict : Verdict rule now w (.ok (e, s)) t)
      (holds : e.result = true) (actions : Tried rule now w s outcomes u)
      (failure : outcomes.all Outcome.succeeded = false) (time : now.toInstant = .ok i) :
      Audit (.failed (tried rule now e s outcomes))
        (((u.countFailed.write (tried rule now e s outcomes) i).announce
          (announcement rule now outcomes)).failing t')
  /-- Something went wrong before the actions: one execution that is no success and has
  no actions, and no event. -/
  | stumbled {judged : Option (Evaluation × Snapshot)} {f : Fault} {i : Instant}
      {t : Table Contact (Script (Option Fault))} (cause : Stumbles rule now w judged f)
      (time : now.toInstant = .ok i) :
      Audit (.failed (stumble rule now judged f))
        ((w.looked.countFailed.write (stumble rule now judged f) i).failing t)

/-- A rule that is cooling down but whose time left cannot be told is counted both as
suppressed and as failed, and its one execution is a failure. -/
inductive Miscount : Report → World → Prop
  | intro {e : Evaluation} {s : Snapshot} {f : Fault} {i : Instant}
      {t t' : Table Contact (Script (Option Fault))} (verdict : Verdict rule now w (.ok (e, s)) t)
      (holds : e.result = true) (cooling : w.memory.cooldowns.eligible rule.id now = .ok false)
      (overlong : w.memory.cooldowns.Overlong rule.id now)
      (untold : w.memory.cooldowns.remaining rule.id now = .error f)
      (time : now.toInstant = .ok i) : Miscount (.failed (stumble rule now (some (e, s)) f))
        ((w.looked.countSuppressed.countFailed.write (stumble rule now (some (e, s)) f)
          i).failing t')

end Rule

section Look

variable {rule : Rule} {now : Moment} {w : World}

/-- The fault of a rule is recorded, or that record is lost. -/
theorem recordFault_run (rule : Rule) (now : Moment) (judged : Option (Evaluation × Snapshot))
    (f : Fault) (w : World) :
    ∃ t v, (recordFault rule now judged f).run w = (.failed (stumble rule now judged f), v) ∧
      (v = w.countFailed.lose.failing t ∨ ∃ i, now.toInstant = .ok i ∧
        v = (w.countFailed.write (stumble rule now judged f) i).failing t) := by
  obtain ⟨t, h⟩ := record_run (stumble rule now judged f) w.countFailed
  refine ⟨t, _, ?_, h⟩
  unfold recordFault
  simp only [run_bind', run_count, run_pure]
  rfl

/-- A rule that is cooling down is recorded, unless its time left cannot be told. -/
theorem suppress_run (rule : Rule) (now : Moment) (e : Evaluation) (s : Snapshot) (w : World) :
    (∃ f, w.memory.cooldowns.remaining rule.id now = .error f ∧
      (suppress rule now e s).run.run w = (.error f, w.countSuppressed)) ∨
    ∃ left t v, w.memory.cooldowns.remaining rule.id now = .ok left ∧
      (suppress rule now e s).run.run w
        = (.ok (.suppressed { execution rule now e s with suppressed := true }), v) ∧
      (v = w.countSuppressed.lose.failing t ∨ ∃ i, now.toInstant = .ok i ∧
        v = (w.countSuppressed.write { execution rule now e s with suppressed := true }
          i).failing t) := by
  unfold suppress
  simp only [Work.run_bind, Work.run_lift, run_count, run_look, Work.run_ofExcept]
  cases w.memory.cooldowns.remaining rule.id now with
  | error f => exact .inl ⟨f, rfl, rfl⟩
  | ok left =>
    obtain ⟨t, h⟩ := record_run { execution rule now e s with suppressed := true } w.countSuppressed
    exact .inr ⟨left, t, _, rfl, rfl, h⟩

/-- Every action is tried under its number and its kind. -/
theorem tryFrom_each (o : Occasion) (actions : List Action) (i : Nat) (w : World) :
    ((Dispatch.tryFrom i o actions).run w).1.map (fun x => (x.index, x.kind))
      = (actions.zipIdx i).map fun p => (p.2, p.1.kind) := by
  induction actions generalizing i w with
  | nil => rfl
  | cons a actions ih =>
    have hone : ∀ u : World, ((Dispatch.tryOne i a o).run u).1.index = i ∧
        ((Dispatch.tryOne i a o).run u).1.kind = a.kind := by
      intro u
      unfold Dispatch.tryOne
      cases a with
      | device d | notice _ | webhook _ | job _ =>
        simp only [run_bind', run_pure]
        exact ⟨trivial, trivial⟩
    unfold Dispatch.tryFrom
    simp only [run_bind', run_pure, List.map_cons, List.zipIdx_cons, ih]
    rw [(hone w).1, (hone w).2]

/-- A rule that may fire can be marked as triggered. -/
theorem mark_of_eligible {c : Cooldown} {id : Int} (h : c.eligible id now = .ok true) :
    ∃ last n c', c.mark id now = .ok ((last, n), c') := by
  unfold Cooldown.eligible at h
  unfold Cooldown.mark
  cases hl : c.last.get? id with
  | none => exact ⟨_, _, _, rfl⟩
  | some l =>
    rw [hl] at h
    obtain ⟨since, hsince, -⟩ := bind_eq_ok.1 h
    have hafter : ∃ b, now.after l = .ok b := by
      unfold Moment.minus at hsince
      unfold Moment.after
      split at hsince
      · exact ⟨_, rfl⟩
      · exact ⟨_, rfl⟩
      · cases hsince
    obtain ⟨b, hb⟩ := hafter
    simp only [Cooldown.later, hb]
    cases b with
    | true => exact ⟨_, _, _, rfl⟩
    | false => exact ⟨_, _, _, rfl⟩

/-- A success is noted in the tracker and with the rule, or the note is lost. -/
theorem markTriggered_run (rule : Rule) (now : Moment) {last : Moment} {n : Nat} {c : Cooldown}
    (h : w.memory.cooldowns.mark rule.id now = .ok ((last, n), c)) :
    ∃ noted t v, (markTriggered rule now).run.run w = (.ok noted, v) ∧
      ((noted = false ∧ v = (w.track c).countTriggered.lose.failing t) ∨
        noted = true ∧ ∃ k, last.toInstant = .ok k ∧
          v = (w.credit rule.id c k n).countTriggered.failing t) := by
  obtain ⟨t, hk⟩ := keep_run .noteTrigger (fun s => s.noteTrigger rule.id last n) (w.track c)
  have hrun : (markTriggered rule now).run.run w
      = (.ok ((noteTrigger rule.id last n).run (w.track c)).1.isSome,
        ((noteTrigger rule.id last n).run (w.track c)).2.countTriggered) := by
    unfold markTriggered
    simp only [Work.run_bind, Work.run_mk, run_change, h, Work.run_lift, run_count, Work.run_pure]
    rfl
  rcases hk with hk | ⟨_, s, hs, hk⟩
  · refine ⟨false, t, _, hrun.trans ?_, .inl ⟨rfl, rfl⟩⟩
    rw [noteTrigger, hk]
    rfl
  · obtain ⟨k, hlast, rfl⟩ := Store.noteTrigger_eq_ok hs
    refine ⟨true, t, _, hrun.trans ?_, .inr ⟨rfl, k, hlast, rfl⟩⟩
    rw [noteTrigger, hk]
    rfl

/-- What came of a rule, and whether the account of it is complete: no record was lost,
or more were lost than before. -/
def Accounted (rule : Rule) (now : Moment) (w : World) (r : Report) (v : World) : Prop :=
  w.memory.lost < v.memory.lost ∨
    v.memory.lost = w.memory.lost ∧ (Audit rule now w r v ∨ Miscount rule now w r v)

/-- The dispatcher tries the actions, unless it is laid down to fail as a whole. -/
theorem dispatch_run (actions : List Action) (o : Occasion) (w : World) :
    (Dispatch.run actions o).run.run w = match w.consult .dispatch with
      | (some f, v) => (.error f, v)
      | (none, v) => (.ok ((Dispatch.tryFrom 0 o actions).run v).1,
          ((Dispatch.tryFrom 0 o actions).run v).2) := by
  unfold Dispatch.run Work.consult
  rw [Work.run_bind]
  simp only [Work.run_mk, run_change]
  rcases w.consult .dispatch with ⟨_ | f, v⟩
  · exact Work.run_lift _ _
  · rfl

variable {e : Evaluation} {s : Snapshot} {t : Table Contact (Script (Option Fault))}

section Fire

variable {outcomes : List Outcome} {u v z : World}

/-- A rule whose actions all succeeded is marked and recorded, and an event tells of it. -/
theorem fire_of_success
    (dispatched : (Dispatch.run rule.actions ⟨rule.id, rule.name, now, some s⟩).run.run v
      = (.ok outcomes, u))
    (success : outcomes.all Outcome.succeeded = true) {noted : Bool}
    (marked : (markTriggered rule now).run.run u = (.ok noted, z)) :
    (fire rule now e s).run.run v = (.ok (.triggered (tried rule now e s outcomes) noted),
      ((record (tried rule now e s outcomes)).run z).2.announce
        (announcement rule now outcomes)) := by
  have hx : { execution rule now e s with
      success := true
      actions := outcomes.map Outcome.toDoc
      error := Outcome.complaint? outcomes } = tried rule now e s outcomes := by
    rw [tried, success]
  unfold fire announcement
  rw [Work.run_bind, dispatched]
  simp only [success, if_true, Work.run_bind, marked, Work.run_lift, Work.run_pure, hx]
  rfl

/-- A rule of which an action failed is counted and recorded, and an event tells of it. -/
theorem fire_of_failure
    (dispatched : (Dispatch.run rule.actions ⟨rule.id, rule.name, now, some s⟩).run.run v
      = (.ok outcomes, u))
    (failure : outcomes.all Outcome.succeeded = false) :
    (fire rule now e s).run.run v = (.ok (.failed (tried rule now e s outcomes)),
      ((record (tried rule now e s outcomes)).run u.countFailed).2.announce
        (announcement rule now outcomes)) := by
  have hx : { execution rule now e s with
      success := false
      actions := outcomes.map Outcome.toDoc
      error := Outcome.complaint? outcomes } = tried rule now e s outcomes := by
    rw [tried, failure]
  unfold fire announcement
  rw [Work.run_bind, dispatched]
  simp only [failure, Bool.false_eq_true, if_false, countFailure, Work.run_bind, Work.run_lift,
    Work.run_pure, hx]
  rfl

/-- A rule whose actions cannot be dispatched ends in that fault. -/
theorem fire_of_fault {f : Fault}
    (dispatched : (Dispatch.run rule.actions ⟨rule.id, rule.name, now, some s⟩).run.run v
      = (.error f, u)) : (fire rule now e s).run.run v = (.error f, u) := by
  unfold fire
  rw [Work.run_bind, dispatched]

end Fire

/-- A rule whose actions were tried is accounted for. -/
theorem tried_accounted {outcomes : List Outcome} {u : World}
    (verdict : Verdict rule now w (.ok (e, s)) t) (holds : e.result = true)
    (actions : Tried rule now w s outcomes u)
    (hd : (Dispatch.run rule.actions ⟨rule.id, rule.name, now, some s⟩).run.run (w.looked.failing t)
      = (.ok outcomes, u)) :
    ∃ r v, (fire rule now e s).run.run (w.looked.failing t) = (.ok r, v) ∧
      Accounted rule now w r v := by
  have hlost : u.memory.lost = w.memory.lost :=
    congrArg (fun i : Interior => i.memory.lost) actions.apart
  have hcool : u.memory.cooldowns = w.memory.cooldowns :=
    congrArg (fun i : Interior => i.memory.cooldowns) actions.apart
  cases hs : outcomes.all Outcome.succeeded with
  | true =>
    obtain ⟨last, n, c, hmark⟩ := mark_of_eligible actions.eligible
    obtain ⟨noted, t₁, v₁, hrun, hv₁⟩ :=
      markTriggered_run (w := u) rule now (hcool.symm ▸ hmark)
    refine ⟨_, _, fire_of_success hd hs hrun, ?_⟩
    obtain ⟨t₂, hrec⟩ := record_run (tried rule now e s outcomes) v₁
    generalize ((record (tried rule now e s outcomes)).run v₁).2 = v₂ at hrec
    rcases hv₁ with ⟨rfl, rfl⟩ | ⟨rfl, k, hk, rfl⟩
    · refine .inl ?_
      rcases hrec with rfl | ⟨i, hi, rfl⟩
      · exact hlost ▸ Nat.lt_succ_of_lt (Nat.lt_succ_self _)
      · exact hlost ▸ Nat.lt_succ_self _
    · rcases hrec with rfl | ⟨i, hi, rfl⟩
      · exact .inl (hlost ▸ Nat.lt_succ_self _)
      · refine .inr ⟨hlost, .inl ?_⟩
        show Audit rule now w _ ((((u.credit rule.id c k n).countTriggered.write
          (tried rule now e s outcomes) i).announce (announcement rule now outcomes)).failing t₂)
        exact .triggered verdict holds actions hs hmark hk hi
  | false =>
    refine ⟨_, _, fire_of_failure hd hs, ?_⟩
    obtain ⟨t₂, hrec⟩ := record_run (tried rule now e s outcomes) u.countFailed
    generalize ((record (tried rule now e s outcomes)).run u.countFailed).2 = v₂ at hrec
    rcases hrec with rfl | ⟨i, hi, rfl⟩
    · exact .inl (hlost ▸ Nat.lt_succ_self _)
    · exact .inr ⟨hlost, .inl (.failed verdict holds actions hs hi)⟩

/-- A rule that may fire has its actions tried, unless the dispatcher as a whole fails. -/
theorem fire_run (verdict : Verdict rule now w (.ok (e, s)) t) (holds : e.result = true)
    (eligible : w.memory.cooldowns.eligible rule.id now = .ok true) :
    (∃ r v, (fire rule now e s).run.run (w.looked.failing t) = (.ok r, v) ∧
      Accounted rule now w r v) ∨
    ∃ f t', (fire rule now e s).run.run (w.looked.failing t) = (.error f, w.looked.failing t') ∧
      Stumbles rule now w (some (e, s)) f := by
  have hd := dispatch_run rule.actions ⟨rule.id, rule.name, now, some s⟩ (w.looked.failing t)
  obtain ⟨t₁, ht₁⟩ := (w.looked.failing t).consult_failing .dispatch
  rcases hc : (w.looked.failing t).consult .dispatch with ⟨_ | f, v⟩
  · rw [hc] at ht₁ hd
    cases ht₁
    refine .inl (tried_accounted verdict holds ⟨eligible, ⟨t₁, rfl⟩, tryFrom_each _ _ 0 _, ?_⟩ hd)
    exact (apart_tryFrom 0 _ rule.actions).interior_eq (w.looked.failing t₁)
  · rw [hc] at ht₁ hd
    cases ht₁
    exact .inr ⟨f, t₁, fire_of_fault hd, .dispatcher verdict holds eligible (congrArg Prod.fst hc)⟩

/-- A rule that stumbles is accounted for. -/
theorem stumbled_accounted {judged : Option (Evaluation × Snapshot)} {f : Fault}
    (cause : Stumbles rule now w judged f) :
    Accounted rule now w ((recordFault rule now judged f).run (w.looked.failing t)).1
      ((recordFault rule now judged f).run (w.looked.failing t)).2 := by
  obtain ⟨t', v, hrun, rfl | ⟨i, hi, rfl⟩⟩ := recordFault_run rule now judged f
    (w.looked.failing t)
  · rw [hrun]
    exact .inl (Nat.lt_succ_self _)
  · rw [hrun]
    exact .inr ⟨rfl, .inl (.stumbled cause hi)⟩

/-- A rule that is cooling down is accounted for, whether or not its time left can be told. -/
theorem suppress_accounted (verdict : Verdict rule now w (.ok (e, s)) t) (holds : e.result = true)
    (cooling : w.memory.cooldowns.eligible rule.id now = .ok false) :
    (∃ r v, (suppress rule now e s).run.run (w.looked.failing t) = (.ok r, v) ∧
      Accounted rule now w r v) ∨
    ∃ f v, (suppress rule now e s).run.run (w.looked.failing t) = (.error f, v) ∧
      Accounted rule now w ((recordFault rule now (some (e, s)) f).run v).1
        ((recordFault rule now (some (e, s)) f).run v).2 := by
  rcases suppress_run rule now e s (w.looked.failing t) with
    ⟨f, hf, hrun⟩ | ⟨left, t', v, hleft, hrun, hv⟩
  · refine .inr ⟨f, _, hrun, ?_⟩
    obtain ⟨t', v, hrun, rfl | ⟨i, hi, rfl⟩⟩ := recordFault_run rule now
      (some (e, s)) f (w.looked.failing t).countSuppressed
    · rw [hrun]
      exact .inl (Nat.lt_succ_self _)
    · rw [hrun]
      exact .inr ⟨rfl, .inr (.intro verdict holds cooling
        ((Cooldown.remaining_error_iff cooling).1 ⟨f, hf⟩) hf hi)⟩
  · refine .inl ⟨_, v, hrun, ?_⟩
    rcases hv with rfl | ⟨i, hi, rfl⟩
    · exact .inl (Nat.lt_succ_self _)
    · exact .inr ⟨rfl, .inl (.suppressed verdict holds cooling hleft hi)⟩

/-- In a tick the cooldown decides what follows on a rule whose conditions hold. -/
theorem respond_run (rule : Rule) (now : Moment) (e : Evaluation) (s : Snapshot) (w : World) :
    (respond rule now false e s).run.run w = match w.memory.cooldowns.eligible rule.id now with
      | .error f => (.error f, w)
      | .ok true => (fire rule now e s).run.run w
      | .ok false => (suppress rule now e s).run.run w := by
  unfold respond eligible
  simp only [Bool.false_eq_true, if_false, Work.run_bind, Work.run_lift, run_look,
    Work.run_ofExcept]
  rcases w.memory.cooldowns.eligible rule.id now with f | _ | _
  · rfl
  · rfl
  · rfl

/-- A rule whose conditions hold is accounted for, whatever the tracker says. -/
theorem respond_accounted (verdict : Verdict rule now w (.ok (e, s)) t)
    (holds : e.result = true) :
    (∃ r v, (respond rule now false e s).run.run (w.looked.failing t) = (.ok r, v) ∧
      Accounted rule now w r v) ∨
    ∃ f v, (respond rule now false e s).run.run (w.looked.failing t) = (.error f, v) ∧
      Accounted rule now w ((recordFault rule now (some (e, s)) f).run v).1
        ((recordFault rule now (some (e, s)) f).run v).2 := by
  rw [respond_run, show (w.looked.failing t).memory.cooldowns = w.memory.cooldowns from rfl]
  rcases hmay : w.memory.cooldowns.eligible rule.id now with f | _ | _
  · exact .inr ⟨f, _, rfl, stumbled_accounted (.cooldown verdict holds hmay)⟩
  · exact suppress_accounted verdict holds hmay
  · rcases fire_run verdict holds hmay with h | ⟨f, t', hrun, cause⟩
    · exact .inl h
    · exact .inr ⟨f, _, hrun, stumbled_accounted cause⟩

/-- Looking at a rule in a tick is accounted for. -/
theorem processRule_accounted (rule : Rule) (now : Moment) (w : World) :
    Accounted rule now w ((processRule rule now false false).run w).1
      ((processRule rule now false false).run w).2 := by
  rcases hrun : (processRule rule now false false).run w with ⟨r, v⟩
  have reads : ∀ {x u}, (evaluate rule.conditions now).run.run w.looked = (x, u) →
      ∃ t, u = w.looked.failing t ∧ Verdict rule now w x t := by
    intro x u hx
    obtain ⟨t, ht⟩ := Work.Reads.evaluate rule.conditions now w.looked
    obtain rfl : u = w.looked.failing t := (congrArg Prod.snd hx).symm.trans ht
    exact ⟨t, rfl, hx⟩
  cases processRule_processed hrun with
  | unjudged judged record =>
    obtain ⟨t, rfl, verdict⟩ := reads judged
    have h := stumbled_accounted (t := t) (.evaluation verdict)
    rwa [record] at h
  | notMatched judged hold =>
    obtain ⟨t, rfl, verdict⟩ := reads judged
    exact .inr ⟨rfl, .inl (.notMatched verdict hold)⟩
  | responded judged hold respond =>
    obtain ⟨t, rfl, verdict⟩ := reads judged
    rcases respond_accounted verdict (hold.resolve_right Bool.false_ne_true) with
      ⟨_, _, hrun, h⟩ | ⟨_, _, hrun, -⟩
    · cases respond.symm.trans hrun
      exact h
    · cases respond.symm.trans hrun
  | faulted judged hold respond record =>
    obtain ⟨t, rfl, verdict⟩ := reads judged
    rcases respond_accounted verdict (hold.resolve_right Bool.false_ne_true) with
      ⟨_, _, hrun, -⟩ | ⟨_, _, hrun, h⟩
    · cases respond.symm.trans hrun
    · cases respond.symm.trans hrun
      rwa [record] at h

end Look

/-! ## Ticks -/

/-- What looking at rules one after the other writes, and how many of them are miscounted. -/
inductive Audits (now : Moment) : List Rule → World → List Report → Nat → World → Prop
  | nil (w : World) : Audits now [] w [] 0 w
  | cons {rule : Rule} {rules : List Rule} {w v w' : World} {r : Report} {rs : List Report}
      {k : Nat} (first : Audit rule now w r v) (rest : Audits now rules v rs k w') :
      Audits now (rule :: rules) w (r :: rs) k w'
  | miscounted {rule : Rule} {rules : List Rule} {w v w' : World} {r : Report}
      {rs : List Report} {k : Nat} (first : Miscount rule now w r v)
      (rest : Audits now rules v rs k w') : Audits now (rule :: rules) w (r :: rs) (k + 1) w'

/-- Where no record is lost, looking at rules is accounted for rule by rule. -/
theorem processAll_audits (now : Moment) (rules : List Rule) (w : World) :
    w.memory.lost ≤ ((processAll now rules).run w).2.memory.lost ∧
      (((processAll now rules).run w).2.memory.lost = w.memory.lost →
        ∃ k, Audits now rules w ((processAll now rules).run w).1 k
          ((processAll now rules).run w).2) := by
  induction rules generalizing w with
  | nil => exact ⟨Nat.le_refl _, fun _ => ⟨0, .nil w⟩⟩
  | cons rule rules ih =>
    unfold processAll
    simp only [run_bind', run_pure]
    obtain ⟨hle, hrest⟩ := ih ((processRule rule now false false).run w).2
    rcases processRule_accounted rule now w with hlost | ⟨hkept, hone⟩
    · exact ⟨Nat.le_of_lt (Nat.lt_of_lt_of_le hlost hle), fun h => by omega⟩
    · refine ⟨hkept ▸ hle, fun h => ?_⟩
      obtain ⟨k, hk⟩ := hrest (h.trans hkept.symm)
      rcases hone with first | first
      · exact ⟨k, .cons first hk⟩
      · exact ⟨k + 1, .miscounted first hk⟩

end Engine

namespace World

/-- A world in which a tick has begun, has loaded its rules and has put them in order. -/
def opened (t : Table Contact (Script (Option Fault))) (w : World) : World :=
  ((w.locking.ticked.failing t).refuse w.books.refusals).prepared w.books.built

/-- A world in which a tick has ended. -/
def closed (w : World) : World :=
  { w.settled with memory := { w.settled.memory with locked := false } }

/-- The rules of a tick in the order in which they are looked at. -/
def lined (w : World) : List Rule := (w.memory.order.sort w.books.built).1

end World

namespace Engine

variable {w : World}

/-- A tick whose rows can all be read looks at the rules that they hold. -/
theorem tickWith_run (now : Moment) (aware : w.memory.cooldowns.Aware)
    (calm : ∀ row ∈ w.books.enabledRows, ¬ row.Raises) :
    (tickWith now w.books.enabledRows).run.run w
      = (.ok (.done now w.lined
            ((processAll now w.lined).run ((w.refuse w.books.refusals).prepared w.books.built)).1),
          ((processAll now w.lined).run
            ((w.refuse w.books.refusals).prepared w.books.built)).2.settled) := by
  have hsift : sift w.books.enabledRows = (.ok w.books.built, w.books.refusals) := by
    rcases hs : sift w.books.enabledRows with ⟨_ | rules, n⟩
    · obtain ⟨row, hrow, hraises⟩ := sift_error_iff.1 ⟨_, _, hs⟩
      exact absurd hraises (calm row hrow)
    · obtain ⟨rfl, rfl⟩ := sift_built hs
      rfl
  rw [tickWith_eq, hsift]
  dsimp only
  rw [Cooldown.refresh_of_aware aware w.books.built_aware]
  rfl

/-- A tick that has the lock is counted, and goes on with the rows that it loads. -/
theorem tickLocked_loads (load : (w.consult .enabledRules).1 = none) :
    ∃ t, tickLocked.run.run w
      = (tickWith w.clock w.books.enabledRows).run.run (w.ticked.failing t) := by
  obtain ⟨t, ht⟩ := w.ticked.consult_failing .enabledRules
  have hload : (w.ticked.consult .enabledRules).1 = none := by
    rw [← load, World.consult_fst, World.consult_fst]
    rfl
  refine ⟨t, ?_⟩
  rw [tickLocked_eq]
  rcases hc : w.ticked.consult .enabledRules with ⟨_ | f, v⟩
  · rw [hc] at ht
    obtain rfl : v = w.ticked.failing t := ht
    rfl
  · rw [hc] at hload
    cases hload

/-- A tick that has the lock, loads its rows and can read them all comes to its end. -/
theorem tickLocked_run (load : (w.consult .enabledRules).1 = none)
    (aware : w.memory.cooldowns.Aware) (calm : ∀ row ∈ w.books.enabledRows, ¬ row.Raises) :
    ∃ t, tickLocked.run.run w
      = (.ok (.done w.clock w.lined ((processAll w.clock w.lined).run
            (((w.ticked.failing t).refuse w.books.refusals).prepared w.books.built)).1),
          ((processAll w.clock w.lined).run (((w.ticked.failing t).refuse
            w.books.refusals).prepared w.books.built)).2.settled) := by
  obtain ⟨t, ht⟩ := tickLocked_loads load
  exact ⟨t, ht.trans (tickWith_run (w := w.ticked.failing t) w.clock aware calm)⟩

/-- A tick that begins takes the lock and frees it at its end. -/
theorem round_begins (free : w.memory.locked = false) (begins : (w.consult .tick).1 = none) :
    ∃ t, ((w.failing t).locking.consult .enabledRules).1 = (w.consult .enabledRules).1
      ∧ round.run.run w = ((tickLocked.run.run (w.failing t).locking).1.map some,
        (tickLocked.run.run (w.failing t).locking).2.unlocked) := by
  obtain ⟨t, ht⟩ := w.consult_failing .tick
  have hload := World.consult_fst_of_ne (c := .tick) (d := .enabledRules) nofun w
  rw [ht] at hload
  have hload' : ((w.failing t).locking.consult .enabledRules).1
      = (w.consult .enabledRules).1 := by
    rw [← hload, World.consult_fst, World.consult_fst]
    rfl
  refine ⟨t, hload', ?_⟩
  have hfree : (w.failing t).memory.locked = false := free
  rw [round_eq]
  rcases hc : w.consult .tick with ⟨_ | f, v⟩
  · rw [hc] at ht
    obtain rfl : v = w.failing t := ht
    exact if_neg (Bool.eq_false_iff.1 hfree)
  · rw [hc] at begins
    cases begins

/-- A tick in numbers is one in full, with its summary. -/
theorem run_tick (w : World) :
    tick.run.run w = ((round.run.run w).1.map (·.map Round.summary), (round.run.run w).2) := by
  unfold tick
  rw [Work.run_bind]
  rcases round.run.run w with ⟨f | r, v⟩
  · rfl
  · rfl

theorem tick_begins (free : w.memory.locked = false) (begins : (w.consult .tick).1 = none) :
    ∃ t, ((w.failing t).locking.consult .enabledRules).1 = (w.consult .enabledRules).1
      ∧ tick.run.run w = ((tickLocked.run.run (w.failing t).locking).1.map (some ·.summary),
        (tickLocked.run.run (w.failing t).locking).2.unlocked) := by
  obtain ⟨t, hload, hround⟩ := round_begins free begins
  refine ⟨t, hload, ?_⟩
  rw [run_tick, hround]
  rcases tickLocked.run.run (w.failing t).locking with ⟨f | r, u⟩
  · rfl
  · rfl

/-- A tick that begins, loads its rows and can read them all comes to its end. -/
theorem round_run (free : w.memory.locked = false) (begins : (w.consult .tick).1 = none)
    (load : (w.consult .enabledRules).1 = none) (aware : w.memory.cooldowns.Aware)
    (calm : ∀ row ∈ w.books.enabledRows, ¬ row.Raises) :
    ∃ t, round.run.run w
      = (.ok (some (.done w.clock w.lined ((processAll w.clock w.lined).run (w.opened t)).1)),
          ((processAll w.clock w.lined).run (w.opened t)).2.closed) := by
  obtain ⟨t, hload, hround⟩ := round_begins free begins
  obtain ⟨t', hlocked⟩ :=
    tickLocked_run (w := (w.failing t).locking) (hload.trans load) aware calm
  refine ⟨t', ?_⟩
  rw [hround, hlocked]
  rfl

theorem tick_run (free : w.memory.locked = false) (begins : (w.consult .tick).1 = none)
    (load : (w.consult .enabledRules).1 = none) (aware : w.memory.cooldowns.Aware)
    (calm : ∀ row ∈ w.books.enabledRows, ¬ row.Raises) :
    ∃ t, tick.run.run w
      = (.ok (some (Round.done w.clock w.lined
            ((processAll w.clock w.lined).run (w.opened t)).1).summary),
          ((processAll w.clock w.lined).run (w.opened t)).2.closed) := by
  obtain ⟨t, hround⟩ := round_run free begins load aware calm
  exact ⟨t, by rw [run_tick, hround]; rfl⟩

end Engine

/-! ## Counts -/

/-- Counts after a tick with a summary, where some rules were counted as suppressed that
the summary does not have as suppressed. -/
def Tally.gain (t : Tally) (s : Summary) (miscounted : Nat) : Tally :=
  { t with
    evaluated := t.evaluated + s.evaluated
    triggered := t.triggered + s.triggered
    suppressed := t.suppressed + s.suppressed + miscounted
    failed := t.failed + s.failed }

namespace Engine

variable {rule : Rule} {now : Moment} {w v : World} {r : Report} {t : Tally} {s : Summary} {k : Nat}

/-- A rule is counted as the summary has it. -/
theorem Audit.tally (h : Audit rule now w r v) (hw : w.memory.tally = t.gain s k) :
    v.memory.tally = t.gain (s.add r) k := by
  have hlooked : w.looked.memory.tally = { t.gain s k with
      evaluated := t.evaluated + s.evaluated + 1 } := by
    rw [← hw]
    show ({ w.memory.tally with evaluated := w.memory.tally.evaluated + 1 } : Tally) = _
    rw [hw]
    rfl
  cases h with
  | notMatched => exact hlooked
  | suppressed =>
    show ({ w.looked.memory.tally with
      suppressed := w.looked.memory.tally.suppressed + 1 } : Tally) = _
    rw [hlooked]
    simp only [Tally.gain, Summary.add, Nat.add_right_comm _ k 1, Nat.add_assoc]
  | @triggered _ _ _ u _ _ _ _ _ _ _ _ _ actions =>
    have hu : u.memory.tally = w.looked.memory.tally :=
      congrArg (fun i : Interior => i.memory.tally) actions.apart
    show ({ u.memory.tally with triggered := u.memory.tally.triggered + 1 } : Tally) = _
    rw [hu, hlooked]
    rfl
  | @failed _ _ _ u _ _ _ _ _ actions =>
    have hu : u.memory.tally = w.looked.memory.tally :=
      congrArg (fun i : Interior => i.memory.tally) actions.apart
    show ({ u.memory.tally with failed := u.memory.tally.failed + 1 } : Tally) = _
    rw [hu, hlooked]
    rfl
  | stumbled =>
    show ({ w.looked.memory.tally with failed := w.looked.memory.tally.failed + 1 } : Tally) = _
    rw [hlooked]
    rfl

/-- A rule that is miscounted is counted once more as suppressed than the summary has it. -/
theorem Miscount.tally (h : Miscount rule now w r v) (hw : w.memory.tally = t.gain s k) :
    v.memory.tally = t.gain (s.add r) (k + 1) := by
  cases h with
  | intro =>
    show ({ w.memory.tally with
      evaluated := w.memory.tally.evaluated + 1
      suppressed := w.memory.tally.suppressed + 1
      failed := w.memory.tally.failed + 1 } : Tally) = _
    rw [hw]
    rfl

/-- The counts after looking at rules are those of the summary, and one more for each rule
that was miscounted. -/
theorem Audits.tally {rules : List Rule} {reports : List Report} {n : Nat}
    (h : Audits now rules w reports n v) (hw : w.memory.tally = t.gain s k) :
    v.memory.tally = t.gain (reports.foldl Summary.add s) (k + n) := by
  induction h generalizing s k with
  | nil => exact hw
  | cons first _ ih => exact ih (first.tally hw)
  | miscounted first _ ih =>
    rw [ih (first.tally hw), Nat.add_right_comm k 1, Nat.add_assoc]
    rfl

end Engine

/-! ## What a tick writes -/

/-- **What a tick writes.** A tick that begins, loads its rows, can read them all and loses
no record comes to its end with a summary. It looks at every rule that its rows hold, once
and one after the other. What it writes about each is one of the four things of `Audit`,
except for rules that are cooling down for longer than any span, which are miscounted. The
counts grow by the numbers of the summary, and the count of suppressed rules by one more for
each rule that was miscounted. -/
theorem tick_audits (w : World) (free : w.memory.locked = false)
    (begins : (w.consult .tick).1 = none) (load : (w.consult .enabledRules).1 = none)
    (aware : w.memory.cooldowns.Aware) (calm : ∀ row ∈ w.books.enabledRows, ¬ row.Raises)
    (kept : (Engine.tick.run.run w).2.memory.lost = w.memory.lost) :
    ∃ rules reports miscounted t v, rules.Perm w.books.built ∧
      Engine.Audits w.clock rules (w.opened t) reports miscounted v ∧
      Engine.tick.run.run w = (.ok (some (Round.done w.clock rules reports).summary), v.closed) ∧
      v.memory.tally = (w.opened t).memory.tally.gain (Round.done w.clock rules reports).summary
        miscounted := by
  obtain ⟨t, hrun⟩ := Engine.tick_run free begins load aware calm
  obtain ⟨-, haudits⟩ := Engine.processAll_audits w.clock w.lined (w.opened t)
  have hlost : ((Engine.processAll w.clock w.lined).run (w.opened t)).2.memory.lost
      = (w.opened t).memory.lost := by
    rw [hrun] at kept
    exact kept
  obtain ⟨k, hk⟩ := haudits hlost
  have hperm : w.lined.Perm w.books.built :=
    w.memory.order.sortBy_perm (fun r : Rule => r.id) (fun r => r.priority) w.books.built
  have htally := hk.tally (t := (w.opened t).memory.tally) (s := { startedAt := w.clock }) (k := 0)
    rfl
  rw [Nat.zero_add] at htally
  exact ⟨w.lined, _, k, t, _, hperm, hk, hrun, htally⟩

/-- A rule that always holds, puts a job into a queue and commands a device. -/
def Definition.chore : Definition :=
  { Definition.vent with
    actions := [.job { queue := "chores" }, .device ⟨"fan", .turnOn, none, none⟩] }

/-- Where the device is missing, a tick tries both actions, writes one execution that is a
failure, and miscounts nothing. -/
theorem tick_audits_chore :
    ∃ rules reports t v, rules.Perm (World.holding [.ofDefinition 1 .chore]).books.built ∧
      Engine.Audits (World.quiet 0).clock rules
        ((World.holding [.ofDefinition 1 .chore]).opened t) reports 0 v ∧
      v.store.executions.map (fun x => (x.success, x.suppressed)) = [(false, false)] ∧
      v.store.jobs.length = 1 ∧ v.memory.tally.failed = 1 := by
  have hcalm : ∀ row ∈ [RuleRow.ofDefinition 1 .chore], ¬ row.Raises := by decide +kernel
  obtain ⟨rules, reports, k, t, v, hperm, haudits, hrun, htally⟩ :=
    tick_audits (.holding [.ofDefinition 1 .chore]) rfl rfl rfl (fun _ _ => nofun)
      (fun row hrow => hcalm row (Books.mem_of_enabledRows hrow)) (by decide +kernel)
  have hv : (Engine.tick.run.run (.holding [.ofDefinition 1 .chore])).2 = v.closed :=
    congrArg Prod.snd hrun
  have hsuppressed : (Engine.tick.run.run
      (.holding [.ofDefinition 1 .chore])).2.memory.tally.suppressed = 0 := by decide +kernel
  have hk : k = 0 := by
    rw [hv] at hsuppressed
    have hs : v.memory.tally.suppressed = 0 := hsuppressed
    rw [htally] at hs
    exact (Nat.add_eq_zero_iff.1 hs).2
  subst hk
  refine ⟨rules, reports, t, v, hperm, haudits, ?_, ?_, ?_⟩
  · show v.closed.store.executions.map _ = _
    rw [← hv]
    decide +kernel
  · show v.closed.store.jobs.length = _
    rw [← hv]
    decide +kernel
  · show v.closed.memory.tally.failed = _
    rw [← hv]
    decide +kernel

/-- A rule that is silent for as long as a span can be. -/
def Definition.silent : Definition := { Definition.vent with cooldown := 1439999999999 }

/-- A world at midnight with that rule, which fired a minute after midnight. -/
def World.rewound : World :=
  .holding [{ RuleRow.ofDefinition 1 .silent with
    lastTriggered := some (World.quiet 1).clock.wall
    triggerCount := 1 }]

/-- A rule that is cooling down is not suppressed but fails, and is counted as both. -/
theorem rewound_counted_twice :
    World.rewound.memory.locked = false ∧ (World.rewound.consult .tick).1 = none ∧
      (World.rewound.consult .enabledRules).1 = none ∧ World.rewound.memory.cooldowns.Aware ∧
      (∀ row ∈ World.rewound.books.enabledRows, ¬ row.Raises) ∧
      (Engine.tick.run.run World.rewound).2.memory.lost = World.rewound.memory.lost ∧
      World.rewound.books.built.map (·.id) = [1] ∧
      ((World.rewound.opened []).memory.cooldowns.eligible 1 World.rewound.clock).toOption
        = some false ∧
      (Engine.tick.run.run World.rewound).1.toOption.join.map (fun s => (s.suppressed, s.failed))
        = some (0, 1) ∧
      (Engine.tick.run.run World.rewound).2.memory.tally.suppressed = 1 ∧
      (Engine.tick.run.run World.rewound).2.store.executions.map
        (fun x => (x.success, x.suppressed)) = [(false, false)] := by
  have hcalm : ∀ row ∈ World.rewound.store.rules, ¬ row.Raises := by decide +kernel
  exact ⟨rfl, rfl, rfl, fun _ _ => nofun,
    fun row hrow => hcalm row (Books.mem_of_enabledRows hrow), by decide +kernel,
    by decide +kernel, by decide +kernel, by decide +kernel, by decide +kernel, by decide +kernel⟩

end Glasshouse
