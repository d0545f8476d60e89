/-
Glasshouse.Proofs.Engine.Accounts — the engine's accounts agree in every state that
it reaches. A rule's count and its last time, its executions, and what the
tracker holds about it all tell of the same triggers (`Agree`). The tracker only
repeats what is stored: without it everything goes on in the same way. Main
statement: `accounts_agree`.

Side conditions of the main statement. Histories begin without rules
(`World.Fresh`) and keep to `Terms.orderly`: clocks of universal time, no rule
deleted, no trigger by hand that waits for the lock while others go on. Deleting a
rule takes its executions away, and a trigger that waits may be missed in the count
(Engine.Counts tells when). No record was lost up to the state that is looked at:
what is not written cannot agree.
-/
import Glasshouse.Proofs.Engine.TrackerChange

namespace Glasshouse

open Calendar

namespace Calendar.Moment

/-- The first moment of the calendar. -/
def earliest : Moment := ofInstant 0

/-- The last moment of the calendar. -/
def latest : Moment := ofInstant (endOfTime - 1)

end Calendar.Moment

/-- What the store and the tracker say about the triggers of a rule agrees. -/
structure Agree (w : World) (row : RuleRow) : Prop where
  /-- The count is the number of triggers among the executions. -/
  triggers : row.triggerCount = (triggersOf w.store.executions row.id).length
  /-- It is also what the statistics of all time say. -/
  stats : ∃ s, w.store.stats row.id .earliest .latest = .ok s
    ∧ row.triggerCount = (s.successful : Int) - s.suppressed
  last : row.lastTriggered = latestOf (triggersOf w.store.executions row.id)
  tracker : w.memory.cooldowns.Holds row.id → w.memory.cooldowns.Mirrors row

/-- The statistics of all time count all executions of a rule. -/
theorem Store.stats_of_dated {s : Store} {id : Int} (hid : fits id = true)
    (hd : ∀ e ∈ s.executions, inCalendar e.triggeredAt = true) :
    ∃ r, s.stats id .earliest .latest = .ok r
      ∧ r.successful = (s.executions.filter (·.ruleId == id)).countP (·.success)
      ∧ r.suppressed = (s.executions.filter (·.ruleId == id)).countP (·.suppressed) := by
  have hfirst : instantOf .earliest = .ok 0 := rfl
  have hlast : instantOf .latest = .ok (endOfTime - 1) := rfl
  have hfits : requireFits [id] = .ok () := requireFits_eq_ok.2 (by simp [hid])
  have hrows : (s.executions.filter fun e =>
      e.ruleId == id && decide ((0 : Int) ≤ e.triggeredAt)
        && decide (e.triggeredAt ≤ endOfTime - 1)) = s.executions.filter (·.ruleId == id) := by
    refine List.filter_congr fun e he => ?_
    have h := hd e he
    simp only [inCalendar, Bool.and_eq_true, decide_eq_true_eq] at h
    have hstop : e.triggeredAt ≤ endOfTime - 1 := Int.le_sub_one_of_lt h.2
    simp [h.1, hstop]
  simp only [stats, hfirst, hlast, hfits]
  refine ⟨_, rfl, ?_, ?_⟩
  · exact congrArg (List.countP (·.success)) hrows
  · exact congrArg (List.countP (·.suppressed)) hrows

/-- In books in which the accounts agree, they agree about every rule. -/
theorem Balanced.agree {w : World} (h : Balanced w.books) (hn : w.books.ids.Nodup)
    {row : RuleRow} (hrow : row ∈ w.store.rules) : Agree w row := by
  obtain ⟨s, hs, hsuccess, hsuppressed⟩ := Store.stats_of_dated (h.fits row hrow) h.dated
  have hcount : row.triggerCount = (triggersOf w.store.executions row.id).length := h.count row hrow
  refine ⟨hcount, ⟨s, hs, ?_⟩, h.last row hrow, h.mirrors hn hrow⟩
  -- a suppressed execution counts as a success, so taking these away leaves the triggers
  have hsound : ∀ e ∈ w.store.executions.filter (·.ruleId == row.id),
      e.suppressed = true → e.success = true :=
    fun e he => h.sound e (List.mem_filter.1 he).1
  have hfired : (triggersOf w.store.executions row.id).length
      = (w.store.executions.filter (·.ruleId == row.id)).countP ExecutionRow.fired := by
    rw [List.countP_eq_length_filter, List.filter_filter]
    refine congrArg List.length (List.filter_congr fun e _ => ?_)
    exact Bool.and_comm ..
  rw [hcount, hfired, hsuccess, hsuppressed, countP_success hsound]
  omega

/-- Histories of one operation after the other, without deletion, on universal time. -/
def Terms.orderly : Terms where
  clock := Moment.Utc
  deletes := False
  waits := False

theorem Terms.orderly_fair : Terms.orderly.Fair := ⟨fun _ h => h.aware, False.elim⟩

theorem World.Fresh.balanced {w : World} (h : w.Fresh) : Balanced w.books := by
  have hrules : w.books.rules = [] := h.rules
  have hnone : w.books.executions = [] := h.executions
  have hempty : w.books.cooldowns = {} := h.cooldowns
  refine ⟨⟨?_, ?_, ?_, ?_⟩, ?_, ?_, fun id hh => ?_⟩
  all_goals simp_all [Cooldown.not_holds_empty]

/-- In every state that a history reaches from a world without rules, and that has lost
no record, the accounts of all rules agree, and whatever is done from there on leaves
the same log if the tracker is emptied before. -/
theorem accounts_agree {w : World} (fresh : w.Fresh) (utc : w.clock.Utc)
    {before after : List Happening} (terms : ∀ h ∈ before ++ after, h.Under .orderly)
    (lost : (live before ⟨w, []⟩).2.world.memory.lost = w.memory.lost) :
    (∀ row ∈ (live before ⟨w, []⟩).2.world.store.rules,
        Agree (live before ⟨w, []⟩).2.world row)
      ∧ (live after ⟨(live before ⟨w, []⟩).2.world.track {}, []⟩).1
        = (live after (live before ⟨w, []⟩).2).1 := by
  have hbefore : ∀ h ∈ before, h.Under .orderly := fun h hh => terms h (List.mem_append_left _ hh)
  have hafter : ∀ h ∈ after, h.Under .orderly := fun h hh => terms h (List.mem_append_right _ hh)
  have hfair := Terms.orderly_fair
  have hstart : (Scene.mk w []).Sane .orderly := fresh.sane utc
  have hsane := live_sane hfair hbefore hstart
  have hbalanced : Balanced (live before ⟨w, []⟩).2.world.books :=
    (live_chain hfair hbefore hstart).balanced (fun _ h => h) id id hstart.books fresh.balanced lost
  refine ⟨fun row hrow => hbalanced.agree hsane.books.nodup hrow, ?_⟩
  have hwaiting : (live before ⟨w, []⟩).2.waiting = [] :=
    List.eq_nil_iff_forall_not_mem.2 fun p hp => (hsane.waiting p hp).1
  have hscenes : ScenesSameButTracker (live before ⟨w, []⟩).2
      ⟨(live before ⟨w, []⟩).2.world.track {}, []⟩ := by
    refine ⟨SameButTracker.of_track ?_, hwaiting.symm⟩
    refine ⟨hsane.books.nodup, hsane.books.aware, fun id => ?_, fun id hid => by cases hid⟩
    by_cases hh : (live before ⟨w, []⟩).2.world.memory.cooldowns.Holds id
    · exact .inr ⟨Cooldown.not_holds_empty id, hbalanced.tracker id hh⟩
    · exact .inl (Cooldown.sameAt_empty_iff.2 hh)
  exact (live_sameButTracker hfair id id hafter hsane hscenes).symm

/-- A rule fires in a tick and then by hand, and its three accounts say so. -/
theorem accounts_agree_vent :
    ∃ s, (live [.create .vent, .tick, .around (.quiet 20), .trigger 1 false] ⟨.quiet 0, []⟩).2 = s
      ∧ s.world.store.rules.map (·.triggerCount) = [2]
      ∧ (∀ row ∈ s.world.store.rules, Agree s.world row)
      ∧ (live [.switch 1 true, .tick] ⟨s.world.track {}, []⟩).1
        = (live [.switch 1 true, .tick] s).1 := by
  have terms : ∀ h ∈ [Happening.create .vent, .tick, .around (.quiet 20), .trigger 1 false]
      ++ [.switch 1 true, .tick], h.Under .orderly := by
    simp [Happening.Under, Terms.orderly]
    rfl
  obtain ⟨hagree, hlog⟩ := accounts_agree (World.quiet_fresh 0) rfl terms
    (by decide +kernel)
  exact ⟨_, rfl, by decide +kernel, hagree, hlog⟩

end Glasshouse
