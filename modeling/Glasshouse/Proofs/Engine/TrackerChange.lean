/-
Glasshouse.Proofs.Engine.TrackerChange — worlds that differ in the tracker alone, where one
tracker lacks some of what the other has taken over from the store
(`SameButTracker`). They stay so, and leave the same log, whatever happens but
deletion: before a rule is looked at its record is merged in, and then both trackers
hold the same about it. A tracker that mirrors the store can therefore be emptied at
any time. Main statement: `live_sameButTracker`.
-/
import Glasshouse.Proofs.Engine.Balance

namespace Glasshouse

open Calendar Plan World

/-! ## A tracker that lacks what rows tell -/

/-- A tracker and one that lacks some of what the first has from rows, but nothing about
some rules. -/
structure Cooldown.SameUpToRows (rules : List RuleRow) (ids : List Int)
    (t u : Cooldown) : Prop where
  nodup : (rules.map (·.id)).Nodup
  aware : t.Aware
  each : ∀ id, Cooldown.SameAt id t u
    ∨ ¬ u.Holds id ∧ ∃ row ∈ rules, row.id = id ∧ t.Mirrors row
  same : ∀ id ∈ ids, Cooldown.SameAt id t u

namespace Cooldown.SameUpToRows

variable {rules : List RuleRow} {ids : List Int} {t u : Cooldown}

theorem aware_right (h : SameUpToRows rules ids t u) : u.Aware := by
  intro id m hm
  rcases h.each id with hs | ⟨hu, _⟩
  · exact h.aware id m (hs.last.trans hm)
  · exact absurd (.inl (by rw [hm]; rfl)) hu

theorem weaken (h : SameUpToRows rules ids t u) : SameUpToRows rules [] t u :=
  ⟨h.nodup, h.aware, h.each, fun id hid => by cases hid⟩

/-- Rows may be added, and changed in what the tracker does not mirror. -/
theorem rows (h : SameUpToRows rules ids t u) {rules' : List RuleRow}
    (hn : (rules'.map (·.id)).Nodup)
    (hr : ∀ row ∈ rules, SameAt row.id t u ∨ ∃ new ∈ rules', new.id = row.id
      ∧ (t.Mirrors row → t.Mirrors new)) : SameUpToRows rules' ids t u := by
  refine ⟨hn, h.aware, fun id => ?_, h.same⟩
  rcases h.each id with hs | ⟨hu, row, hrow, hid, hm⟩
  · exact .inl hs
  · rcases hr row hrow with hs | ⟨new, hnew, hnid, hmm⟩
    · exact .inl (hid ▸ hs)
    · exact .inr ⟨hu, new, hnew, hnid.trans hid, hmm hm⟩

/-- The rows of a number may change if both trackers hold the same about it, or in what
the tracker does not mirror. -/
theorem update (h : SameUpToRows rules ids t u) {id : Int} {f : RuleRow → RuleRow}
    (hid : ∀ r, (f r).id = r.id) (hf : SameAt id t u ∨ ∀ r, t.Mirrors r → t.Mirrors (f r)) :
    SameUpToRows (rules.map fun r => if r.id == id then f r else r) ids t u := by
  have hids : ∀ r : RuleRow, (if r.id == id then f r else r).id = r.id := by
    intro r
    split
    · exact hid r
    · rfl
  refine h.rows ?_ fun row hrow => ?_
  · rw [List.map_map]
    have hn := h.nodup
    rwa [← List.map_congr_left fun r _ => hids r] at hn
  · by_cases hr : row.id = id
    · rcases hf with hs | hf
      · exact .inl (hr ▸ hs)
      · refine .inr ⟨_, List.mem_map_of_mem hrow, hids row, ?_⟩
        rw [if_pos (by simpa using hr)]
        exact hf row
    · refine .inr ⟨_, List.mem_map_of_mem hrow, hids row, ?_⟩
      rw [if_neg (by simpa using hr)]
      exact fun hm => hm

/-- After the record of a row was merged in, both trackers hold the same about its rule. -/
theorem sameAt_merge (h : SameUpToRows rules ids t u) {rule : Rule} {row : RuleRow}
    (hrow : row ∈ rules) (hof : rule.IsOf row) : SameAt rule.id (t.merge rule) (u.merge rule) := by
  rcases h.each rule.id with hs | ⟨hu, q, hq, hid, hm⟩
  · exact hs.merge
  · have hqr : q = row := List.inj_on_of_nodup_map h.nodup hq hrow (hid.trans hof.id)
    subst hqr
    have ht := mirrors_merge hof fun _ => hm
    have hu' : (u.merge rule).Mirrors q := mirrors_merge hof fun hh => absurd (hof.id ▸ hh) hu
    rw [hof.id]
    refine ⟨ht.last.trans hu'.last.symm, ?_, ?_⟩
    · have hcount : (t.merge rule).triggerCount q.id = (u.merge rule).triggerCount q.id := by
        have := ht.count
        have := hu'.count
        omega
      unfold triggerCount at hcount
      rw [← hof.id, merge_counts, merge_counts] at hcount ⊢
      exact congrArg some hcount
    · rw [← hof.id, merge_minutes, merge_minutes]

theorem merge (h : SameUpToRows rules ids t u) {rule : Rule} {row : RuleRow} (hrow : row ∈ rules)
    (hof : rule.IsOf row) : SameUpToRows rules [rule.id] (t.merge rule) (u.merge rule) := by
  have hsame := h.sameAt_merge hrow hof
  refine ⟨h.nodup, h.aware.merge hof.aware, fun id => ?_, fun id hid => ?_⟩
  · by_cases hid : rule.id = id
    · exact .inl (hid ▸ hsame)
    · have ht := merge_of_ne (t := t) hid
      have hu := merge_of_ne (t := u) hid
      rcases h.each id with hs | ⟨hno, q, hq, hqid, hm⟩
      · exact .inl (ht.trans (hs.trans hu.symm))
      · subst hqid
        exact .inr ⟨fun hh => hno (hu.holds.1 hh), q, hq, rfl, ht.mirrors hm⟩
  · rw [List.mem_singleton.1 hid]
    exact hsame

/-- After a round both trackers hold the same about its rules. -/
theorem refreshed (h : SameUpToRows rules ids t u) {loaded : List Rule}
    (hrows : ∀ rule ∈ loaded, ∃ row ∈ rules, row.toRule = .ok rule)
    (hn : (loaded.map (·.id)).Nodup) :
    SameUpToRows rules (loaded.map (·.id)) (t.refreshed loaded) (u.refreshed loaded) := by
  have hsame : ∀ rule ∈ loaded, SameAt rule.id (t.refreshed loaded) (u.refreshed loaded) := by
    intro rule hr
    obtain ⟨row, hrow, hbuilt⟩ := hrows rule hr
    have hmerge := h.sameAt_merge hrow (RuleRow.isOf_of_toRule hbuilt)
    exact (refreshed_of_mem hn hr t).trans (hmerge.trans (refreshed_of_mem hn hr u).symm)
  refine ⟨h.nodup, h.aware.refreshed fun rule hr => ?_, fun id => ?_, fun id hid => ?_⟩
  · obtain ⟨row, _, hbuilt⟩ := hrows rule hr
    exact (RuleRow.isOf_of_toRule hbuilt).aware
  · by_cases hmem : ∃ rule ∈ loaded, rule.id = id
    · obtain ⟨rule, hr, rfl⟩ := hmem
      exact .inl (hsame rule hr)
    · have hnone : ∀ rule ∈ loaded, rule.id ≠ id := fun rule hr hid => hmem ⟨rule, hr, hid⟩
      have ht := refreshed_of_not_mem hnone t
      have hu := refreshed_of_not_mem hnone u
      rcases h.each id with hs | ⟨hno, row, hrow, hid, hm⟩
      · refine .inl (ht.trans (SameAt.trans ?_ hu.symm))
        simp only [hs.mem_known]
        split
        · exact .refl id {}
        · exact hs
      · have hunone : ¬ (u.refreshed loaded).Holds id := by
          rw [hu.holds]
          split
          · exact not_holds_empty id
          · exact hno
        split at ht
        · exact .inl (ht.trans (sameAt_empty_iff.2 hunone).symm)
        · subst hid
          exact .inr ⟨hunone, row, hrow, rfl, ht.mirrors hm⟩
  · obtain ⟨rule, hr, rfl⟩ := List.mem_map.1 hid
    exact hsame rule hr

/-- A mark for a rule about which both trackers hold the same. -/
theorem marked (h : SameUpToRows rules ids t u) {id : Int} (hid : id ∈ ids) {now : Moment}
    (hn : now.Aware) : SameUpToRows rules ids (t.marked id now) (u.marked id now) := by
  refine ⟨h.nodup, h.aware.marked id hn, fun k => ?_, fun k hk => ?_⟩
  · by_cases hik : id = k
    · exact .inl (hik ▸ (h.same id hid).marked now)
    · have ht := marked_of_ne (t := t) now hik
      have hu := marked_of_ne (t := u) now hik
      rcases h.each k with hs | ⟨hno, row, hrow, hk, hm⟩
      · exact .inl (ht.trans (hs.trans hu.symm))
      · subst hk
        exact .inr ⟨fun hh => hno (hu.holds.1 hh), row, hrow, rfl, ht.mirrors hm⟩
  · by_cases hik : id = k
    · exact hik ▸ (h.same id hid).marked now
    · exact (marked_of_ne now hik).trans ((h.same k hk).trans (marked_of_ne now hik).symm)

end Cooldown.SameUpToRows

/-! ## Worlds that differ in the tracker -/

/-- An interior with another tracker. -/
def Interior.track (i : Interior) (c : Cooldown) : Interior :=
  { i with memory := { i.memory with cooldowns := c } }

/-- A world with another tracker. -/
def World.track (w : World) (c : Cooldown) : World :=
  { w with memory := { w.memory with cooldowns := c } }

/-- Worlds that differ in the tracker alone, of which one lacks some of what the other has
from rows. -/
def SameButTracker (ids : List Int) : World → World → Prop :=
  Beside fun i j => ∃ c, j = i.track c ∧ Cooldown.SameUpToRows i.rules ids i.memory.cooldowns c

variable {ids : List Int}

theorem sameButTracker_iff {v w : World} : SameButTracker ids v w ↔
    ∃ c, w = v.track c ∧ Cooldown.SameUpToRows v.store.rules ids v.memory.cooldowns c := by
  constructor
  · rintro ⟨ho, c, hi, hc⟩
    refine ⟨c, ?_, hc⟩
    rw [← ofParts_eq w, ← ho, hi]
    rfl
  · rintro ⟨c, rfl, hc⟩
    exact ⟨rfl, c, rfl, hc⟩

theorem SameButTracker.of_track {v : World} {c : Cooldown}
    (h : Cooldown.SameUpToRows v.store.rules ids v.memory.cooldowns c) :
    SameButTracker ids v (v.track c) :=
  sameButTracker_iff.2 ⟨c, rfl, h⟩

theorem indistinctInteriors_tracker (ids : List Int) : IndistinctInteriors fun i j =>
    ∃ c, j = i.track c ∧ Cooldown.SameUpToRows i.rules ids i.memory.cooldowns c where
  zone := by
    rintro i j ⟨c, rfl, _⟩
    rfl
  readings := by
    rintro i j ⟨c, rfl, _⟩
    rfl
  locked := by
    rintro i j ⟨c, rfl, _⟩
    rfl

theorem indistinguishable_sameButTracker (ids : List Int) :
    Indistinguishable (SameButTracker ids) :=
  indistinguishable_beside (indistinctInteriors_tracker ids)

theorem steady_sameButTracker (ids : List Int) : Steady (SameButTracker ids) :=
  (indistinguishable_sameButTracker ids).steady

theorem Work.Apart.sameButTracker {α : Type} {x : Work α} (h : Work.Apart x) :
    Respects (SameButTracker ids) x.run := h _ (indistinguishable_sameButTracker ids)

/-! ## What is done alike in such worlds -/

/-- A change that does not see the tracker, and changes no rows. -/
theorem respects_blind {f : World → World} (hf : ∀ v c, f (v.track c) = (f v).track c)
    (hr : ∀ v, (f v).store.rules = v.store.rules)
    (hc : ∀ v, (f v).memory.cooldowns = v.memory.cooldowns) :
    Respects (SameButTracker ids) (Plan.modify f) := by
  refine .modify fun v w hvw => ?_
  obtain ⟨c, rfl, h⟩ := sameButTracker_iff.1 hvw
  rw [hf]
  refine SameButTracker.of_track ?_
  rw [hr, hc]
  exact h

namespace Engine

theorem respects_count (f : Tally → Tally) : Respects (SameButTracker ids) (count f) :=
  respects_blind (fun _ _ => rfl) (fun _ => rfl) fun _ => rfl

theorem respects_publish (kind : EventKind) (payload : Doc) :
    Respects (SameButTracker ids) (publish kind payload) :=
  respects_blind (fun _ _ => rfl) (fun _ => rfl) fun _ => rfl

theorem consult_track (k : Contact) (v : World) (c : Cooldown) :
    (v.track c).consult k = ((v.consult k).1, (v.consult k).2.track c) := by
  unfold World.consult World.track
  simp only
  split <;> rfl

/-- A call to the store does not see the tracker. -/
theorem callStore_track {α : Type} (k : Contact) (f : Store → Except Fault (α × Store)) (v : World)
    (c : Cooldown) :
    (v.track c).callStore k f = ((v.callStore k f).1, (v.callStore k f).2.track c) := by
  unfold World.callStore
  rw [consult_track]
  rcases v.consult k with ⟨_ | e, u⟩
  · simp only
    have hs : (u.track c).store = u.store := rfl
    rw [hs]
    split <;> rfl
  · rfl

/-- Such worlds make the same calls to the store, if the trackers mirror the rows afterwards. -/
theorem respects_store {α : Type} (k : Contact) {f : Store → Except Fault (α × Store)}
    (hf : ∀ {s t : Store} {a : α} {x y : Cooldown}, f s = .ok (a, t) →
      Cooldown.SameUpToRows s.rules ids x y → Cooldown.SameUpToRows t.rules ids x y) :
    Respects (SameButTracker ids) (Work.store k f).run := by
  refine .change fun v w hvw => ?_
  obtain ⟨c, rfl, h⟩ := sameButTracker_iff.1 hvw
  rw [callStore_track]
  refine ⟨rfl, SameButTracker.of_track ?_⟩
  rcases books_callStore k f v with ⟨_, hb⟩ | ⟨a, s, t, hs, hr, _, _, hb⟩
  · rw [show (v.callStore k f).2.store.rules = v.store.rules from congrArg Books.rules hb,
      show (v.callStore k f).2.memory.cooldowns = v.memory.cooldowns from
        congrArg Books.cooldowns hb]
    exact h
  · rw [show (v.callStore k f).2.store.rules = t.rules from congrArg Books.rules hb,
      show (v.callStore k f).2.memory.cooldowns = v.memory.cooldowns from
        congrArg Books.cooldowns hb]
    rw [← hr] at h
    exact hf hs h

theorem respects_keep {α : Type} {x : Work α} (h : Respects (SameButTracker ids) x.run) :
    Respects (SameButTracker ids) (keep x) := by
  refine h.bind fun r => ?_
  cases r with
  | ok a => exact .pure _
  | error e =>
    have hlost : Respects (SameButTracker ids) (remember fun m => { m with lost := m.lost + 1 }) :=
      respects_blind (fun _ _ => rfl) (fun _ => rfl) fun _ => rfl
    exact hlost.bind fun _ => .pure _

theorem respects_record (x : Execution) : Respects (SameButTracker ids) (record x) := by
  refine respects_keep (respects_store _ fun hs h => ?_)
  obtain ⟨row, _, rfl⟩ := Store.recordExecution_eq_ok hs
  exact h

theorem respects_noteTrigger {id : Int} (hid : id ∈ ids) (time : Moment) (n : Nat) :
    Respects (SameButTracker ids) (noteTrigger id time n) := by
  refine respects_keep (respects_store _ @fun s t a x y hs h => ?_)
  obtain ⟨i, _, rfl⟩ := Store.noteTrigger_eq_ok hs
  exact h.update (fun _ => rfl) (.inl (h.same id hid))

/-- Both trackers give the same answer about a rule about which they hold the same. -/
theorem respects_eligible {id : Int} (hid : id ∈ ids) (now : Moment) :
    Respects (SameButTracker ids) (eligible id now).run := by
  have hlook : Respects (SameButTracker ids)
      (Plan.look fun w : World => w.memory.cooldowns.eligible id now) := by
    refine .look fun v w hvw => ?_
    obtain ⟨c, rfl, h⟩ := sameButTracker_iff.1 hvw
    exact (h.same id hid).eligible now
  exact hlook

/-- A trigger is noted alike in both. -/
theorem respects_mark {id : Int} (hid : id ∈ ids) {now : Moment} (hn : now.Aware) :
    Respects (SameButTracker ids) (Plan.change fun w : World =>
      match w.memory.cooldowns.mark id now with
      | .ok (r, c) =>
        ((.ok r : Except Fault _), { w with memory := { w.memory with cooldowns := c } })
      | .error e => (.error e, w)) := by
  refine .change fun v w hvw => ?_
  obtain ⟨c, rfl, h⟩ := sameButTracker_iff.1 hvw
  have hs := h.same id hid
  have hc : (v.track c).memory.cooldowns = c := rfl
  rw [hc, Cooldown.mark_of_aware h.aware id hn, Cooldown.mark_of_aware h.aware_right id hn]
  refine ⟨?_, ?_⟩
  · rw [hs.last, hs.triggerCount]
  · exact SameButTracker.of_track (v := v.track (v.memory.cooldowns.marked id now))
      (c := c.marked id now) (h.marked hid hn)

theorem respects_markTriggered {rule : Rule} (hid : rule.id ∈ ids) {now : Moment}
    (hn : now.Aware) : Respects (SameButTracker ids) (markTriggered rule now).run := by
  refine Work.respects_bind (respects_mark hid hn) fun p => ?_
  refine Work.respects_bind (Work.respects_lift (respects_noteTrigger hid p.1 p.2)) fun noted => ?_
  exact Work.respects_bind (Work.respects_lift (respects_count _)) fun _ => Work.respects_pure _

theorem respects_fire {rule : Rule} (hid : rule.id ∈ ids) {now : Moment} (hn : now.Aware)
    (e : Evaluation) (s : Snapshot) : Respects (SameButTracker ids) (fire rule now e s).run := by
  unfold fire
  refine Work.respects_bind (apart_dispatch _ _).sameButTracker fun outcomes => ?_
  cases hs : outcomes.all Outcome.succeeded with
  | true =>
    simp only [if_true]
    refine Work.respects_bind (respects_markTriggered hid hn) fun noted => ?_
    refine Work.respects_bind (Work.respects_lift (respects_record _)) fun _ => ?_
    exact Work.respects_bind (Work.respects_lift (respects_publish _ _)) fun _ =>
      Work.respects_pure _
  | false =>
    simp only [Bool.false_eq_true, if_false]
    refine Work.respects_bind ?_ fun noted => ?_
    · exact Work.respects_bind (Work.respects_lift (respects_count _)) fun _ => Work.respects_pure _
    refine Work.respects_bind (Work.respects_lift (respects_record _)) fun _ => ?_
    exact Work.respects_bind (Work.respects_lift (respects_publish _ _)) fun _ =>
      Work.respects_pure _

theorem respects_suppress {rule : Rule} (hid : rule.id ∈ ids) (now : Moment) (e : Evaluation)
    (s : Snapshot) : Respects (SameButTracker ids) (suppress rule now e s).run := by
  have hleft : Respects (SameButTracker ids)
      (Plan.look fun w : World => w.memory.cooldowns.remaining rule.id now) := by
    refine .look fun v w hvw => ?_
    obtain ⟨c, rfl, h⟩ := sameButTracker_iff.1 hvw
    exact (h.same rule.id hid).remaining now
  have hrest : Respects (SameButTracker ids) (do
      let x : Execution := { execution rule now e s with suppressed := true }
      let _ ← ExceptT.lift (record x)
      pure (.suppressed x) : Work Report).run :=
    Work.respects_bind (Work.respects_lift (respects_record _)) fun _ => Work.respects_pure _
  refine Work.respects_bind (Work.respects_lift (respects_count _)) fun _ => ?_
  exact Work.respects_bind (x := ExceptT.mk (Plan.look fun w : World =>
    w.memory.cooldowns.remaining rule.id now)) hleft fun _ => hrest

theorem respects_respond {rule : Rule} (hid : rule.id ∈ ids) {now : Moment} (hn : now.Aware)
    (bypass : Bool) (e : Evaluation) (s : Snapshot) :
    Respects (SameButTracker ids) (respond rule now bypass e s).run := by
  unfold respond
  cases bypass with
  | true => exact respects_fire hid hn e s
  | false =>
    refine Work.respects_bind (respects_eligible hid now) fun may => ?_
    cases may with
    | true => exact respects_fire hid hn e s
    | false => exact respects_suppress hid now e s

theorem respects_recordFault (rule : Rule) (now : Moment)
    (judged : Option (Evaluation × Snapshot)) (f : Fault) :
    Respects (SameButTracker ids) (recordFault rule now judged f) :=
  (respects_count _).bind fun _ => (respects_record _).bind fun _ => .pure _

/-- A rule is looked at alike in both, about which both trackers hold the same. -/
theorem respects_processRule {rule : Rule} (hid : rule.id ∈ ids) {now : Moment} (hn : now.Aware)
    (bypass force : Bool) :
    Respects (SameButTracker ids) (processRule rule now bypass force) := by
  refine (respects_count _).bind fun _ => ?_
  refine Respects.bind (Work.Apart.sameButTracker (apart_evaluate rule.conditions now)) fun r => ?_
  cases r with
  | error f => exact respects_recordFault rule now none f
  | ok p =>
    simp only
    split
    · exact .pure _
    · refine (respects_respond hid hn bypass p.1 p.2).bind fun r => ?_
      cases r with
      | ok r => exact .pure r
      | error f => exact respects_recordFault rule now (some p) f

theorem respects_processAll {rules : List Rule} (hids : ∀ rule ∈ rules, rule.id ∈ ids)
    {now : Moment} (hn : now.Aware) : Respects (SameButTracker ids) (processAll now rules) := by
  induction rules with
  | nil => exact .pure []
  | cons rule rules ih =>
    refine (respects_processRule (hids rule (List.mem_cons_self ..)) hn false false).bind fun r => ?_
    exact (ih fun q hq => hids q (List.mem_cons_of_mem _ hq)).bind fun rs => .pure _

/-! ## What is logged alike in such worlds -/

theorem respects_fetch {α : Type} (k : Contact) (f : Store → Except Fault α) :
    Respects (SameButTracker ids) (Work.fetch k f).run := by
  refine respects_store k @fun s t a x y hs h => ?_
  cases hf : f s with
  | error e =>
    rw [hf] at hs
    cases hs
  | ok b =>
    rw [hf] at hs
    cases hs
    exact h

theorem respects_build (rows : List RuleRow) : Respects (SameButTracker ids) (build rows).run := by
  induction rows with
  | nil => exact Work.respects_pure _
  | cons row rows ih =>
    unfold build
    split
    · exact Work.respects_bind ih fun rs => Work.respects_pure _
    · exact Work.respects_bind (Work.respects_lift (respects_count _)) fun _ => ih
    · exact Work.respects_throw _

end Engine

theorem SameButTracker.weaken {v w : World} (h : SameButTracker ids v w) :
    SameButTracker [] v w := by
  obtain ⟨c, rfl, hc⟩ := sameButTracker_iff.1 h
  exact .of_track hc.weaken

theorem sameButTracker_clock {v w : World} (h : SameButTracker ids v w) : w.clock = v.clock := by
  obtain ⟨c, rfl, _⟩ := sameButTracker_iff.1 h
  rfl

/-- Two runs with the same result that lead to worlds that differ in their trackers alone. -/
structure SameEnd {α : Type} (p q : α × World) : Prop where
  result : p.1 = q.1
  worlds : SameButTracker [] p.2 q.2

namespace SameEnd

variable {ε α β : Type} {v w : World}

theorem of_respects {p : Activity α} (hp : Respects (SameButTracker ids) p)
    (h : SameButTracker ids v w) : SameEnd (p.run v) (p.run w) := by
  obtain ⟨hresult, hmirror⟩ := Alike.run (steady_sameButTracker ids) hp h
  exact ⟨hresult, hmirror.weaken⟩

/-- Two runs of a sequence: what follows is only asked for where the first of them leads. -/
protected theorem bind {x : ExceptT ε Activity α} {f : α → ExceptT ε Activity β}
    (hx : SameEnd (x.run.run v) (x.run.run w))
    (hf : ∀ a v' w', x.run.run v = (.ok a, v') → SameButTracker [] v' w' →
      SameEnd ((f a).run.run v') ((f a).run.run w')) :
    SameEnd ((x >>= f).run.run v) ((x >>= f).run.run w) := by
  rw [Work.run_bind, Work.run_bind]
  rcases hv : x.run.run v with ⟨r, v'⟩
  rcases hw : x.run.run w with ⟨q, w'⟩
  rw [hv, hw] at hx
  obtain rfl : r = q := hx.result
  cases r with
  | error e => exact ⟨rfl, hx.worlds⟩
  | ok a => exact hf a v' w' hv hx.worlds

/-- A sequence that begins with work that is done alike. -/
theorem seq {x : ExceptT ε Activity α} {f : α → ExceptT ε Activity β}
    (hx : Respects (SameButTracker []) x.run) (h : SameButTracker [] v w)
    (hf : ∀ a v' w', x.run.run v = (.ok a, v') → SameButTracker [] v' w' →
      SameEnd ((f a).run.run v') ((f a).run.run w')) :
    SameEnd ((x >>= f).run.run v) ((x >>= f).run.run w) :=
  .bind (.of_respects hx h) hf

end SameEnd

/-- A world in which a tick has taken over the records of rules and put them in order. -/
def World.prepared (w : World) (rules : List Rule) : World :=
  { w with memory := { w.memory with
    activeRules := rules.length
    cooldowns := w.memory.cooldowns.refreshed rules
    order := (w.memory.order.sort rules).2 } }

namespace Engine

theorem respects_remember {f : Memory → Memory}
    (hf : ∀ m c, f { m with cooldowns := c } = { f m with cooldowns := c }) :
    Respects (SameButTracker ids) (remember f) := by
  have hself : ∀ m : Memory, (f m).cooldowns = m.cooldowns := by
    intro m
    have h := congrArg Memory.cooldowns (hf m m.cooldowns)
    exact h
  refine respects_blind (fun v c => ?_) (fun _ => rfl) fun v => hself v.memory
  show ({ v with memory := f { v.memory with cooldowns := c } } : World) = _
  rw [hf]
  rfl

/-- What follows in a tick after the tracker has taken over the rules. -/
theorem looks_sameButTracker {rules sorted : List Rule} (hp : sorted.Perm rules) {now : Moment}
    (hn : now.Aware) : Respects (SameButTracker (rules.map (·.id))) (do
      let reports ← ExceptT.lift (processAll now sorted)
      ExceptT.lift (remember fun m => { m with lastError := none })
      pure (.done now sorted reports) : Work Round).run := by
  have hids : ∀ rule ∈ sorted, rule.id ∈ rules.map (·.id) :=
    fun rule hr => List.mem_map_of_mem (hp.mem_iff.1 hr)
  refine Work.respects_bind (Work.respects_lift (respects_processAll hids hn)) fun reports => ?_
  refine Work.respects_bind (Work.respects_lift ?_) fun _ => Work.respects_pure _
  exact respects_remember fun _ _ => rfl

/-- Before a tick looks at the rules that it has built, it takes over their records and
puts them in order. -/
theorem run_prepare {α : Type} {rules : List Rule} {k : List Rule → Work α} {w : World}
    (hw : w.memory.cooldowns.Aware) (hr : ∀ rule ∈ rules, rule.Aware) :
    (do
      ExceptT.lift (remember fun m => { m with activeRules := rules.length })
      adjust fun c => c.refresh rules
      let sorted ← ExceptT.lift (arrange rules)
      k sorted : Work α).run.run w
      = (k (w.memory.order.sort rules).1).run.run (w.prepared rules) := by
  simp only [Work.run_bind, Work.run_lift, run_remember, adjust, arrange, Work.run_mk, run_change,
    Cooldown.refresh_of_aware hw hr]
  rfl

/-- A tick with the same rows does the same in both. -/
theorem tickWith_sameButTracker {v w : World} (hv : v.clock.Aware) (h : SameButTracker [] v w)
    {rows : List RuleRow} (hr : rows = v.books.enabledRows) :
    SameEnd ((tickWith v.clock rows).run.run v) ((tickWith v.clock rows).run.run w) := by
  refine .seq (respects_build rows) h fun rules v₁ w₁ hbuild h₁ => ?_
  rw [build_run] at hbuild
  obtain ⟨hsift, hv₁⟩ := Prod.ext_iff.1 hbuild
  subst hr
  obtain ⟨rfl, _⟩ := sift_built (Prod.ext hsift rfl)
  have hstored : v₁.store.rules = v.store.rules := (congrArg (·.store.rules) hv₁).symm
  have hmem : ∀ rule ∈ v.books.built, ∃ row ∈ v₁.store.rules, row.toRule = .ok rule := by
    rw [hstored]
    exact v.books.rows_of_built
  have haware := v.books.built_aware
  obtain ⟨c, rfl, hc⟩ := sameButTracker_iff.1 h₁
  have hn : (v.books.built.map (·.id)).Nodup := by
    have hnodup := hc.nodup
    rw [hstored] at hnodup
    exact v.books.built_ids hnodup
  rw [run_prepare hc.aware haware,
    run_prepare (show (v₁.track c).memory.cooldowns.Aware from hc.aware_right) haware]
  have hp : (v₁.memory.order.sort v.books.built).1.Perm v.books.built :=
    v₁.memory.order.sortBy_perm (fun r : Rule => r.id) (fun r => r.priority) v.books.built
  exact .of_respects (looks_sameButTracker hp hv)
    (SameButTracker.of_track (v := v₁.prepared v.books.built) (hc.refreshed hmem hn))

theorem tickLocked_sameButTracker {v w : World} (hv : v.clock.Aware) (h : SameButTracker [] v w) :
    SameEnd (tickLocked.run.run v) (tickLocked.run.run w) := by
  have hclock : Respects (SameButTracker []) (Plan.look World.clock) :=
    .look fun _ _ h => (sameButTracker_clock h).symm
  refine .seq (Work.respects_lift hclock) h fun now v₁ w₁ h₁ t₁ => ?_
  cases h₁
  refine .seq (Work.respects_lift (respects_count _)) t₁ fun _ v₂ w₂ h₂ t₂ => ?_
  cases h₂
  refine .seq (Work.respects_lift (respects_remember fun _ _ => rfl)) t₂ fun _ v₃ w₃ h₃ t₃ => ?_
  have hbooks : v₃.books = v.books := by
    cases h₃
    rfl
  refine .seq (Work.respects_lift (respects_fetch _ _)) t₃ fun x v₄ w₄ h₄ t₄ => ?_
  obtain ⟨v₅, hfetch, hsame⟩ := fetchEnabled_run v₃
  rw [Work.run_lift, hfetch] at h₄
  cases h₄
  cases (v₃.consult .enabledRules).1 with
  | some f =>
    refine .of_respects (Work.respects_bind (Work.respects_lift ?_) fun _ => Work.respects_pure _) t₄
    exact respects_remember fun _ _ => rfl
  | none =>
    have hclock : v₅.clock = v.clock := congrArg Books.clock (hsame.trans hbooks)
    show SameEnd ((tickWith v.clock v₃.books.enabledRows).run.run v₅)
      ((tickWith v.clock v₃.books.enabledRows).run.run w₄)
    rw [← hclock] at hv ⊢
    exact tickWith_sameButTracker hv t₄ (congrArg Books.enabledRows hsame.symm)

/-- Work that does the same in both does so too while it holds the lock. -/
theorem locked_sameButTracker {α : Type} {p : Activity α} {v w : World} (h : SameButTracker [] v w)
    (hp : ∀ v' w', v'.books = v.books → SameButTracker [] v' w' → SameEnd (p.run v') (p.run w')) :
    SameEnd ((locked p).run v) ((locked p).run w) := by
  have hset : ∀ on, Respects (SameButTracker []) (remember fun m => { m with locked := on }) :=
    fun on => respects_remember fun _ _ => rfl
  have hbegin := SameEnd.of_respects (hset true) h
  have hbooks : ((remember fun m => { m with locked := true }).run v).2.books = v.books := rfl
  have hwork := hp _ _ hbooks hbegin.worlds
  have hend := SameEnd.of_respects (hset false) hwork.worlds
  simp only [locked, run_bind', run_pure]
  exact ⟨hwork.result, hend.worlds⟩

/-- A tick does the same in both. -/
theorem round_sameButTracker {v w : World} (hv : v.clock.Aware) (h : SameButTracker [] v w) :
    SameEnd (round.run.run v) (round.run.run w) := by
  refine .seq (apart_consult (c := .tick) rfl).sameButTracker h fun _ v₁ w₁ h₁ t₁ => ?_
  have hbooks : v₁.books = v.books := World.books_of_apart (apart_consult (c := .tick) rfl) h₁
  have hlook : Respects (SameButTracker []) (Plan.look fun w : World => w.memory.locked) :=
    .look fun _ _ h => (steady_sameButTracker []).locked h
  refine .seq (Work.respects_lift hlook) t₁ fun busy v₂ w₂ h₂ t₂ => ?_
  have hkept : v₂.books = v₁.books := by
    cases h₂
    rfl
  cases busy with
  | true =>
    refine .of_respects (Work.respects_bind (Work.respects_lift ?_) fun _ => Work.respects_pure _) t₂
    exact respects_count _
  | false =>
    refine .bind (locked_sameButTracker t₂ fun v' w' hb t => tickLocked_sameButTracker ?_ t)
      fun r v₃ w₃ _ t₃ => ?_
    · rw [show v'.clock = v.clock from congrArg Books.clock (hb.trans (hkept.trans hbooks))]
      exact hv
    · exact ⟨rfl, t₃⟩

/-- A trigger by hand that has the lock does the same in both, if its rule is as a row
has it. -/
theorem triggerLocked_sameButTracker {rule : Rule} {row : RuleRow} {force : Bool} {v w : World}
    (hv : v.clock.Aware) (hrow : row ∈ v.books.rules) (hrule : row.toRule = .ok rule)
    (h : SameButTracker [] v w) :
    SameEnd ((triggerLocked rule force).run.run v) ((triggerLocked rule force).run.run w) := by
  have hof := RuleRow.isOf_of_toRule hrule
  obtain ⟨c, rfl, hc⟩ := sameButTracker_iff.1 h
  unfold triggerLocked
  simp only [adjust, Work.run_bind, Work.run_mk, run_change, Work.run_lift, run_look]
  rw [Cooldown.sync_of_aware hc.aware hof.aware,
    show (v.track c).memory.cooldowns = c from rfl,
    Cooldown.sync_of_aware hc.aware_right hof.aware]
  have hr : Respects (SameButTracker [rule.id]) (processRule rule v.clock true force) :=
    respects_processRule (List.mem_singleton_self _) hv true force
  obtain ⟨hresult, hmirror⟩ := SameEnd.of_respects hr
    (SameButTracker.of_track (v := v.track (v.memory.cooldowns.merge rule)) (c := c.merge rule)
      (hc.merge hrow hof))
  exact ⟨congrArg Except.ok hresult, hmirror⟩

/-- A trigger by hand does the same in both. -/
theorem trigger_sameButTracker (id : Int) (force : Bool) {v w : World} (hv : v.clock.Aware)
    (h : SameButTracker [] v w) :
    SameEnd ((trigger id force).run.run v) ((trigger id force).run.run w) := by
  have hload : Respects (SameButTracker []) (load id).run := by
    refine Work.respects_bind (Work.respects_lift (respects_fetch _ _)) fun x => ?_
    rcases x with f | _ | row
    · exact Work.respects_throw _
    · exact Work.respects_throw _
    · exact .pure _
  refine .seq hload h fun rule v₁ w₁ h₁ t₁ => ?_
  obtain ⟨x, v', hx, hbooks, hrow⟩ := load_run id v
  rw [h₁] at hx
  cases hx
  obtain ⟨row, hmem, _, hrule⟩ := hrow rule rfl
  have hwait : Respects (SameButTracker []) (Plan.awaitLock : Activity Unit) :=
    .whenFree fun _ => .done rfl
  refine .seq (Work.respects_lift hwait) t₁ fun _ v₂ w₂ h₂ t₂ => ?_
  have hkept : v₂.books = v₁.books := by
    rw [Work.run_lift] at h₂
    cases h₂
    exact awaitLock_books v₁
  have hdone : SameEnd ((locked (triggerLocked rule force).run).run v₂)
      ((locked (triggerLocked rule force).run).run w₂) := by
    refine locked_sameButTracker t₂ fun v' w' hb t => ?_
    have hsame : v'.books = v.books := hb.trans (hkept.trans hbooks)
    refine triggerLocked_sameButTracker ?_ (hsame ▸ hmem) hrule t
    rw [show v'.clock = v.clock from congrArg Books.clock hsame]
    exact hv
  simp only [Work.run_bind, Work.run_lift]
  exact ⟨congrArg (Except.mapError Refusal.fault) hdone.result, hdone.worlds⟩

end Engine

/-! ## Histories in such worlds -/

theorem respects_createRule (d : Definition) :
    Respects (SameButTracker ids) (Work.store .createRule fun s => s.createRule d).run := by
  refine Engine.respects_store _ @fun s t row x y hs h => ?_
  obtain ⟨hrow, _, rfl⟩ := Store.createRule_eq_ok hs
  refine h.rows ?_ fun q hq => .inr ⟨q, List.mem_append_left _ hq, rfl, fun hm => hm⟩
  have hnew : row.id ∉ s.rules.map (·.id) := by
    rw [hrow]
    exact s.nextRule_not_mem
  rw [List.map_append, List.nodup_append]
  refine ⟨h.nodup, by simp, fun i hi j hj hij => ?_⟩
  rw [List.map_singleton, List.mem_singleton] at hj
  exact hnew (hj ▸ hij ▸ hi)

theorem Cooldown.SameUpToRows.switch {rules : List RuleRow} {t u : Cooldown}
    (h : SameUpToRows rules ids t u) (id : Int) (on : Bool) :
    SameUpToRows (rules.map fun r => if r.id == id then r.switched on else r) ids t u :=
  h.update (fun _ => rfl) (.inr fun _ hm => ⟨hm.last, hm.count⟩)

theorem respects_setEnabled (id : Int) (on : Bool) :
    Respects (SameButTracker ids) (Work.store .setEnabled fun s => s.setEnabled id on).run := by
  refine Engine.respects_store _ @fun s t row x y hs h => ?_
  rw [Store.setEnabled_eq_ok hs]
  exact h.switch id on

theorem respects_setAllEnabled (ks : List Int) (on : Bool) :
    Respects (SameButTracker ids)
      (Work.store .setAllEnabled fun s => s.setAllEnabled ks on).run := by
  refine Engine.respects_store _ @fun s t row x y hs h => ?_
  rw [Store.setAllEnabled_eq_ok hs]
  clear hs
  induction ks generalizing s with
  | nil => exact h
  | cons k ks ih => exact ih _ (h.switch k on)

/-- Scenes whose worlds differ in their trackers alone, and in which the same triggers wait. -/
structure ScenesSameButTracker (s s' : Scene) : Prop where
  worlds : SameButTracker [] s.world s'.world
  waiting : s'.waiting = s.waiting

/-- What happens in such scenes leaves the same log and such scenes, unless a rule is deleted or a
trigger waits. -/
theorem step_sameButTracker {T : Terms} (hT : T.Fair) (hd : ¬ T.deletes) (hw : ¬ T.waits)
    {h : Happening}
    (hh : h.Under T) {s s' : Scene} (hs : s.Sane T) (ht : ScenesSameButTracker s s') :
    (h.step s).1 = (h.step s').1 ∧ ScenesSameButTracker (h.step s).2 (h.step s').2 := by
  have hclock : s.world.clock.Aware := hT.aware _ hs.books.clock
  cases h with
  | tick =>
    have he := Engine.round_sameButTracker hclock ht.worlds
    exact ⟨congrArg (told Round.entries) he.result, he.worlds, ht.waiting⟩
  | trigger id force =>
    have he := Engine.trigger_sameButTracker id force hclock ht.worlds
    exact ⟨congrArg (told fun r => [Entry.looked false r]) he.result, he.worlds, ht.waiting⟩
  | request id force => exact absurd hh hw
  | grant => exact absurd hh hw
  | create d =>
    have he := SameEnd.of_respects (respects_createRule d) ht.worlds
    exact ⟨congrArg (told fun row => [Entry.created row]) he.result, he.worlds, ht.waiting⟩
  | delete id => exact absurd hh hd
  | switch id on =>
    have he := SameEnd.of_respects (respects_setEnabled id on) ht.worlds
    exact ⟨rfl, he.worlds, ht.waiting⟩
  | switchAll ids on =>
    have he := SameEnd.of_respects (respects_setAllEnabled ids on) ht.worlds
    exact ⟨rfl, he.worlds, ht.waiting⟩
  | around v =>
    refine ⟨rfl, ?_, ht.waiting⟩
    obtain ⟨c, hc, hmirror⟩ := sameButTracker_iff.1 ht.worlds
    show SameButTracker [] (s.world.amid v) (s'.world.amid v)
    rw [hc]
    exact SameButTracker.of_track (v := s.world.amid v) hmirror

/-- Whatever happens in such scenes leaves the same log, unless a rule is deleted or a trigger
waits. -/
theorem live_sameButTracker {T : Terms} (hT : T.Fair) (hd : ¬ T.deletes) (hw : ¬ T.waits)
    {hs : List Happening} (hh : ∀ h ∈ hs, h.Under T) {s s' : Scene} (sane : s.Sane T)
    (ht : ScenesSameButTracker s s') : (live hs s).1 = (live hs s').1 := by
  induction hs generalizing s s' with
  | nil => rfl
  | cons x hs ih =>
    have hx := hh x (List.mem_cons_self ..)
    obtain ⟨hlog, hnext⟩ := step_sameButTracker hT hd hw hx sane ht
    rw [live_cons, live_cons, hlog,
      ih (fun y hy => hh y (List.mem_cons_of_mem _ hy)) (step_sane hT hx sane) hnext]

end Glasshouse
