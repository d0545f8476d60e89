/-
Glasshouse.Proofs.Engine.Spacing — the cooldown is kept over whole histories. What a
tick fires has been silent for as long as its rule asks, whatever happened in
between: the time of an earlier trigger is either noted in the rule's row, where
it never moves back, or held by the tracker, which keeps it as long as every
tick loads the rule. Both ways the tick that fires has seen it. Main statement:
`cooldown_spacing`.

Side conditions of the main statement. Clocks have an offset and no rule is deleted
(`Terms.lasting`); triggers by hand may wait. An earlier trigger counts if it was
noted with the row or lies within a time in which every tick loaded the rule. One
that was neither is known to nobody: the tracker drops a rule that a tick leaves out.
Triggers by hand keep no cooldown, so only ticks are held to it.
-/
import Glasshouse.Proofs.Engine.History

namespace Glasshouse

open Calendar

/-- The execution of a report whose actions were carried out. -/
def Report.dispatched? : Report → Option Execution
  | notMatched .. => none
  | suppressed _ => none
  | triggered e _ => some e
  | failed e => if e.stackTrace.isNone then some e else none

/-- Two times with so many minutes at least from the first to the second. -/
def Spaced (minutes : Int) (first second : Moment) : Prop :=
  ∃ span, second.minus first = .ok span ∧ minutes * minute ≤ span

/-! ## Rows go forward -/

/-- A row as it may be later: the same rule with the same silence, whose history
has not shrunk. -/
structure RuleRow.Onward (old new : RuleRow) : Prop where
  id : new.id = old.id
  cooldown : new.cooldown = old.cooldown
  last : ∀ l, old.lastTriggered = some l → ∃ k, new.lastTriggered = some k ∧ l ≤ k

namespace RuleRow.Onward

variable {p q r : RuleRow}

protected theorem refl (r : RuleRow) : r.Onward r :=
  ⟨rfl, rfl, fun l hl => ⟨l, hl, Int.le_refl l⟩⟩

protected theorem trans (h : p.Onward q) (k : q.Onward r) : p.Onward r := by
  refine ⟨k.id.trans h.id, k.cooldown.trans h.cooldown, fun l hl => ?_⟩
  obtain ⟨m, hm, hlm⟩ := h.last l hl
  obtain ⟨n, hn, hmn⟩ := k.last m hm
  exact ⟨n, hn, Int.le_trans hlm hmn⟩

theorem switched (on : Bool) (r : RuleRow) : r.Onward (r.switched on) :=
  ⟨rfl, rfl, fun l hl => ⟨l, hl, Int.le_refl l⟩⟩

theorem noted (i : Instant) (n : Int) (r : RuleRow) : r.Onward (r.noted i n) := by
  refine ⟨rfl, rfl, fun l hl => ⟨max i l, ?_, Int.le_max_right i l⟩⟩
  simp only [RuleRow.noted, hl]

end RuleRow.Onward

/-- Every row of some books is there in others, as it may be later. -/
def Books.Onward (b b' : Books) : Prop := ∀ row ∈ b.rules, ∃ new ∈ b'.rules, row.Onward new

namespace Books.Onward

variable {b b' b₁ : Books}

theorem of_eq (h : b'.rules = b.rules) : b.Onward b' :=
  fun row hrow => ⟨row, h ▸ hrow, .refl row⟩

protected theorem trans (h : b.Onward b₁) (k : b₁.Onward b') : b.Onward b' := by
  intro row hrow
  obtain ⟨p, hp, hrp⟩ := h row hrow
  obtain ⟨q, hq, hpq⟩ := k p hp
  exact ⟨q, hq, hrp.trans hpq⟩

theorem update {f : RuleRow → RuleRow} (hf : ∀ r : RuleRow, r.Onward (f r)) (b : Books) (id : Int) :
    b.Onward (b.update id f) := by
  intro row hrow
  refine ⟨if row.id == id then f row else row, List.mem_map_of_mem hrow, ?_⟩
  split
  · exact hf row
  · exact .refl row

end Books.Onward

theorem Recorded.onward {x : Execution} {b b' : Books} (h : Recorded x b b') : b.Onward b' :=
  .of_eq h.same.1

theorem Noted.onward {id : Int} {t : Moment} {n : Int} {noted : Bool} {b b' : Books}
    (h : Noted id t n noted b b') : b.Onward b' := by
  rcases h with ⟨_, rfl⟩ | ⟨_, i, _, rfl⟩
  · exact .of_eq rfl
  · exact .update (RuleRow.Onward.noted i n) b id

theorem Engine.Course.onward {rule : Rule} {now : Moment} {bypass force : Bool} {b b' : Books}
    {r : Report} (h : Engine.Course rule now bypass force b r b') : b.Onward b' := by
  cases h with
  | notMatched _ _ _ => exact .of_eq rfl
  | suppressed _ _ _ record => exact record.onward
  | triggered _ _ _ _ note record => exact note.onward.trans record.onward
  | failed _ _ _ record => exact record.onward
  | faulted _ _ _ record => exact record.onward

theorem Stride.onward {T : Terms} (hd : ¬ T.deletes) {b b' : Books} {e : Option Entry}
    (h : Stride T b e b') : b.Onward b' := by
  cases h with
  | around _ => exact .of_eq rfl
  | refuse n => exact .of_eq rfl
  | switch id on => exact .update (RuleRow.Onward.switched on) b id
  | create _ _ _ _ => exact fun row hrow => ⟨row, List.mem_append_left _ hrow, .refl row⟩
  | delete id allowed => exact absurd allowed hd
  | load _ _ _ => exact .of_eq rfl
  | look _ course => exact course.onward
  | manual _ _ _ _ course => exact course.onward

/-- Without deletion rows only go forward. -/
theorem Chain.onward {T : Terms} (hd : ¬ T.deletes) {b b' : Books} {es : List Entry}
    (h : Chain T b es b') : b.Onward b' := by
  induction h with
  | nil => exact .of_eq rfl
  | cons first _ ih => exact (first.onward hd).trans ih

/-! ## What the tracker holds -/

/-- The tracker holds a time of a rule that is not before an instant. -/
def Books.Held (b : Books) (id : Int) (t : Int) : Prop :=
  ∃ m, b.cooldowns.last.get? id = some m ∧ t ≤ m.instant

/-- The store holds a time of a rule that is not before an instant. -/
def Books.Kept (b : Books) (id : Int) (t : Int) : Prop :=
  ∃ row ∈ b.rules, row.id = id ∧ ∃ l, row.lastTriggered = some l ∧ t ≤ l

theorem Books.Kept.onward {b b' : Books} {id : Int} {t : Int} (h : b.Kept id t)
    (hb : b.Onward b') : b'.Kept id t := by
  obtain ⟨row, hrow, hid, l, hl, ht⟩ := h
  obtain ⟨new, hnew, ho⟩ := hb row hrow
  obtain ⟨k, hk, hlk⟩ := ho.last l hl
  exact ⟨new, hnew, ho.id.trans hid, k, hk, Int.le_trans ht hlk⟩

/-- What the store holds about a rule that a tick has taken over, the tracker holds too. -/
theorem Books.Kept.held {b : Books} {rule : Rule} {t : Int} (h : b.Kept rule.id t)
    (hr : b.Ready rule) : b.Held rule.id t := by
  obtain ⟨row, hrow, hid, l, hl, ht⟩ := h
  obtain ⟨m, hm, hlm⟩ := (hr.row row hrow hid).2 l hl
  exact ⟨m, hm, Int.le_trans ht hlm⟩

namespace Engine.Effect

variable {id : Int} {now : Moment} {b b' : Books} {r : Report}

theorem held (h : Effect id now b r b') {k : Int} {t : Int} (ht : b.Held k t) : b'.Held k t := by
  obtain ⟨m, hm, htm⟩ := ht
  cases h with
  | nothing e => exact ⟨m, hm, htm⟩
  | quiet _ _ _ _ record =>
    unfold Books.Held
    rw [record.same.2.1]
    exact ⟨m, hm, htm⟩
  | trigger _ _ _ _ note record =>
    obtain ⟨m', hm', hmm⟩ := Cooldown.marked_forward hm id now
    unfold Books.Held
    rw [record.same.2.1, note.same.1]
    exact ⟨m', hm', Int.le_trans htm hmm⟩

/-- After a trigger the tracker holds its time; the store too, if it was noted there. -/
theorem held_of_trigger {x : Execution} {noted : Bool} (h : Effect id now b (.triggered x noted) b') :
    x.ruleId = id ∧ x.triggeredAt = now ∧ b'.Held id now.instant
      ∧ (noted = true → id ∈ b.ids → b'.Kept id now.instant) := by
  cases h with
  | quiet report _ _ _ _ => rcases report with h | h <;> cases h
  | trigger ruleId time _ _ note record =>
    refine ⟨ruleId, time, ?_, fun hnoted hid => ?_⟩
    · unfold Books.Held
      rw [record.same.2.1, note.same.1]
      refine ⟨_, Cooldown.marked_last b.cooldowns id now, Cooldown.le_latest _ now⟩
    · obtain ⟨row, hrow, hk⟩ := List.mem_map.1 hid
      refine Books.Kept.onward ?_ record.onward
      unfold Books.Kept
      rw [note.same.2.2.2, if_pos hnoted]
      refine ⟨_, List.mem_map_of_mem hrow, ?_, ?_⟩
      · simp [hk, RuleRow.noted]
      · simp only [hk, beq_self_eq_true, if_true, RuleRow.noted]
        refine ⟨_, rfl, ?_⟩
        have hle := Cooldown.le_latest (b.cooldowns.last.get? id) now
        cases row.lastTriggered with
        | none => exact hle
        | some j => exact Int.le_trans hle (Int.le_max_left _ _)

end Engine.Effect

namespace Stride

variable {T : Terms} {b b' : Books} {e : Option Entry}

/-- The tracker holds on to the time of a rule that is of every round. -/
theorem held (hT : ∀ m, T.clock m → m.Aware) (h : Stride T b e b') (hb : b.Sane T) {id : Int}
    {t : Int} (ht : b.Held id t)
    (hl : ∀ rules, e = some (.loaded rules) → ∃ r ∈ rules, r.id = id) : b'.Held id t := by
  cases h with
  | around _ => exact ht
  | refuse n => exact ht
  | switch k on => exact ht
  | create _ _ _ _ => exact ht
  | delete k _ => exact ht
  | load order _ nodup =>
    obtain ⟨r, hr, rfl⟩ := hl _ rfl
    obtain ⟨m, hm, htm⟩ := ht
    obtain ⟨m', hm', hmm⟩ := Cooldown.merge_forward hm r
    have hat := Cooldown.refreshed_of_mem nodup (order.mem_iff.1 hr) b.cooldowns
    exact ⟨m', hat.last.trans hm', Int.le_trans htm hmm⟩
  | look _ course => exact (course.effect hb.aware (hT _ hb.clock)).held ht
  | @manual rule _ _ _ _ _ _ _ aware course =>
    obtain ⟨m, hm, htm⟩ := ht
    obtain ⟨m', hm', hmm⟩ := Cooldown.merge_forward hm rule
    have he := course.effect (hb.aware.merge aware) (hT _ hb.clock)
    exact he.held (k := id) (t := t) ⟨m', hm', Int.le_trans htm hmm⟩

/-- After a trigger the tracker holds its time; the store too, if it was noted there. -/
theorem held_of_trigger (hT : ∀ m, T.clock m → m.Aware) {byTick : Bool} {x : Execution}
    {noted : Bool} (h : Stride T b (some (.looked byTick (.triggered x noted))) b')
    (hb : b.Sane T) : x.triggeredAt.Aware ∧ b'.Held x.ruleId x.triggeredAt.instant
      ∧ (noted = true → b'.Kept x.ruleId x.triggeredAt.instant) := by
  cases h with
  | look ready course =>
    obtain ⟨hid, ht, hheld, hkept⟩ :=
      (course.effect hb.aware (hT _ hb.clock)).held_of_trigger
    rw [hid, ht]
    exact ⟨hT _ hb.clock, hheld, fun hn => hkept hn ready.stored⟩
  | manual stored id _ aware course =>
    obtain ⟨hid, ht, hheld, hkept⟩ :=
      (course.effect (hb.aware.merge aware) (hT _ hb.clock)).held_of_trigger
    rw [hid, ht]
    exact ⟨hT _ hb.clock, hheld, fun hn => hkept hn (id ▸ List.mem_map_of_mem stored)⟩

end Stride

theorem Chain.held {T : Terms} (hT : ∀ m, T.clock m → m.Aware) {b b' : Books} {es : List Entry}
    (h : Chain T b es b') (hb : b.Sane T) {id : Int} {t : Int} (ht : b.Held id t)
    (hl : ∀ rules, .loaded rules ∈ es → ∃ r ∈ rules, r.id = id) : b'.Held id t := by
  induction h with
  | nil => exact ht
  | cons first _ ih =>
    refine ih (first.sane hT hb) (first.held hT hb ht fun rules he => ?_) fun rules hr => ?_
    · exact hl rules (List.mem_append_left _ (by rw [he]; exact List.mem_singleton_self _))
    · exact hl rules (List.mem_append_right _ hr)

/-! ## Spacing -/

/-- Actions are carried out for the rule that is looked at, and by a tick only if the
rule may fire. -/
theorem Engine.Course.dispatched {rule : Rule} {now : Moment} {bypass force : Bool} {b b' : Books}
    {r : Report} (h : Engine.Course rule now bypass force b r b') {x : Execution}
    (hx : r.dispatched? = some x) : x.ruleId = rule.id ∧ x.triggeredAt = now
      ∧ (bypass = true ∨ b.cooldowns.eligible rule.id now = .ok true) := by
  cases h with
  | notMatched _ _ _ => cases hx
  | suppressed _ _ _ _ => cases hx
  | triggered _ eligible _ _ _ _ =>
    cases hx
    exact ⟨rfl, rfl, eligible⟩
  | failed _ eligible _ _ =>
    cases hx
    exact ⟨rfl, rfl, eligible⟩
  | faulted _ _ content _ =>
    subst content
    cases hx

/-- A rule that may fire has been silent since every instant that the tracker holds
for it. -/
theorem Books.Ready.spaced {b : Books} {rule : Rule} (hr : b.Ready rule) {now : Moment}
    (he : b.cooldowns.eligible rule.id now = .ok true) (ht : b.cooldowns.Aware) (hn : now.Aware)
    {t : Int} (hheld : b.Held rule.id t) : rule.cooldown * minute ≤ now.instant - t := by
  obtain ⟨l, hl, htl⟩ := hheld
  have hle := Cooldown.silence_of_eligible hn (ht _ _ hl) hl hr.minutes he
  have hspan : rule.cooldown * minute ≤ now.instant - l.instant := by simpa using hle.symm
  exact Int.le_trans hspan (Int.sub_le_sub_left htl _)

/-- Histories without deletion, on clocks with an offset. -/
def Terms.lasting : Terms where
  clock := Moment.Aware
  deletes := False
  waits := True

theorem Terms.lasting_fair : Terms.lasting.Fair := ⟨fun _ h => h, fun _ h => h⟩

/-- The row of a number, where numbers are different. -/
theorem Store.rule?_of_mem {s : Store} (hn : (s.rules.map (·.id)).Nodup) {row : RuleRow}
    (h : row ∈ s.rules) : s.rule? row.id = some row := by
  cases hf : s.rule? row.id with
  | none => exact absurd (beq_self_eq_true row.id) (List.find?_eq_none.1 hf row h)
  | some q =>
    have hq : q.id = row.id := by simpa using List.find?_some hf
    rw [List.inj_on_of_nodup_map hn (List.mem_of_find?_eq_some hf) h hq]

/-- Whenever a tick carries out the actions of a rule, the rule's cooldown has passed
since its time that was stored at the beginning, and since every earlier trigger by
tick or by hand that was noted with its row or lies within a time in which every
tick loaded the rule. -/
theorem cooldown_spacing {hs : List Happening} (terms : ∀ h ∈ hs, h.Under .lasting) {s : Scene}
    (sane : s.Sane .lasting) {early late : List Entry} {r : Report} {x : Execution}
    (log : (live hs s).1 = early ++ .looked true r :: late) (fired : r.dispatched? = some x) :
    ∃ row, (live hs s).2.world.store.rule? x.ruleId = some row
      ∧ (∀ old, s.world.store.rule? x.ruleId = some old → old.cooldown = row.cooldown
        ∧ ∀ l, old.lastTriggered = some l → Spaced row.cooldown (.ofInstant l) x.triggeredAt)
      ∧ ∀ before since byTick y noted,
        early = before ++ .looked byTick (.triggered y noted) :: since → y.ruleId = x.ruleId →
        (noted = true ∨ ∀ rules, .loaded rules ∈ since → ∃ q ∈ rules, q.id = x.ruleId) →
        Spaced row.cooldown y.triggeredAt x.triggeredAt := by
  have hd : ¬ Terms.lasting.deletes := id
  have hT := Terms.lasting_fair.aware
  have hc := live_chain Terms.lasting_fair terms sane
  have hend := hc.sane hT sane.books
  rw [log] at hc
  obtain ⟨m, n, hearly, hlook, hlate⟩ := hc.split
  have hm := hearly.sane hT sane.books
  cases hlook with
  | @look rule _ _ ready course =>
    obtain ⟨p, hp, hpid⟩ := List.mem_map.1 ready.stored
    obtain ⟨hxid, hxtime, hmay⟩ := course.dispatched fired
    have hmay : m.cooldowns.eligible rule.id m.clock = .ok true :=
      hmay.resolve_left Bool.false_ne_true
    obtain ⟨row, hrow, ho⟩ := (course.onward.trans (hlate.onward hd)) p hp
    have hwindow : ∀ {first : Moment}, first.Aware → m.Held rule.id first.instant →
        Spaced row.cooldown first x.triggeredAt := by
      intro first haware hheld
      rw [ho.cooldown, hxtime, ← (ready.row p hp hpid).1]
      exact ⟨_, Moment.minus_of_aware (hT _ hm.clock) haware,
        ready.spaced hmay hm.aware (hT _ hm.clock) hheld⟩
    refine ⟨row, ?_, ?_, ?_⟩
    · rw [hxid, ← hpid, ← ho.id]
      exact Store.rule?_of_mem hend.nodup hrow
    · intro old hold
      rw [hxid] at hold
      have hmem : old ∈ s.world.books.rules := List.mem_of_find?_eq_some hold
      have hoid : old.id = rule.id := by simpa using List.find?_some hold
      obtain ⟨q, hq, hoq⟩ := hearly.onward hd old hmem
      have hqp : q = p := Books.eq_of_id hm.nodup hq hp (by rw [hoq.id, hoid, hpid])
      subst hqp
      refine ⟨by rw [ho.cooldown, hoq.cooldown], fun l hl => ?_⟩
      refine hwindow (Moment.utc_ofInstant l).aware ?_
      rw [Moment.instant_ofInstant]
      have hkept : s.world.books.Kept rule.id l := ⟨old, hmem, hoid, l, hl, Int.le_refl l⟩
      exact (hkept.onward (hearly.onward hd)).held ready
    · intro before since byTick y noted hsplit hy hseen
      rw [hsplit] at hearly
      obtain ⟨u, v, hbefore, htrigger, hsince⟩ := hearly.split
      have hu := hbefore.sane hT sane.books
      obtain ⟨haware, hheld, hkept⟩ := htrigger.held_of_trigger hT hu
      rw [hy, hxid] at hheld hkept
      refine hwindow haware ?_
      rcases hseen with hnoted | hloaded
      · exact ((hkept hnoted).onward (hsince.onward hd)).held ready
      · rw [hxid] at hloaded
        exact hsince.held hT (htrigger.sane hT hu) hheld hloaded

/-- A log of a creation and of two ticks that look at a rule, where both looks dispatch it
and the first is noted. -/
def firesTwice : List Entry → Bool
  | [.created _, .loaded _, .looked true (.triggered y true), .loaded _, .looked true r] =>
    r.dispatched?.map (·.ruleId) == some y.ruleId
  | _ => false

/-- A rule fires in two ticks, and its cooldown has passed between them. -/
theorem cooldown_spacing_vent : ∃ early r x y row,
    (live [.create .vent, .tick, .around (.quiet 20), .tick] ⟨.quiet 0, []⟩).1
        = early ++ [.looked true r]
      ∧ r.dispatched? = some x ∧ .looked true (.triggered y true) ∈ early
      ∧ y.ruleId = x.ruleId ∧ (row : RuleRow).id = x.ruleId
      ∧ Spaced row.cooldown y.triggeredAt x.triggeredAt := by
  have shape : firesTwice
      (live [.create .vent, .tick, .around (.quiet 20), .tick] ⟨.quiet 0, []⟩).1 = true := by
    decide +kernel
  unfold firesTwice at shape
  split at shape
  · rename_i row rules y rules' r log
    obtain ⟨x, fired, hid⟩ := Option.map_eq_some_iff.1 (beq_iff_eq.1 shape)
    have terms : ∀ h ∈ [Happening.create .vent, .tick, .around (.quiet 20), .tick],
        h.Under .lasting := by
      simp [Happening.Under, Terms.lasting]
      rfl
    have sane : (Scene.mk (.quiet 0) []).Sane .lasting := (World.quiet_fresh 0).sane rfl
    obtain ⟨stored, hstored, _, hspaced⟩ := @cooldown_spacing _ terms _ sane
      [.created row, .loaded rules, .looked true (.triggered y true), .loaded rules'] [] r x log fired
    refine ⟨[.created row, .loaded rules, .looked true (.triggered y true), .loaded rules'],
      r, x, y, stored, log, fired, by simp, hid.symm, ?_, ?_⟩
    · simpa using List.find?_some hstored
    · exact hspaced [.created row, .loaded rules] [.loaded rules'] true y true rfl hid.symm (.inl rfl)
  · exact absurd shape Bool.false_ne_true

end Glasshouse
