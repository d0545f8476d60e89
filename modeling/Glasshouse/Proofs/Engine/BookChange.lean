/-
Glasshouse.Proofs.Engine.BookChange — worlds that are the same but for their books, because
calls that keep the books failed in one and not in the other (`SameButBooks`): they
differ in what rows tell about triggers, in the history, in the count of losses and in
what the tracker holds, but about rules that ticks load both trackers hold the same,
and cannot tell the rows apart. Whatever the engine does in such worlds it does alike,
and they stay such worlds. Main statements: `round_sameButBooks`,
`trigger_sameButBooks`.

How the proof goes. The difference of the books is a value (`BookChange`), and such worlds are
those that one leads to (`World.withBooks`). Activities apart from the books cannot tell them
apart (`indistinguishable_sameButBooks`); a note of a trigger may be taken in one and lost in
the other, which the trackers equate (`Cooldown.Equates.told_row`). `MatchingEnds` puts the
steps of the engine together.
-/
import Glasshouse.Proofs.Engine.Pasts
import Glasshouse.Proofs.Engine.TrackerChange

namespace Glasshouse

open Calendar Plan World

/-! ## The relation -/

/-- What failed calls that keep the books may change in a world. -/
structure BookChange where
  pasts : Pasts
  executions : List ExecutionRow
  cooldowns : Cooldown
  lost : Nat
  outages : Table Contact (Script (Option Fault))

/-- A world with other books. -/
def World.withBooks (d : BookChange) (w : World) : World :=
  { w with
    store := { w.store with rules := w.store.rules.map d.pasts.row, executions := d.executions }
    memory := { w.memory with cooldowns := d.cooldowns, lost := d.lost }
    outages := d.outages }

/-- What two worlds have in common while their books differ: which numbers belong to rows with a
natural count and which to rules that ticks load, and the pasts with which rules were read in both
worlds for triggers that wait. -/
structure RuleFacts where
  natural : Int → Prop
  loaded : Int → Prop
  pending : List (Int × Past × Past) := []

/-- The books of another world differ in nothing that decisions see: other calls fail alike, and
about rules that ticks load the trackers hold the same and cannot tell the rows apart. -/
structure BookChange.Fits (d : BookChange) (rf : RuleFacts) (w : World) : Prop where
  clock : w.clock.Aware
  nodup : (w.store.rules.map (·.id)).Nodup
  aware : w.memory.cooldowns.Aware
  aware' : d.cooldowns.Aware
  outages : ∀ c : Contact, c.keepsBooks = false → d.outages.get? c = w.outages.get? c
  suits : ∀ r ∈ w.store.rules, d.pasts.Suits r
  natural : ∀ r ∈ w.store.rules, rf.natural r.id ↔ 0 ≤ r.triggerCount
  loaded : ∀ r ∈ w.store.rules, rf.loaded r.id ↔ r.enabled = true ∧ r.rule?.isSome = true
  same : ∀ id, rf.loaded id → Cooldown.SameAt id w.memory.cooldowns d.cooldowns
  equates : ∀ r ∈ w.store.rules, rf.loaded r.id →
    w.memory.cooldowns.Equates r.id r.past (d.pasts r.id)
  pending : ∀ x ∈ rf.pending, rf.loaded x.1 →
    (∃ r ∈ w.store.rules, r.id = x.1) ∧ w.memory.cooldowns.Equates x.1 x.2.1 x.2.2

/-- Worlds that are the same but for books that fit. -/
def SameButBooks (rf : RuleFacts) (v w : World) : Prop :=
  ∃ d : BookChange, w = v.withBooks d ∧ d.Fits rf v

variable {rf : RuleFacts}

/-- Whether books fit depends on the clock, the rows, the tracker and the outages alone. -/
theorem BookChange.Fits.congr {d : BookChange} {v w : World} (h : d.Fits rf v)
    (hk : w.clock = v.clock)
    (hr : w.store.rules = v.store.rules) (hc : w.memory.cooldowns = v.memory.cooldowns)
    (ho : w.outages = v.outages) : d.Fits rf w where
  clock := hk ▸ h.clock
  nodup := hr ▸ h.nodup
  aware := hc ▸ h.aware
  aware' := h.aware'
  outages c hk := ho ▸ h.outages c hk
  suits := hr ▸ h.suits
  natural := hr ▸ h.natural
  loaded := hr ▸ h.loaded
  same := hc ▸ h.same
  equates := by
    rw [hr, hc]
    exact h.equates
  pending := by
    rw [hr, hc]
    exact h.pending

theorem SameButBooks.clock {v w : World} (h : SameButBooks rf v w) : v.clock.Aware := by
  obtain ⟨d, _, hd⟩ := h
  exact hd.clock

/-- Conditions and actions cannot tell such worlds apart. -/
theorem indistinguishable_sameButBooks (rf : RuleFacts) : Indistinguishable (SameButBooks rf) where
  zone := by
    rintro v _ ⟨d, rfl, _⟩
    rfl
  readings := by
    rintro v _ ⟨d, rfl, _⟩
    rfl
  locked := by
    rintro v _ ⟨d, rfl, _⟩
    rfl
  still := by
    rintro v _ ⟨d, rfl, _⟩
    rfl
  consult := by
    rintro v _ c hc ⟨d, rfl, h⟩
    have hget : (v.withBooks d).outages.get? c = v.outages.get? c := h.outages c hc
    unfold World.consult
    rw [hget]
    cases v.outages.get? c with
    | none => exact ⟨_, _, _, rfl, rfl, d, rfl, h⟩
    | some s =>
      refine ⟨_, _, _, rfl, rfl, { d with outages := d.outages.put c s.next }, rfl, ?_⟩
      exact { h with
        outages := fun k hk => by
          show (d.outages.put c s.next).get? k = (v.outages.put c s.next).get? k
          rw [Table.get?_put, Table.get?_put, h.outages k hk] }
  distant := by
    rintro v _ α f hf ⟨d, rfl, h⟩
    obtain ⟨a, o, ho⟩ := hf v.still
    have hv : f v = (a, ofParts v.interior (o.failing v.outages)) := ho v.interior v.outages
    have hw : f (v.withBooks d) = (a, ofParts (v.withBooks d).interior (o.failing d.outages)) :=
      ho (v.withBooks d).interior d.outages
    rw [hv, hw]
    exact ⟨d, rfl, h.congr rfl rfl rfl rfl⟩

/-! ## Performances side by side -/

/-- Outcomes that fail alike, or succeed with related results. -/
inductive Likewise {ε α β : Type} (Q : α → β → Prop) : Except ε α → Except ε β → Prop
  | ok {a : α} {b : β} (result : Q a b) : Likewise Q (.ok a) (.ok b)
  | error (e : ε) : Likewise Q (.error e) (.error e)

theorem Likewise.of_eq {ε α : Type} {x y : Except ε α} (h : x = y) : Likewise Eq x y := by
  subst h
  cases x with
  | ok a => exact .ok rfl
  | error e => exact .error e

/-- A report without what it says of the store: whether a trigger could be noted there. -/
def Report.shown : Report → Report
  | .triggered x _ => .triggered x true
  | r => r

/-- Reports that tell the same of a rule, its decision and its actions. -/
def Report.Matches (r r' : Report) : Prop := r.shown = r'.shown

/-- Two performances with related results that end in worlds that are the same but for
their books. -/
structure MatchingEnds (rf : RuleFacts) {α β : Type} (Q : α → β → Prop) (x : α × World)
    (y : β × World) :
    Prop where
  result : Q x.1 y.1
  worlds : SameButBooks rf x.2 y.2

namespace MatchingEnds

variable {ε α β γ δ : Type} {Q : α → β → Prop} {Q' : γ → δ → Prop} {v w : World}

theorem of_respects {p : Activity α} (hp : Respects (SameButBooks rf) p) (h : SameButBooks rf v w) :
    MatchingEnds rf Eq (p.run v) (p.run w) := by
  obtain ⟨hresult, hworlds⟩ := Alike.run (indistinguishable_sameButBooks rf).steady hp h
  exact ⟨hresult, hworlds⟩

theorem of_apart {x : Work α} (hx : Work.Apart x) (h : SameButBooks rf v w) :
    MatchingEnds rf Eq (x.run.run v) (x.run.run w) :=
  of_respects (hx _ (indistinguishable_sameButBooks rf)) h

protected theorem mono {P : α → β → Prop} (hP : ∀ a b, Q a b → P a b) {x : α × World}
    {y : β × World} (h : MatchingEnds rf Q x y) : MatchingEnds rf P x y :=
  ⟨hP _ _ h.result, h.worlds⟩

/-- One activity after another. -/
protected theorem bind {p : Activity α} {q : Activity β} {k : α → Activity γ}
    {l : β → Activity δ} (h : MatchingEnds rf Q (p.run v) (q.run w))
    (hk : ∀ a b v' w', Q a b → SameButBooks rf v' w' → MatchingEnds rf Q' ((k a).run v')
    ((l b).run w')) : MatchingEnds rf Q' ((p >>= k).run v) ((q >>= l).run w) := by
  rw [run_bind', run_bind']
  exact hk _ _ _ _ h.result h.worlds

/-- One computation after another; the first fault ends both. -/
protected theorem seq {x : ExceptT ε Activity α} {y : ExceptT ε Activity β}
    {f : α → ExceptT ε Activity γ} {g : β → ExceptT ε Activity δ}
    (h : MatchingEnds rf (Likewise Q) (x.run.run v) (y.run.run w))
    (hf : ∀ a b v' w', Q a b → SameButBooks rf v' w' →
      MatchingEnds rf (Likewise Q') ((f a).run.run v') ((g b).run.run w')) :
    MatchingEnds rf (Likewise Q') ((x >>= f).run.run v) ((y >>= g).run.run w) := by
  rw [Work.run_bind, Work.run_bind]
  generalize x.run.run v = p at h ⊢
  generalize y.run.run w = q at h ⊢
  obtain ⟨r, v'⟩ := p
  obtain ⟨s, w'⟩ := q
  obtain ⟨hresult, hworlds⟩ := h
  cases hresult with
  | ok hab => exact hf _ _ _ _ hab hworlds
  | error e => exact ⟨.error e, hworlds⟩

theorem lift {p : Activity α} {q : Activity β} (h : MatchingEnds rf Q (p.run v) (q.run w)) :
    MatchingEnds rf (Likewise Q) ((ExceptT.lift p : ExceptT ε Activity α).run.run v)
      ((ExceptT.lift q : ExceptT ε Activity β).run.run w) := by
  rw [Work.run_lift, Work.run_lift]
  exact ⟨.ok h.result, h.worlds⟩

end MatchingEnds

/-! ## Books kept or not -/

/-- A call that keeps the books changes no more than its part of the store, the count of
losses and the script of its own outages. -/
theorem World.run_audit {α : Type} (c : Contact) (f : Store → Except Fault (α × Store))
    (w : World) :
    ∃ x s n o, (Engine.keep (Work.store c f)).run w
        = (x, { w with store := s, memory := { w.memory with lost := n }, outages := o })
      ∧ (∀ k, k ≠ c → o.get? k = w.outages.get? k)
      ∧ (s = w.store ∨ ∃ a, f w.store = .ok (a, s)) := by
  have hconsult : ∃ e o, w.consult c = (e, { w with outages := o })
      ∧ ∀ k, k ≠ c → o.get? k = w.outages.get? k := by
    unfold World.consult
    cases w.outages.get? c with
    | none => exact ⟨none, w.outages, rfl, fun _ _ => rfl⟩
    | some s =>
      refine ⟨s.head, w.outages.put c s.next, rfl, fun k hk => ?_⟩
      rw [Table.get?_put, if_neg (Ne.symm hk)]
  obtain ⟨e, o, hc, ho⟩ := hconsult
  rw [Engine.run_keep, Work.run_store]
  unfold World.callStore
  rw [hc]
  cases e with
  | some e => exact ⟨none, w.store, w.memory.lost + 1, o, rfl, ho, .inl rfl⟩
  | none =>
    cases hf : f w.store with
    | error e =>
      simp only [hf]
      exact ⟨none, w.store, w.memory.lost + 1, o, rfl, ho, .inl rfl⟩
    | ok p =>
      obtain ⟨a, s⟩ := p
      simp only [hf]
      exact ⟨some a, s, w.memory.lost, o, rfl, ho, .inr ⟨a, rfl⟩⟩

namespace Engine

variable {v w : World}

/-- An execution may be recorded in one world and lost in the other. -/
theorem record_sameButBooks (x : Execution) (h : SameButBooks rf v w) :
    MatchingEnds rf (fun _ _ => True) ((record x).run v) ((record x).run w) := by
  obtain ⟨d, rfl, hd⟩ := h
  obtain ⟨a, s, n, o, hv, ho, hs⟩ := v.run_audit .recordExecution fun s => s.recordExecution x
  obtain ⟨a', s', n', o', hw, ho', hs'⟩ :=
    (v.withBooks d).run_audit .recordExecution fun s => s.recordExecution x
  have hrows : ∃ xs, s = { v.store with executions := xs } := by
    rcases hs with rfl | ⟨_, he⟩
    · exact ⟨_, rfl⟩
    · obtain ⟨row, _, rfl⟩ := Store.recordExecution_eq_ok he
      exact ⟨_, rfl⟩
  have hrows' : ∃ xs, s' = { (v.withBooks d).store with executions := xs } := by
    rcases hs' with rfl | ⟨_, he⟩
    · exact ⟨_, rfl⟩
    · obtain ⟨row, _, rfl⟩ := Store.recordExecution_eq_ok he
      exact ⟨_, rfl⟩
  obtain ⟨xs, rfl⟩ := hrows
  obtain ⟨xs', rfl⟩ := hrows'
  unfold record
  rw [hv, hw]
  refine ⟨trivial, { d with executions := xs', lost := n', outages := o' }, rfl, ?_⟩
  exact { hd with
    outages := fun c hc => by
      have hne : c ≠ .recordExecution := by
        rintro rfl
        cases hc
      exact (ho' c hne).trans ((hd.outages c hc).trans (ho c hne).symm) }

end Engine

/-- A past with a trigger noted, if the note was taken. -/
def Past.told (taken : Bool) (i : Instant) (n : Int) (p : Past) : Past :=
  if taken then p.noted i n else p

/-- A past that has a note taken, or missed, is still no less than natural. -/
theorem Past.told_natural {p : Past} (h : 0 ≤ p.count) (taken : Bool) (i n : Int) :
    0 ≤ (p.told taken i n).count := by
  unfold told
  split
  · exact Int.le_trans h (Int.le_max_left _ _)
  · exact h

/-- The rows with a trigger noted at one of them, if the note was taken. -/
def RuleRow.told (taken : Bool) (id i : Int) (n : Int) (r : RuleRow) : RuleRow :=
  if r.id = id then r.withPast (r.past.told taken i n) else r

namespace RuleRow

variable (taken : Bool) (id i n : Int) (r : RuleRow)

@[simp] theorem id_told : (r.told taken id i n).id = r.id := by
  unfold told
  split <;> rfl

@[simp] theorem enabled_told : (r.told taken id i n).enabled = r.enabled := by
  unfold told
  split <;> rfl

theorem past_told :
    (r.told taken id i n).past = if r.id = id then r.past.told taken i n else r.past := by
  unfold told
  split <;> rfl

/-- A note that is not taken changes nothing. -/
theorem told_false : r.told false id i n = r := by
  unfold told
  split <;> rfl

/-- A note that is taken changes the row of its number. -/
theorem told_true : r.told true id i n = if r.id == id then r.noted i n else r := by
  unfold told
  by_cases h : r.id = id
  · simp only [h, beq_self_eq_true, if_true]
    rfl
  · simp [h]

/-- A note does not make a row unreadable whose count is natural. -/
theorem rule?_told {r : RuleRow} (h : r.id = id → 0 ≤ r.triggerCount) :
    (r.told taken id i n).rule?.isSome = r.rule?.isSome := by
  unfold told
  split
  · next hid =>
    unfold rule?
    rw [toRule_withPast (h hid) (Past.told_natural (h hid) taken i n)]
    cases r.toRule <;> rfl
  · rfl

/-- Nor does it change whether the count is natural. -/
theorem natural_told {r : RuleRow} (h : r.id = id → 0 ≤ r.triggerCount) :
    0 ≤ (r.told taken id i n).triggerCount ↔ 0 ≤ r.triggerCount := by
  show 0 ≤ (r.told taken id i n).past.count ↔ _
  rw [past_told]
  split
  · next hid => exact ⟨fun _ => h hid, fun _ => Past.told_natural (h hid) taken i n⟩
  · exact Iff.rfl

end RuleRow

namespace Engine

variable {v w : World}

/-- What noting a trigger does to a world. -/
theorem noteTrigger_run (id : Int) (time : Moment) (n : Nat) (w : World) :
    ∃ x taken l o, (noteTrigger id time n).run w = (x, { w with
        store := { w.store with rules := w.store.rules.map (RuleRow.told taken id time.instant n) }
        memory := { w.memory with lost := l }
        outages := o })
      ∧ ∀ k, k ≠ .noteTrigger → o.get? k = w.outages.get? k := by
  obtain ⟨x, s, l, o, hw, ho, hs⟩ := w.run_audit .noteTrigger fun s => s.noteTrigger id time n
  have hstore : ∃ taken, s = { w.store with
      rules := w.store.rules.map (RuleRow.told taken id time.instant n) } := by
    rcases hs with rfl | ⟨u, hs⟩
    · refine ⟨false, ?_⟩
      rw [List.map_congr_left fun r _ => r.told_false id time.instant n, List.map_id']
    · obtain ⟨i, hi, rfl⟩ := Store.noteTrigger_eq_ok hs
      obtain ⟨_, rfl⟩ := Moment.toInstant_eq_ok.1 hi
      refine ⟨true, ?_⟩
      rw [List.map_congr_left fun r _ => r.told_true id time.instant n]
      rfl
  obtain ⟨taken, rfl⟩ := hstore
  exact ⟨x, taken, l, o, hw, ho⟩

end Engine

/-- Pasts that a tracker equates stay so after a note that it knows of, whether or not that is
taken. -/
theorem Cooldown.Equates.told {t : Cooldown} {id : Int} {p q : Past} (h : t.Equates id p q)
    {m : Moment} (hm : t.last.get? id = some m) (taken taken' : Bool) :
    t.Equates id (p.told taken m.instant (t.triggerCount id))
      (q.told taken' m.instant (t.triggerCount id)) := by
  have hleft : t.Equates id (p.told taken m.instant (t.triggerCount id)) q := by
    unfold Past.told
    split
    · exact h.noted hm rfl
    · exact h
  cases taken' with
  | true => exact (hleft.symm.noted hm rfl).symm
  | false => exact hleft

namespace Pasts

/-- What rows tell after a note at one of them. -/
def told (f : Pasts) (taken : Bool) (id i n : Int) : Pasts :=
  fun k => if k = id then (f k).told taken i n else f k

variable (f : Pasts) (taken taken' : Bool) (id i i' n n' : Int) (r : RuleRow)

/-- A note in the second world is part of what its rows tell, whatever was noted in the first. -/
theorem row_told :
    (f.row r).told taken' id i' n' = (f.told taken' id i' n').row (r.told taken id i n) := by
  show (f.row r).told taken' id i' n'
    = (r.told taken id i n).withPast (f.told taken' id i' n' (r.told taken id i n).id)
  rw [RuleRow.id_told]
  unfold RuleRow.told told
  by_cases h : r.id = id
  · rw [if_pos (show (f.row r).id = id from h), if_pos h, if_pos h]
    rfl
  · rw [if_neg (show (f.row r).id ≠ id from h), if_neg h, if_neg h]
    rfl

variable {f r}

/-- A past that stands for that of a row whose count is natural still does after the notes. -/
theorem Suits.told (h : f.Suits r) (natural : r.id = id → 0 ≤ r.triggerCount) :
    (f.told taken' id i' n').Suits (r.told taken id i n) := by
  show (if _ then _ else _) = _ ∨
    0 ≤ (RuleRow.told ..).past.count ∧ 0 ≤ (if _ then _ else _ : Past).count
  rw [RuleRow.id_told, RuleRow.past_told]
  by_cases hid : r.id = id
  · have hrow := natural hid
    have hpast : 0 ≤ (f r.id).count := by
      rcases h with he | he
      · rw [he]
        exact hrow
      · exact he.2
    rw [if_pos hid, if_pos hid]
    exact .inr ⟨Past.told_natural hrow _ _ _, Past.told_natural hpast _ _ _⟩
  · rw [if_neg hid, if_neg hid]
    exact h

end Pasts

/-- A tracker equates the past of a row and the one that stands for it after both notes, if
these are of what it has. -/
theorem Cooldown.Equates.told_row {t : Cooldown} {f : Pasts} {r : RuleRow}
    (h : t.Equates r.id r.past (f r.id)) {id : Int} {time time' : Moment} {n n' : Nat}
    (taken taken' : Bool) (known : r.id = id → t.last.get? id = some time ∧ t.triggerCount id = n)
    (same : r.id = id → time' = time ∧ n' = n) :
    t.Equates r.id (r.told taken id time.instant n).past
      (f.told taken' id time'.instant n' r.id) := by
  unfold Pasts.told
  rw [RuleRow.past_told]
  by_cases hid : r.id = id
  · obtain ⟨hlast, rfl⟩ := known hid
    obtain ⟨rfl, rfl⟩ := same hid
    rw [if_pos hid, if_pos hid]
    subst hid
    exact h.told hlast taken taken'
  · rw [if_neg hid, if_neg hid]
    exact h

/-- Books still fit after a trigger of a rule was noted that the trackers know of, whether
or not each note was taken. -/
theorem BookChange.Fits.told {d : BookChange} {v v' : World} (h : d.Fits rf v) {id : Int}
    (natural : rf.natural id) {time time' : Moment} {n n' : Nat} (taken taken' : Bool)
    (hv : v.memory.cooldowns.last.get? id = some time)
    (hn : v.memory.cooldowns.triggerCount id = n)
    (hw : d.cooldowns.last.get? id = some time') (hn' : d.cooldowns.triggerCount id = n')
    (hclock : v'.clock = v.clock)
    (hrules : v'.store.rules = v.store.rules.map (RuleRow.told taken id time.instant n))
    (htracker : v'.memory.cooldowns = v.memory.cooldowns) (hfail : v'.outages = v.outages) :
    { d with pasts := d.pasts.told taken' id time'.instant n' : BookChange }.Fits rf v' := by
  have hnatural : ∀ r ∈ v.store.rules, r.id = id → 0 ≤ r.triggerCount :=
    fun r hr hid => (h.natural r hr).1 (hid ▸ natural)
  refine {
    clock := hclock ▸ h.clock
    nodup := ?_
    aware := htracker ▸ h.aware
    aware' := h.aware'
    outages := hfail ▸ h.outages
    suits := ?_
    natural := ?_
    loaded := ?_
    same := htracker ▸ h.same
    equates := ?_
    pending := ?_ }
  · rw [hrules, List.map_map]
    show (v.store.rules.map fun r => (r.told taken id time.instant n).id).Nodup
    simp only [RuleRow.id_told]
    exact h.nodup
  · rw [hrules]
    refine List.forall_mem_map.2 fun r hr => ?_
    exact (h.suits r hr).told _ _ _ _ _ _ _ (hnatural r hr)
  · rw [hrules]
    refine List.forall_mem_map.2 fun r hr => ?_
    rw [RuleRow.id_told, RuleRow.natural_told _ _ _ _ (hnatural r hr)]
    exact h.natural r hr
  · rw [hrules]
    refine List.forall_mem_map.2 fun r hr => ?_
    rw [RuleRow.id_told, RuleRow.enabled_told, RuleRow.rule?_told _ _ _ _ (hnatural r hr)]
    exact h.loaded r hr
  · rw [hrules, htracker]
    refine List.forall_mem_map.2 fun r hr => ?_
    rw [RuleRow.id_told]
    intro hloaded
    refine (h.equates r hr hloaded).told_row taken taken' (fun _ => ⟨hv, hn⟩) fun hid => ?_
    -- both trackers tell the same of a rule that ticks load
    have hsame := hid ▸ h.same r.id hloaded
    exact ⟨Option.some.inj (hw.symm.trans (hsame.last.symm.trans hv)),
      hn'.symm.trans (hsame.triggerCount.symm.trans hn)⟩
  · rw [hrules, htracker]
    intro x hx hloaded
    obtain ⟨⟨r, hr, hid⟩, hequates⟩ := h.pending x hx hloaded
    exact ⟨⟨_, List.mem_map_of_mem hr, (RuleRow.id_told ..).trans hid⟩, hequates⟩

namespace Engine

variable {v w : World} {now : Moment}

/-- A trigger may be noted in one world and lost in the other, once the trackers have it. -/
theorem noteTrigger_sameButBooks {id : Int} (natural : rf.natural id) {time time' : Moment}
    {n n' : Nat} (h : SameButBooks rf v w) (hv : v.memory.cooldowns.last.get? id = some time)
    (hn : v.memory.cooldowns.triggerCount id = n)
    (hw : w.memory.cooldowns.last.get? id = some time')
    (hn' : w.memory.cooldowns.triggerCount id = n') :
    MatchingEnds rf (fun _ _ => True) ((noteTrigger id time n).run v)
      ((noteTrigger id time' n').run w) := by
  obtain ⟨d, rfl, hd⟩ := h
  obtain ⟨x, taken, l, o, hrun, ho⟩ := noteTrigger_run id time n v
  obtain ⟨x', taken', l', o', hrun', ho'⟩ := noteTrigger_run id time' n' (v.withBooks d)
  rw [hrun, hrun']
  let noted : World := { v with
    store := { v.store with rules := v.store.rules.map (RuleRow.told taken id time.instant n) } }
  have hfit : BookChange.Fits _ rf noted :=
    hd.told natural taken taken' hv hn hw hn' rfl rfl rfl rfl
  refine ⟨trivial, { d with
    pasts := d.pasts.told taken' id time'.instant n', lost := l', outages := o' }, ?_, ?_⟩
  · have hrows : (v.store.rules.map d.pasts.row).map (RuleRow.told taken' id time'.instant n')
        = (v.store.rules.map (RuleRow.told taken id time.instant n)).map
          (d.pasts.told taken' id time'.instant n').row := by
      rw [List.map_map, List.map_map]
      exact List.map_congr_left fun r _ => d.pasts.row_told ..
    show { (v.withBooks d) with
        store := { (v.withBooks d).store with
          rules := (v.store.rules.map d.pasts.row).map (RuleRow.told taken' id time'.instant n') }
        memory := { (v.withBooks d).memory with lost := l' }
        outages := o' } = _
    rw [hrows]
    rfl
  · exact { hfit with
      outages := fun c hc => by
        have hne : c ≠ .noteTrigger := by
          rintro rfl
          cases hc
        exact (ho' c hne).trans ((hd.outages c hc).trans (ho c hne).symm) }

/-- A change that does not see the books keeps worlds the same but for these. -/
theorem modify_sameButBooks {f : World → World} (hf : ∀ v d, f (v.withBooks d) = (f v).withBooks d)
    (hk : ∀ v, (f v).clock = v.clock) (hr : ∀ v, (f v).store.rules = v.store.rules)
    (hc : ∀ v, (f v).memory.cooldowns = v.memory.cooldowns) (ho : ∀ v, (f v).outages = v.outages)
    (h : SameButBooks rf v w) :
    MatchingEnds rf Eq ((Plan.modify f).run v) ((Plan.modify f).run w) := by
  obtain ⟨d, rfl, hd⟩ := h
  refine ⟨rfl, d, ?_, hd.congr (hk v) (hr v) (hc v) (ho v)⟩
  exact hf v d

theorem count_sameButBooks (f : Tally → Tally) (h : SameButBooks rf v w) :
    MatchingEnds rf Eq ((count f).run v) ((count f).run w) :=
  modify_sameButBooks (fun _ _ => rfl) (fun _ => rfl) (fun _ => rfl) (fun _ => rfl) (fun _ => rfl) h

theorem publish_sameButBooks (kind : EventKind) (payload : Doc) (h : SameButBooks rf v w) :
    MatchingEnds rf Eq ((publish kind payload).run v) ((publish kind payload).run w) :=
  modify_sameButBooks (fun _ _ => rfl) (fun _ => rfl) (fun _ => rfl) (fun _ => rfl) (fun _ => rfl) h

/-- Worlds stay the same but for their books when a trigger is marked in both trackers. -/
theorem marked_sameButBooks {d : BookChange} (h : d.Fits rf v) (id : Int) (hn : now.Aware) :
    SameButBooks rf (v.track (v.memory.cooldowns.marked id now))
      ((v.withBooks d).track (d.cooldowns.marked id now)) := by
  refine ⟨{ d with cooldowns := d.cooldowns.marked id now }, rfl, ?_⟩
  exact { h with
    aware := h.aware.marked id hn
    aware' := h.aware'.marked id hn
    same := fun k hk => by
      by_cases hid : id = k
      · subst hid
        exact (h.same id hk).marked now
      · exact (Cooldown.marked_of_ne now hid).trans
          ((h.same k hk).trans (Cooldown.marked_of_ne now hid).symm)
    equates := fun r hr hk => (h.equates r hr hk).beyond (Cooldown.beyond_marked ..)
    pending := fun x hx hk =>
      (h.pending x hx hk).imp_right fun hl => hl.beyond (Cooldown.beyond_marked ..) }

theorem markTriggered_sameButBooks {rule : Rule} (natural : rf.natural rule.id) (hn : now.Aware)
    (h : SameButBooks rf v w) :
    MatchingEnds rf (Likewise fun _ _ => True) ((markTriggered rule now).run.run v)
      ((markTriggered rule now).run.run w) := by
  obtain ⟨d, rfl, hd⟩ := h
  have hw : (v.withBooks d).memory.cooldowns = d.cooldowns := rfl
  unfold markTriggered
  rw [Work.run_bind, Work.run_bind]
  simp only [Work.run_mk, run_change, hw, Cooldown.mark_of_aware hd.aware _ hn,
    Cooldown.mark_of_aware hd.aware' _ hn]
  have hnote := noteTrigger_sameButBooks natural (marked_sameButBooks hd rule.id hn)
    (Cooldown.marked_last ..) (by simp only [World.track, Cooldown.triggerCount,
      Cooldown.marked_counts, Option.getD_some]; rfl)
    (Cooldown.marked_last ..) (by simp only [World.track, Cooldown.triggerCount,
      Cooldown.marked_counts, Option.getD_some]; rfl)
  refine MatchingEnds.seq (MatchingEnds.lift hnote) fun a b v' w' _ h' => ?_
  refine MatchingEnds.seq (MatchingEnds.lift (count_sameButBooks _ h')) fun _ _ v'' w'' _ h'' => ?_
  exact ⟨.ok trivial, h''⟩

theorem fire_sameButBooks {rule : Rule} (natural : rf.natural rule.id) (hn : now.Aware)
    (e : Evaluation) (s : Snapshot) (h : SameButBooks rf v w) :
    MatchingEnds rf (Likewise Report.Matches) ((fire rule now e s).run.run v)
      ((fire rule now e s).run.run w) := by
  unfold fire
  refine MatchingEnds.seq
    ((MatchingEnds.of_apart (apart_dispatch _ _) h).mono fun _ _ => Likewise.of_eq)
    fun outcomes _ v₁ w₁ heq h₁ => ?_
  subst heq
  cases hs : outcomes.all Outcome.succeeded with
  | true =>
    simp only [if_true]
    refine MatchingEnds.seq (markTriggered_sameButBooks natural hn h₁)
      fun noted noted' v₂ w₂ _ h₂ => ?_
    refine MatchingEnds.seq (MatchingEnds.lift (record_sameButBooks _ h₂)) fun _ _ v₃ w₃ _ h₃ => ?_
    refine MatchingEnds.seq (MatchingEnds.lift (publish_sameButBooks _ _ h₃))
      fun _ _ v₄ w₄ _ h₄ => ?_
    exact ⟨.ok rfl, h₄⟩
  | false =>
    simp only [Bool.false_eq_true, if_false]
    refine MatchingEnds.seq (Q := fun _ _ => True) ?_ fun noted noted' v₂ w₂ _ h₂ => ?_
    · refine MatchingEnds.seq (MatchingEnds.lift (count_sameButBooks _ h₁)) fun _ _ v₂ w₂ _ h₂ => ?_
      exact ⟨.ok trivial, h₂⟩
    refine MatchingEnds.seq (MatchingEnds.lift (record_sameButBooks _ h₂)) fun _ _ v₃ w₃ _ h₃ => ?_
    refine MatchingEnds.seq (MatchingEnds.lift (publish_sameButBooks _ _ h₃))
      fun _ _ v₄ w₄ _ h₄ => ?_
    exact ⟨.ok rfl, h₄⟩

theorem suppress_sameButBooks {rule : Rule} (loaded : rf.loaded rule.id) (e : Evaluation)
    (s : Snapshot) (h : SameButBooks rf v w) :
    MatchingEnds rf (Likewise Report.Matches) ((suppress rule now e s).run.run v)
      ((suppress rule now e s).run.run w) := by
  unfold suppress
  refine MatchingEnds.seq (MatchingEnds.lift (count_sameButBooks _ h)) fun _ _ v₁ w₁ _ h₁ => ?_
  refine MatchingEnds.seq (Q := fun c c' => c.remaining rule.id now = c'.remaining rule.id now) ?_
    fun c c' v₂ w₂ heq h₂ => ?_
  · obtain ⟨d, rfl, hd⟩ := h₁
    exact ⟨.ok ((hd.same _ loaded).remaining now), d, rfl, hd⟩
  rw [heq]
  refine MatchingEnds.seq (Q := Eq) ⟨Likewise.of_eq rfl, h₂⟩ fun _ _ v₃ w₃ _ h₃ => ?_
  refine MatchingEnds.seq (MatchingEnds.lift (record_sameButBooks _ h₃)) fun _ _ v₄ w₄ _ h₄ => ?_
  exact ⟨.ok rfl, h₄⟩

theorem respond_sameButBooks {rule : Rule} {bypass : Bool} (natural : rf.natural rule.id)
    (loaded : bypass = true ∨ rf.loaded rule.id) (hn : now.Aware) (e : Evaluation) (s : Snapshot)
    (h : SameButBooks rf v w) :
    MatchingEnds rf (Likewise Report.Matches) ((respond rule now bypass e s).run.run v)
      ((respond rule now bypass e s).run.run w) := by
  unfold respond
  cases bypass with
  | true => exact fire_sameButBooks natural hn e s h
  | false =>
    have loaded := loaded.resolve_left Bool.false_ne_true
    have hmay : MatchingEnds rf (Likewise Eq) ((eligible rule.id now).run.run v)
        ((eligible rule.id now).run.run w) := by
      obtain ⟨d, rfl, hd⟩ := h
      refine ⟨Likewise.of_eq ?_, d, rfl, hd⟩
      exact (hd.same _ loaded).eligible now
    refine MatchingEnds.seq hmay fun may _ v₁ w₁ heq h₁ => ?_
    subst heq
    cases may with
    | true => exact fire_sameButBooks natural hn e s h₁
    | false => exact suppress_sameButBooks loaded e s h₁

theorem recordFault_sameButBooks (rule : Rule) (judged : Option (Evaluation × Snapshot)) (f : Fault)
    (h : SameButBooks rf v w) :
    MatchingEnds rf Report.Matches ((recordFault rule now judged f).run v)
      ((recordFault rule now judged f).run w) := by
  refine MatchingEnds.bind (count_sameButBooks _ h) fun _ _ v₁ w₁ _ h₁ => ?_
  refine MatchingEnds.bind (record_sameButBooks _ h₁) fun _ _ v₂ w₂ _ h₂ => ?_
  exact ⟨rfl, h₂⟩

/-- A rule is looked at alike in such worlds: a rule that ticks load, or any if its cooldown
does not count. -/
theorem processRule_sameButBooks {rule : Rule} {bypass force : Bool} (natural : rf.natural rule.id)
    (loaded : bypass = true ∨ rf.loaded rule.id) (hn : now.Aware) (h : SameButBooks rf v w) :
    MatchingEnds rf Report.Matches ((processRule rule now bypass force).run v)
      ((processRule rule now bypass force).run w) := by
  refine MatchingEnds.bind (count_sameButBooks _ h) fun _ _ v₁ w₁ _ h₁ => ?_
  refine MatchingEnds.bind (MatchingEnds.of_apart (apart_evaluate rule.conditions now) h₁)
    fun r _ v₂ w₂ heq h₂ => ?_
  subst heq
  cases r with
  | error f => exact recordFault_sameButBooks rule none f h₂
  | ok p =>
    simp only
    split
    · exact ⟨rfl, h₂⟩
    · refine MatchingEnds.bind (respond_sameButBooks natural loaded hn p.1 p.2 h₂)
        fun x y v₃ w₃ hxy h₃ => ?_
      cases hxy with
      | ok result => exact ⟨result, h₃⟩
      | error f => exact recordFault_sameButBooks rule (some p) f h₃

/-- Rules that ticks load are looked at alike in such worlds. -/
theorem processAll_sameButBooks {rules : List Rule} (hn : now.Aware)
    (hr : ∀ rule ∈ rules, rf.natural rule.id ∧ rf.loaded rule.id) (h : SameButBooks rf v w) :
    MatchingEnds rf (List.Forall₂ Report.Matches) ((processAll now rules).run v)
      ((processAll now rules).run w) := by
  induction rules generalizing v w with
  | nil => exact ⟨.nil, h⟩
  | cons rule rules ih =>
    obtain ⟨natural, loaded⟩ := hr rule (List.mem_cons_self ..)
    refine MatchingEnds.bind (processRule_sameButBooks natural (.inr loaded) hn h)
      fun r r' v₁ w₁ hrr h₁ => ?_
    refine MatchingEnds.bind (ih (fun q hq => hr q (List.mem_cons_of_mem _ hq)) h₁)
      fun rs rs' v₂ w₂ hrs h₂ => ?_
    exact ⟨.cons hrr hrs, h₂⟩

end Engine

/-! ## Ticks and triggers -/

/-- A tick without what it says of the store. -/
def Round.shown : Round → Round
  | .unloaded t e => .unloaded t e
  | .done t rules reports => .done t (rules.map (Rule.withPast ⟨none, 0⟩)) (reports.map Report.shown)

/-- Ticks that tell the same of all rules. -/
def Round.Matches (r r' : Round) : Prop := r.shown = r'.shown

theorem Round.matches_done {t : Moment} {rules : List Rule} (f : Pasts)
    {reports reports' : List Report} (h : List.Forall₂ Report.Matches reports reports') :
    Round.Matches (.done t rules reports) (.done t (rules.map f.rule) reports') := by
  have hreports : reports.map Report.shown = reports'.map Report.shown := by
    induction h with
    | nil => rfl
    | cons first _ ih => rw [List.map_cons, List.map_cons, first, ih]
  have hrules : (rules.map f.rule).map (Rule.withPast ⟨none, 0⟩)
      = rules.map (Rule.withPast ⟨none, 0⟩) := List.map_map
  simp only [Matches, shown, hreports, hrules]

namespace BookChange.Fits

variable {d : BookChange} {v : World}

/-- The rows of the enabled rules differ in their past alone. -/
theorem enabledRows (d : BookChange) (v : World) :
    (v.withBooks d).books.enabledRows = v.books.enabledRows.map d.pasts.row :=
  Pasts.enabled_rows d.pasts v.store.rules

theorem sift (h : d.Fits rf v) :
    Engine.sift (v.withBooks d).books.enabledRows
      = ((Engine.sift v.books.enabledRows).1.map (List.map d.pasts.rule),
        (Engine.sift v.books.enabledRows).2) := by
  rw [enabledRows]
  exact Pasts.sift_rows fun r hr => h.suits r (Books.mem_of_enabledRows hr)

/-- Rules that a tick builds are among those that ticks load. -/
theorem loaded_of_built (h : d.Fits rf v) {rule : Rule} (hr : rule ∈ v.books.built) :
    rf.natural rule.id ∧ rf.loaded rule.id := by
  obtain ⟨row, hrow, hrule⟩ := List.mem_filterMap.1 hr
  obtain ⟨hmem, henabled⟩ := Books.mem_enabledRows.1 hrow
  have hbuilt := RuleRow.rule?_eq_some.1 hrule
  rw [(RuleRow.isOf_of_toRule hbuilt).id]
  exact ⟨(h.natural row hmem).2 (RuleRow.count_nonneg_of_toRule hbuilt),
    (h.loaded row hmem).2 ⟨henabled, by rw [hrule]; rfl⟩⟩

/-- After a tick has merged in its rules the trackers still hold the same about them. -/
theorem refreshed_same (h : d.Fits rf v) {k : Int} (hk : rf.loaded k) :
    Cooldown.SameAt k (v.memory.cooldowns.refreshed v.books.built)
      (d.cooldowns.refreshed (v.books.built.map d.pasts.rule)) := by
  have hn : (v.books.built.map (·.id)).Nodup := v.books.built_ids h.nodup
  have hsame := h.same k hk
  by_cases hmem : ∃ rule ∈ v.books.built, rule.id = k
  · obtain ⟨rule, hr, rfl⟩ := hmem
    obtain ⟨row, hrow, hbuilt⟩ := v.books.rows_of_built rule hr
    have hid := (RuleRow.isOf_of_toRule hbuilt).id
    have hequates := h.equates row hrow (hid ▸ hk)
    rw [← hid] at hequates
    have hpast : (d.pasts.rule rule).Recalls (d.pasts rule.id) := by
      rw [hid]
      exact Pasts.recalls_rule (h.suits row hrow) hbuilt
    have hmerge :=
      hsame.merge_equates hequates (RuleRow.isOf_of_toRule hbuilt).recalls hpast rfl rfl
    have hleft := Cooldown.refreshed_of_mem hn hr v.memory.cooldowns
    have hn' : ((v.books.built.map d.pasts.rule).map (·.id)).Nodup := by
      rw [List.map_map]
      exact hn
    have hright := Cooldown.refreshed_of_mem hn' (List.mem_map_of_mem hr) d.cooldowns
    exact hleft.trans (hmerge.trans hright.symm)
  · have hnone : ∀ rule ∈ v.books.built, rule.id ≠ k := fun rule hr hid => hmem ⟨rule, hr, hid⟩
    have hnone' : ∀ rule ∈ v.books.built.map d.pasts.rule, rule.id ≠ k := by
      intro rule hr
      obtain ⟨a, ha, rfl⟩ := List.mem_map.1 hr
      exact hnone a ha
    have hleft := Cooldown.refreshed_of_not_mem hnone v.memory.cooldowns
    have hright := Cooldown.refreshed_of_not_mem hnone' d.cooldowns
    refine hleft.trans (Cooldown.SameAt.trans ?_ hright.symm)
    simp only [hsame.mem_known]
    split
    · exact .refl k {}
    · exact hsame

/-- A tick forgets nothing about the rules that it loads. -/
theorem refreshed_beyond (h : d.Fits rf v) {r : RuleRow} (hr : r ∈ v.store.rules)
    (hk : rf.loaded r.id) :
    Cooldown.Beyond (v.memory.cooldowns.refreshed v.books.built) v.memory.cooldowns r.id := by
  obtain ⟨henabled, hbuilds⟩ := (h.loaded r hr).1 hk
  obtain ⟨rule, hrule⟩ := Option.isSome_iff_exists.1 hbuilds
  have hmem : rule ∈ v.books.built :=
    List.mem_filterMap.2 ⟨r, Books.mem_enabledRows.2 ⟨hr, henabled⟩, hrule⟩
  have hid := (RuleRow.isOf_of_toRule (RuleRow.rule?_eq_some.1 hrule)).id
  have hat := Cooldown.refreshed_of_mem (v.books.built_ids h.nodup) hmem v.memory.cooldowns
  rw [hid] at hat
  exact hat.beyond.trans (Cooldown.beyond_merge ..)

/-- Worlds stay the same but for their books when a tick has prepared the rules that it has
built. -/
theorem prepared (h : d.Fits rf v) :
    SameButBooks rf (v.prepared v.books.built)
      ((v.withBooks d).prepared (v.books.built.map d.pasts.rule)) := by
  refine ⟨{ d with cooldowns := d.cooldowns.refreshed (v.books.built.map d.pasts.rule) }, ?_, ?_⟩
  · unfold World.prepared
    rw [List.length_map, Pasts.sort_rules]
    rfl
  exact { h with
    aware := h.aware.refreshed v.books.built_aware
    aware' := h.aware'.refreshed (d.pasts.rules_aware _)
    same := fun k hk => h.refreshed_same hk
    equates := fun r hr hk => (h.equates r hr hk).beyond (h.refreshed_beyond hr hk)
    pending := fun x hx hk => by
      obtain ⟨⟨r, hr, hid⟩, hequates⟩ := h.pending x hx hk
      exact ⟨⟨r, hr, hid⟩, hequates.beyond (hid ▸ h.refreshed_beyond hr (hid ▸ hk))⟩ }

end BookChange.Fits

namespace Engine

variable {v w : World} {now : Moment}

theorem tickWith_sameButBooks (hn : now.Aware) {rows rows' : List RuleRow}
    (hv : rows = v.books.enabledRows) (hw : rows' = w.books.enabledRows) (h : SameButBooks rf v w) :
    MatchingEnds rf (Likewise Round.Matches) ((tickWith now rows).run.run v)
      ((tickWith now rows').run.run w) := by
  obtain ⟨d, rfl, hd⟩ := h
  subst hv hw
  have hsift := hd.sift
  unfold tickWith
  rw [Work.run_bind, Work.run_bind, build_run, build_run, hsift]
  rcases hs : sift v.books.enabledRows with ⟨x, n⟩
  have hrefuse : d.Fits rf (v.refuse n) := hd.congr rfl rfl rfl rfl
  cases x with
  | error f => exact ⟨.error f, d, rfl, hrefuse⟩
  | ok rules =>
    obtain ⟨rfl, rfl⟩ := sift_built hs
    simp only [Except.map]
    rw [run_prepare hrefuse.aware v.books.built_aware,
      run_prepare (w := (v.withBooks d).refuse v.books.refusals) hrefuse.aware'
        (d.pasts.rules_aware _)]
    have hsort : (((v.withBooks d).refuse v.books.refusals).memory.order.sort
        (v.books.built.map d.pasts.rule)).1
        = ((v.refuse v.books.refusals).memory.order.sort v.books.built).1.map d.pasts.rule := by
      rw [Pasts.sort_rules]
      rfl
    rw [hsort, Pasts.processAll_rules]
    have hloaded : ∀ rule ∈ ((v.refuse v.books.refusals).memory.order.sort v.books.built).1,
        rf.natural rule.id ∧ rf.loaded rule.id := fun rule hr =>
      hd.loaded_of_built ((RuleOrder.sortBy_perm _ _ _ v.books.built).mem_iff.1 hr)
    have hlooks := processAll_sameButBooks hn hloaded hrefuse.prepared
    refine MatchingEnds.seq (MatchingEnds.lift hlooks) fun rs rs' v₁ w₁ hrs h₁ => ?_
    refine MatchingEnds.seq
      (MatchingEnds.lift (modify_sameButBooks (fun _ _ => rfl) (fun _ => rfl) (fun _ => rfl)
      (fun _ => rfl) (fun _ => rfl) h₁)) fun _ _ v₂ w₂ _ h₂ => ?_
    exact ⟨.ok (Round.matches_done d.pasts hrs), h₂⟩

/-- What is remembered besides the books. -/
theorem remember_sameButBooks {f : Memory → Memory}
    (hf : ∀ m c n, f { m with cooldowns := c, lost := n } = { f m with cooldowns := c, lost := n })
    (h : SameButBooks rf v w) : MatchingEnds rf Eq ((remember f).run v) ((remember f).run w) := by
  have hself : ∀ m : Memory, (f m).cooldowns = m.cooldowns := by
    intro m
    have hm := congrArg Memory.cooldowns (hf m m.cooldowns m.lost)
    exact hm
  refine modify_sameButBooks (fun u d => ?_) (fun _ => rfl) (fun _ => rfl) (fun u => hself u.memory)
    (fun _ => rfl) h
  show
    ({ u.withBooks d with memory := f { u.memory with cooldowns := d.cooldowns, lost := d.lost } }
    : World) = _
  rw [hf]
  rfl

/-- A call that only reads the store fails alike in both worlds, or reads each. -/
theorem fetch_sameButBooks {α : Type} {c : Contact} (hc : c.keepsBooks = false)
    (f : Store → Except Fault α) (h : SameButBooks rf v w) :
    ∃ v' w', SameButBooks rf v' w'
      ∧ ((∃ e, (Work.fetch c f).run.run v = (.error e, v')
          ∧ (Work.fetch c f).run.run w = (.error e, w'))
        ∨ (Work.fetch c f).run.run v = (f v'.store, v')
          ∧ (Work.fetch c f).run.run w = (f w'.store, w')) := by
  obtain ⟨e, v', w', hv, hw, h'⟩ := (indistinguishable_sameButBooks rf).consult c hc h
  refine ⟨v', w', h', ?_⟩
  rw [Work.run_fetch, Work.run_fetch, hv, hw]
  cases e with
  | some e => exact .inl ⟨e, rfl, rfl⟩
  | none => exact .inr ⟨rfl, rfl⟩

theorem tickLocked_sameButBooks (h : SameButBooks rf v w) :
    MatchingEnds rf (Likewise Round.Matches) (tickLocked.run.run v) (tickLocked.run.run w) := by
  have hclock : w.clock = v.clock := by
    obtain ⟨d, rfl, _⟩ := h
    rfl
  have hn := h.clock
  unfold tickLocked
  rw [Work.run_bind, Work.run_bind]
  simp only [Work.run_lift, run_look, hclock]
  generalize v.clock = now at hn
  refine MatchingEnds.seq (MatchingEnds.lift (count_sameButBooks _ h)) fun _ _ v₁ w₁ _ h₁ => ?_
  refine MatchingEnds.seq (MatchingEnds.lift (remember_sameButBooks (fun _ _ _ => rfl) h₁))
    fun _ _ v₂ w₂ _ h₂ => ?_
  obtain ⟨v₃, w₃, h₃, hfetch⟩ :=
    fetch_sameButBooks (c := .enabledRules) rfl (fun s => .ok s.enabledRules) h₂
  rw [Work.run_bind, Work.run_bind, Work.run_lift, Work.run_lift]
  rcases hfetch with ⟨f, hv, hw⟩ | ⟨hv, hw⟩
  · rw [hv, hw]
    refine MatchingEnds.seq (MatchingEnds.lift (remember_sameButBooks (fun _ _ _ => rfl) h₃))
      fun _ _ v₄ w₄ _ h₄ => ?_
    exact ⟨.ok rfl, h₄⟩
  · rw [hv, hw]
    exact tickWith_sameButBooks hn rfl rfl h₃

/-- What is done alike while the lock is held is done alike with taking the lock. -/
theorem locked_sameButBooks {α β : Type} {Q : α → β → Prop} {p : Activity α} {q : Activity β}
    (h : SameButBooks rf v w)
    (hpq : ∀ v' w', SameButBooks rf v' w' → MatchingEnds rf Q (p.run v') (q.run w')) :
    MatchingEnds rf Q ((locked p).run v) ((locked q).run w) := by
  have hbegin :=
    remember_sameButBooks (f := fun m => { m with locked := true }) (fun _ _ _ => rfl) h
  have hwork := hpq _ _ hbegin.worlds
  have hend := remember_sameButBooks (f := fun m => { m with locked := false }) (fun _ _ _ => rfl)
    hwork.worlds
  simp only [locked, run_bind', run_pure]
  exact ⟨hwork.result, hend.worlds⟩

/-- A tick decides and does the same in worlds that are the same but for their books. -/
theorem round_sameButBooks (h : SameButBooks rf v w) :
    MatchingEnds rf (Likewise (Option.Rel Round.Matches)) (round.run.run v) (round.run.run w) := by
  unfold round
  have hbegin := MatchingEnds.of_apart (apart_consult (c := .tick) rfl) h
  rw [Work.run_bind, Work.run_bind]
  generalize (Work.consult .tick).run.run v = x at hbegin ⊢
  generalize (Work.consult .tick).run.run w = y at hbegin ⊢
  obtain ⟨r, v₁⟩ := x
  obtain ⟨r', w₁⟩ := y
  obtain ⟨heq, h₁⟩ := hbegin
  obtain rfl : r = r' := heq
  cases r with
  | error e => exact ⟨.error e, h₁⟩
  | ok _ =>
    have hlock : v₁.memory.locked = w₁.memory.locked :=
      (indistinguishable_sameButBooks rf).locked h₁
    simp only [Work.run_bind, Work.run_lift, run_look, ← hlock]
    cases v₁.memory.locked with
    | true =>
      simp only [if_true]
      refine MatchingEnds.seq (MatchingEnds.lift (count_sameButBooks _ h₁)) fun _ _ v₂ w₂ _ h₂ => ?_
      exact ⟨.ok .none, h₂⟩
    | false =>
      simp only [Bool.false_eq_true, if_false]
      have hround : MatchingEnds rf (Likewise Round.Matches) ((locked tickLocked.run).run v₁)
          ((locked tickLocked.run).run w₁) :=
        locked_sameButBooks h₁ fun _ _ h' => tickLocked_sameButBooks h'
      refine MatchingEnds.seq hround fun a b v₂ w₂ hab h₂ => ?_
      exact ⟨.ok (.some hab), h₂⟩

end Engine

/-- The same facts with other triggers that wait. -/
def RuleFacts.awaiting (rf : RuleFacts) (xs : List (Int × Past × Past)) : RuleFacts :=
  { rf with pending := xs }

/-- The same facts with one more trigger that waits. -/
def RuleFacts.await (rf : RuleFacts) (x : Int × Past × Past) : RuleFacts :=
  rf.awaiting (rf.pending ++ [x])

/-- A rule as it was read in two worlds for a trigger that waits. -/
def RuleFacts.Awaits (rf : RuleFacts) (a b : Rule) : Prop :=
  ∃ p q, (a.id, p, q) ∈ rf.pending ∧ rf.natural a.id ∧ b = a.withPast q ∧ a.Recalls p ∧ b.Recalls q

theorem RuleFacts.Awaits.await {a b : Rule} (h : rf.Awaits a b) (x : Int × Past × Past) :
    (rf.await x).Awaits a b := by
  obtain ⟨p, q, hmem, hrest⟩ := h
  exact ⟨p, q, List.mem_append_left _ hmem, hrest⟩

theorem Rule.Recalls.aware {a : Rule} {p : Past} (h : a.Recalls p) : a.Aware := by
  intro m hm
  rw [h.last] at hm
  obtain ⟨i, _, rfl⟩ := Option.map_eq_some_iff.1 hm
  exact (Moment.utc_ofInstant i).aware

/-- Such worlds find the same row under a number, but for its past. -/
theorem BookChange.rule?_withBooks (d : BookChange) (v : World) (id : Int) :
    (v.withBooks d).store.rule? id = (v.store.rule? id).map d.pasts.row := by
  unfold Store.rule?
  show (v.store.rules.map d.pasts.row).find? _ = _
  rw [List.find?_map]
  rfl

/-- A trigger may be pending with the rule that it has read from a row. -/
theorem BookChange.Fits.await {d : BookChange} {v : World} (hd : d.Fits rf v) {row : RuleRow}
    (hrow : row ∈ v.store.rules) {a : Rule} (built : row.toRule = .ok a) :
    d.Fits (rf.await (a.id, row.past, d.pasts a.id)) v
      ∧ (rf.await (a.id, row.past, d.pasts a.id)).Awaits a (d.pasts.rule a) := by
  have hof := RuleRow.isOf_of_toRule built
  constructor
  · exact { hd with
      pending := fun x hx hk => by
        rcases List.mem_append.1 hx with hx | hx
        · exact hd.pending x hx hk
        · obtain rfl := List.mem_singleton.1 hx
          refine ⟨⟨row, hrow, hof.id.symm⟩, ?_⟩
          show v.memory.cooldowns.Equates a.id row.past (d.pasts a.id)
          rw [hof.id]
          exact hd.equates row hrow (hof.id ▸ hk) }
  · have hpast := Pasts.recalls_rule (hd.suits row hrow) built
    rw [← hof.id] at hpast
    refine ⟨row.past, d.pasts a.id, List.mem_append_right _ (List.mem_singleton_self _), ?_,
      rfl, hof.recalls, hpast⟩
    rw [hof.id]
    exact (hd.natural row hrow).2 (RuleRow.count_nonneg_of_toRule built)

namespace Engine

variable {v w : World} {now : Moment}

/-- A trigger that has the lock does the same in such worlds. -/
theorem triggerLocked_sameButBooks {a b : Rule} {force : Bool} (hab : rf.Awaits a b)
    (h : SameButBooks rf v w) :
    MatchingEnds rf (Likewise Report.Matches) ((triggerLocked a force).run.run v)
      ((triggerLocked b force).run.run w) := by
  obtain ⟨p, q, hmem, natural, rfl, hp, hq⟩ := hab
  obtain ⟨d, rfl, hd⟩ := h
  have hw : (v.withBooks d).memory.cooldowns = d.cooldowns := rfl
  have hmerged : SameButBooks rf (v.track (v.memory.cooldowns.merge a))
      ((v.withBooks d).track (d.cooldowns.merge (a.withPast q))) := by
    refine ⟨{ d with cooldowns := d.cooldowns.merge (a.withPast q) }, rfl, ?_⟩
    exact { hd with
      aware := hd.aware.merge hp.aware
      aware' := hd.aware'.merge hq.aware
      same := fun k hk => by
        by_cases hid : a.id = k
        · subst hid
          exact (hd.same _ hk).merge_equates (hd.pending _ hmem hk).2 hp hq rfl rfl
        · exact (Cooldown.merge_of_ne hid).trans
            ((hd.same k hk).trans (Cooldown.merge_of_ne (r := a.withPast q) hid).symm)
      equates := fun r hr hk => (hd.equates r hr hk).beyond (Cooldown.beyond_merge ..)
      pending := fun x hx hk =>
        (hd.pending x hx hk).imp_right fun hl => hl.beyond (Cooldown.beyond_merge ..) }
  unfold triggerLocked
  simp only [adjust, Work.run_bind, Work.run_mk, run_change, Work.run_lift, run_look, hw,
    Cooldown.sync_of_aware hd.aware hp.aware, Cooldown.sync_of_aware hd.aware' hq.aware]
  have hlook : MatchingEnds rf Report.Matches ((processRule a v.clock true force).run _)
      ((processRule a v.clock true force).run _) :=
    processRule_sameButBooks natural (.inl rfl) hd.clock hmerged
  exact ⟨.ok hlook.result, hlook.worlds⟩

/-- A rule is loaded alike in such worlds, and then its trigger may wait. -/
theorem load_sameButBooks (id : Int) (h : SameButBooks rf v w) :
    ∃ v' w', SameButBooks rf v' w'
      ∧ ((∃ e, (load id).run.run v = (.error e, v') ∧ (load id).run.run w = (.error e, w'))
        ∨ ∃ a b x, (load id).run.run v = (.ok a, v') ∧ (load id).run.run w = (.ok b, w')
          ∧ SameButBooks (rf.await x) v' w' ∧ (rf.await x).Awaits a b) := by
  obtain ⟨v', w', h', hfetch⟩ := fetch_sameButBooks (c := .getRule) rfl (fun s => s.findRule id) h
  refine ⟨v', w', h', ?_⟩
  unfold load
  rw [Work.run_bind, Work.run_bind]
  simp only [liftM, monadLift, MonadLift.monadLift, Work.run_lift]
  rcases hfetch with ⟨e, hv, hw⟩ | ⟨hv, hw⟩
  · rw [hv, hw]
    exact .inl ⟨_, rfl, rfl⟩
  rw [hv, hw]
  obtain ⟨d, rfl, hd⟩ := h'
  have hfind : ∀ s : Store, s.findRule id = (Store.requireFits [id]).map fun _ => s.rule? id := by
    intro s
    unfold Store.findRule
    cases Store.requireFits [id] <;> rfl
  rw [hfind, hfind, d.rule?_withBooks v' id]
  cases Store.requireFits [id] with
  | error e => exact .inl ⟨_, rfl, rfl⟩
  | ok _ =>
    simp only [Except.map]
    cases hrow : v'.store.rule? id with
    | none => exact .inl ⟨_, rfl, rfl⟩
    | some row =>
      have hmem : row ∈ v'.store.rules := List.mem_of_find?_eq_some hrow
      have hread := Pasts.toRule_row (hd.suits row hmem)
      cases hrule : row.toRule with
      | error e =>
        rw [hrule] at hread
        refine .inl ⟨e, ?_, ?_⟩
        · show (row.toRule, v') = _
          rw [hrule]
        · show ((d.pasts.row row).toRule, v'.withBooks d) = _
          rw [hread]
          rfl
      | ok a =>
        rw [hrule] at hread
        obtain ⟨hpending, hawaits⟩ := hd.await hmem hrule
        refine .inr ⟨a, d.pasts.rule a, _, ?_, ?_, ⟨d, rfl, hpending⟩, hawaits⟩
        · show (row.toRule, v') = _
          rw [hrule]
        · show ((d.pasts.row row).toRule, v'.withBooks d) = _
          rw [hread]
          rfl

/-- A pending trigger may be forgotten. -/
theorem forget_sameButBooks {x : Int × Past × Past} (h : SameButBooks (rf.await x) v w) :
    SameButBooks rf v w := by
  obtain ⟨d, rfl, hd⟩ := h
  exact ⟨d, rfl, ⟨hd.clock, hd.nodup, hd.aware, hd.aware', hd.outages, hd.suits, hd.natural, hd.loaded,
    hd.same, hd.equates, fun y hy => hd.pending y (List.mem_append_left _ hy)⟩⟩

/-- A trigger by hand does the same in worlds that are the same but for their books. -/
theorem trigger_sameButBooks (id : Int) (force : Bool) (h : SameButBooks rf v w) :
    MatchingEnds rf (Likewise Report.Matches) ((trigger id force).run.run v)
      ((trigger id force).run.run w) := by
  obtain ⟨v₁, w₁, h₁, hload⟩ := load_sameButBooks id h
  unfold trigger
  rw [Work.run_bind, Work.run_bind]
  rcases hload with ⟨e, hv, hw⟩ | ⟨a, b, x, hv, hw, h₁, hab⟩
  · rw [hv, hw]
    exact ⟨.error e, h₁⟩
  rw [hv, hw]
  have hwait : Respects (SameButBooks (rf.await x)) (Plan.awaitLock : Activity Unit) :=
    .whenFree fun _ => .done rfl
  have h₂ := (MatchingEnds.of_respects hwait h₁).worlds
  have hlook : MatchingEnds (rf.await x) (Likewise Report.Matches)
      ((locked (triggerLocked a force).run).run ((Plan.awaitLock : Activity Unit).run v₁).2)
      ((locked (triggerLocked b force).run).run ((Plan.awaitLock : Activity Unit).run w₁).2) :=
    locked_sameButBooks h₂ fun _ _ h' => triggerLocked_sameButBooks hab h'
  simp only [Work.run_bind, Work.run_lift]
  refine ⟨?_, forget_sameButBooks hlook.worlds⟩
  have hresult := hlook.result
  generalize ((locked (triggerLocked a force).run).run _).1 = r at hresult ⊢
  generalize ((locked (triggerLocked b force).run).run _).1 = r' at hresult ⊢
  cases hresult with
  | ok result => exact .ok result
  | error f => exact .error _

end Engine

end Glasshouse
