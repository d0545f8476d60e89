/-
Glasshouse.Proofs.Engine.Losses — runs of ticks and triggers by hand during which
calls that keep the books fail by any pattern. Compared with the same run
without such failures, every rule is decided on, its actions end and events are
published in the same way; what differs are the stored executions, what rows
tell about triggers and the count of losses. Main statement:
`losses_change_no_deed`.

Side conditions of the main statement. Clocks and the tracker have times with an
offset, and rows have different numbers. During a run rules are neither created,
deleted nor switched: the pasts of rows that are switched on later may differ for
good. Calls other than those that keep the books fail alike in both runs.
-/
import Glasshouse.Proofs.Engine.BookChange
import Glasshouse.Proofs.Engine.MalformedRows
import Glasshouse.Proofs.Engine.Spacing

namespace Glasshouse

open Calendar Plan World

/-! ## Runs -/

/-- What the engine finds around it, apart from rules, their history and outages. -/
structure Surroundings where
  zone : Zone
  clock : Moment
  wall : Moment
  readings : List ReadingRow
  channel : Channel
  outskirts : Outskirts

namespace World

/-- The surroundings of a world. -/
def surroundings (w : World) : Surroundings :=
  ⟨w.zone, w.clock, w.wall, w.store.readings, w.channel, w.still⟩

/-- A world in other surroundings. -/
def amidst (s : Surroundings) (w : World) : World :=
  ofParts { w.interior with
    zone := s.zone, clock := s.clock, wall := s.wall, readings := s.readings, channel := s.channel }
    (s.outskirts.failing w.outages)

/-- A world in which no call that keeps the books fails as laid down. -/
def keepingBooks (w : World) : World :=
  { w with outages := (w.outages.erase .recordExecution).erase .noteTrigger }

end World

/-- Something that happens while the set of rules stays as it is. -/
inductive Occurrence where
  | tick
  | trigger (id : Int) (force : Bool)
  /-- A trigger by hand reads its rule and begins to wait for the lock. -/
  | request (id : Int) (force : Bool)
  /-- The trigger that has waited longest gets the lock. -/
  | grant
  /-- Clocks, readings, devices, jobs, lines and subscribers change. -/
  | change (f : Surroundings → Surroundings)
  /-- A call that does not keep the books begins to fail as laid down, or to succeed again. -/
  | outage (c : Contact) (other : c.keepsBooks = false) (s : Script (Option Fault))

/-- What a tick or a trigger has to tell. -/
inductive Remark where
  | ticked (r : Except Fault (Option Round))
  | looked (r : Except Refusal Report)

/-- A remark without what it says of the store. -/
def Remark.shown : Remark → Remark
  | ticked r => ticked (r.map (Option.map Round.shown))
  | looked r => looked (r.map Report.shown)

namespace Occurrence

/-- The clock keeps its offset. -/
def Timely : Occurrence → Prop
  | change f => ∀ s : Surroundings, s.clock.Aware → (f s).clock.Aware
  | _ => True

/-- What happens, and what there is to tell about it. -/
def step : Occurrence → Scene → List Remark × Scene
  | tick, s =>
    let (r, w) := Engine.round.run.run s.world
    ([.ticked r], { s with world := w })
  | trigger id force, s =>
    let (r, w) := (Engine.trigger id force).run.run s.world
    ([.looked r], { s with world := w })
  | request id force, s =>
    match (Engine.load id).run.run s.world with
    | (.ok rule, w) => ([], ⟨w, s.waiting ++ [(rule, force)]⟩)
    | (.error e, w) => ([.looked (.error e)], { s with world := w })
  | grant, s =>
    match s.waiting with
    | [] => ([], s)
    | (rule, force) :: rest =>
      let (r, w) := (Engine.locked (Engine.triggerLocked rule force).run).run s.world
      ([.looked (r.mapError .fault)], ⟨w, rest⟩)
  | change f, s => ([], { s with world := s.world.amidst (f s.world.surroundings) })
  | outage c _ t, s =>
    ([], { s with world := { s.world with outages := s.world.outages.put c t } })

/-- A run: what it has to tell, and the scene at its end. -/
def run : List Occurrence → Scene → List Remark × Scene
  | [], s => ([], s)
  | o :: os, s =>
    let (rs, s) := o.step s
    let (qs, s) := run os s
    (rs ++ qs, s)

theorem run_cons (o : Occurrence) (os : List Occurrence) (s : Scene) :
    run (o :: os) s = ((o.step s).1 ++ (run os (o.step s).2).1, (run os (o.step s).2).2) := rfl

end Occurrence

/-! ## Runs side by side -/

/-- Scenes whose worlds are the same but for their books, and in which the same triggers wait. -/
def ScenesSameButBooks (rf : RuleFacts) (s s' : Scene) : Prop :=
  ∃ x, SameButBooks (rf.awaiting x) s.world s'.world
    ∧ List.Forall₂ (fun p q => p.2 = q.2 ∧ (rf.awaiting x).Awaits p.1 q.1) s.waiting s'.waiting

theorem Likewise.shown_eq {r r' : Except Fault (Option Round)}
    (h : Likewise (Option.Rel Round.Matches) r r') :
    r.map (Option.map Round.shown) = r'.map (Option.map Round.shown) := by
  cases h with
  | error e => rfl
  | ok result =>
    cases result with
    | none => rfl
    | some h => exact congrArg (fun x => Except.ok (some x)) h

theorem Likewise.mapError {ε ε' α β : Type} {Q : α → β → Prop} {x : Except ε α} {y : Except ε β}
    {f : ε → ε'} (h : Likewise Q x y) : Likewise Q (x.mapError f) (y.mapError f) := by
  cases h with
  | ok result => exact .ok result
  | error e => exact .error _

theorem Likewise.report_eq {ε : Type} {r r' : Except ε Report}
    (h : Likewise Report.Matches r r') : r.map Report.shown = r'.map Report.shown := by
  cases h with
  | error e => rfl
  | ok result => exact congrArg Except.ok result

namespace Occurrence

variable {s s' : Scene} {rf : RuleFacts}

/-- Whatever happens in such scenes has the same to tell, and leads to such scenes. -/
theorem step_sameButBooks {o : Occurrence} (timely : o.Timely) (h : ScenesSameButBooks rf s s') :
    (o.step s).1.map Remark.shown = (o.step s').1.map Remark.shown
      ∧ ScenesSameButBooks rf (o.step s).2 (o.step s').2 := by
  obtain ⟨x, hworlds, hwaiting⟩ := h
  cases o with
  | tick =>
    have hround := Engine.round_sameButBooks hworlds
    exact ⟨congrArg (fun r => [Remark.ticked r]) hround.result.shown_eq, x, hround.worlds, hwaiting⟩
  | trigger id force =>
    have hlook := Engine.trigger_sameButBooks id force hworlds
    exact ⟨congrArg (fun r => [Remark.looked r]) hlook.result.report_eq, x, hlook.worlds, hwaiting⟩
  | request id force =>
    obtain ⟨v, w, hvw, hload⟩ := Engine.load_sameButBooks id hworlds
    rcases hload with ⟨e, hv, hw⟩ | ⟨a, b, y, hv, hw, hawait, hab⟩
    · simp only [step, hv, hw]
      exact ⟨trivial, x, hvw, hwaiting⟩
    · simp only [step, hv, hw]
      refine ⟨trivial, x ++ [y], hawait, ?_⟩
      refine List.rel_append (hwaiting.imp fun p q hpq => ⟨hpq.1, hpq.2.await y⟩) ?_
      exact .cons ⟨rfl, hab⟩ .nil
  | grant =>
    obtain ⟨v, waiting⟩ := s
    obtain ⟨w, waiting'⟩ := s'
    cases hwaiting with
    | nil => exact ⟨rfl, x, hworlds, .nil⟩
    | @cons p q rest rest' hpq hrest =>
      obtain ⟨rule, force⟩ := p
      obtain ⟨rule', force'⟩ := q
      obtain ⟨rfl, hab⟩ : force = force' ∧ _ := hpq
      have hlook : MatchingEnds (rf.awaiting x) (Likewise Report.Matches)
          ((Engine.locked (Engine.triggerLocked rule force).run).run v)
          ((Engine.locked (Engine.triggerLocked rule' force).run).run w) :=
        Engine.locked_sameButBooks hworlds fun _ _ h' => Engine.triggerLocked_sameButBooks hab h'
      refine ⟨congrArg (fun r => [Remark.looked r]) ?_, x, hlook.worlds, hrest⟩
      exact hlook.result.mapError.report_eq
  | change f =>
    obtain ⟨d, hw, hd⟩ := hworlds
    refine ⟨rfl, x, ⟨d, ?_, ?_⟩, hwaiting⟩
    · show s'.world.amidst (f s'.world.surroundings) = _
      rw [hw]
      rfl
    · exact { hd.congr (w := s.world.amidst s.world.surroundings) rfl rfl rfl rfl with
        clock := timely _ hd.clock }
  | outage c other t =>
    obtain ⟨d, hw, hd⟩ := hworlds
    refine ⟨rfl, x, ⟨{ d with outages := d.outages.put c t }, ?_, ?_⟩, hwaiting⟩
    · show { s'.world with outages := s'.world.outages.put c t } = _
      rw [hw]
      rfl
    · exact { hd with
        outages := fun k hk => by
          show (d.outages.put c t).get? k = (s.world.outages.put c t).get? k
          rw [Table.get?_put, Table.get?_put, hd.outages k hk] }

/-- Runs that begin in such scenes have the same to tell. -/
theorem run_sameButBooks {os : List Occurrence} (timely : ∀ o ∈ os, o.Timely)
    (h : ScenesSameButBooks rf s s') :
    (run os s).1.map Remark.shown = (run os s').1.map Remark.shown
      ∧ ScenesSameButBooks rf (run os s).2 (run os s').2 := by
  induction os generalizing s s' with
  | nil => exact ⟨rfl, h⟩
  | cons o os ih =>
    obtain ⟨hremarks, hnext⟩ := step_sameButBooks (timely o (List.mem_cons_self ..)) h
    obtain ⟨hrest, hend⟩ := ih (fun q hq => timely q (List.mem_cons_of_mem _ hq)) hnext
    rw [run_cons, run_cons, List.map_append, List.map_append, hremarks, hrest]
    exact ⟨rfl, hend⟩

end Occurrence

/-! ## The same run without losses -/

/-- What is fixed about the rules of a world while its books change. -/
def World.ruleFacts (w : World) : RuleFacts where
  natural id := ∃ r ∈ w.store.rules, r.id = id ∧ 0 ≤ r.triggerCount
  loaded id := ∃ r ∈ w.store.rules, r.id = id ∧ r.enabled = true ∧ r.rule?.isSome = true

/-- Every row of a world tells its past. -/
def World.pasts (w : World) : Pasts :=
  fun id => ((w.store.rule? id).map RuleRow.past).getD ⟨none, 0⟩

theorem World.pasts_of_mem {w : World} (ids : w.books.ids.Nodup) {r : RuleRow}
    (hr : r ∈ w.store.rules) : w.pasts r.id = r.past := by
  unfold pasts
  rw [Store.rule?_of_mem ids hr]
  rfl

/-- Without failures of the calls that keep the books a world is the same but for these. -/
theorem World.sameButBooks_keepingBooks {w : World} (clock : w.clock.Aware)
    (tracker : w.memory.cooldowns.Aware)
    (ids : w.books.ids.Nodup) : SameButBooks w.ruleFacts w w.keepingBooks := by
  have honly : ∀ {r q : RuleRow}, r ∈ w.store.rules → q ∈ w.store.rules → q.id = r.id → q = r :=
    fun hr hq hid => Books.eq_of_id ids hq hr hid
  refine ⟨⟨w.pasts, w.store.executions, w.memory.cooldowns, w.memory.lost,
    w.keepingBooks.outages⟩, ?_, ?_⟩
  · have hrows : w.store.rules.map w.pasts.row = w.store.rules := by
      have hself : ∀ r ∈ w.store.rules, w.pasts.row r = r := by
        intro r hr
        show r.withPast (w.pasts r.id) = r
        rw [pasts_of_mem ids hr]
        rfl
      rw [List.map_congr_left hself, List.map_id']
    unfold withBooks
    rw [hrows]
    rfl
  exact {
    clock := clock
    nodup := ids
    aware := tracker
    aware' := tracker
    outages := fun c hc => by
      show Table.get? (Table.erase (Table.erase w.outages .recordExecution) .noteTrigger) c = _
      have hrecord : Contact.recordExecution ≠ c := by
        rintro rfl
        cases hc
      have hnote : Contact.noteTrigger ≠ c := by
        rintro rfl
        cases hc
      rw [Table.get?_erase, if_neg hnote, Table.get?_erase, if_neg hrecord]
    suits := fun r hr => .inl (pasts_of_mem ids hr)
    natural := fun r hr => by
      refine ⟨fun ⟨q, hq, hid, hcount⟩ => ?_, fun hcount => ⟨r, hr, rfl, hcount⟩⟩
      rw [← honly hr hq hid]
      exact hcount
    loaded := fun r hr => by
      refine ⟨fun ⟨q, hq, hid, hloads⟩ => ?_, fun hloads => ⟨r, hr, rfl, hloads⟩⟩
      rw [← honly hr hq hid]
      exact hloads
    same := fun _ _ => .refl _ _
    equates := fun r hr _ => by
      show w.memory.cooldowns.Equates r.id r.past (w.pasts r.id)
      rw [pasts_of_mem ids hr]
      exact .refl _ _ _
    pending := fun _ hx => by cases hx }

/-- Failures of calls that keep the books change no deed. Take any run of ticks and triggers by
hand in a world with any outages, and the same run without outages of these calls: what ticks
and triggers have to tell is the same, that is all decisions, actions with their outcomes and
faults, and so are the events that were published, devices, jobs and whatever else actions
reach. The worlds at the end differ in stored executions, in what rows tell about triggers,
in the count of losses and in the tracker, which still holds the same about rules that ticks
load. -/
theorem losses_change_no_deed {w : World} (clock : w.clock.Aware)
    (tracker : w.memory.cooldowns.Aware) (ids : w.books.ids.Nodup) {os : List Occurrence}
    (timely : ∀ o ∈ os, o.Timely) :
    (Occurrence.run os ⟨w, []⟩).1.map Remark.shown
        = (Occurrence.run os ⟨w.keepingBooks, []⟩).1.map Remark.shown
      ∧ (Occurrence.run os ⟨w, []⟩).2.world.channel
        = (Occurrence.run os ⟨w.keepingBooks, []⟩).2.world.channel
      ∧ (Occurrence.run os ⟨w, []⟩).2.world.still
        = (Occurrence.run os ⟨w.keepingBooks, []⟩).2.world.still
      ∧ ∃ d : BookChange,
        (Occurrence.run os ⟨w.keepingBooks, []⟩).2.world
            = (Occurrence.run os ⟨w, []⟩).2.world.withBooks d
          ∧ ∀ r ∈ w.store.rules, r.enabled = true → r.rule?.isSome = true →
            Cooldown.SameAt r.id (Occurrence.run os ⟨w, []⟩).2.world.memory.cooldowns
              d.cooldowns := by
  have hstart : ScenesSameButBooks w.ruleFacts ⟨w, []⟩ ⟨w.keepingBooks, []⟩ :=
    ⟨[], World.sameButBooks_keepingBooks clock tracker ids, .nil⟩
  obtain ⟨hremarks, x, ⟨d, hd, hfits⟩, _⟩ := Occurrence.run_sameButBooks timely hstart
  refine ⟨hremarks, ?_, ?_, d, hd, fun r hr henabled hloads => ?_⟩
  · rw [hd]
    rfl
  · rw [hd]
    rfl
  · exact hfits.same r.id ⟨r, hr, rfl, henabled, hloads⟩

/-- Surroundings in which so many minutes have passed. -/
def Surroundings.later (minutes : Nat) (s : Surroundings) : Surroundings :=
  { s with clock := ⟨s.clock.wall + minutes * minute, s.clock.offset⟩ }

/-- A world with one rule and a listener, in which no trigger can be noted. -/
def World.forgetful : World :=
  { World.holding [.ofDefinition 1 .vent] with
    channel := { listeners := [[]] }
    outages := [(.noteTrigger, .always (some (.foreign .runtime none)))] }

/-- Two triggers twenty minutes apart, and a tick that comes too early. -/
def Occurrence.twice : List Occurrence :=
  [.tick, .change (Surroundings.later 20), .tick, .change (Surroundings.later 5), .tick]

theorem losses_change_no_deed_twice :
    (Occurrence.run Occurrence.twice ⟨World.forgetful, []⟩).1.map Remark.shown
        = (Occurrence.run Occurrence.twice ⟨World.forgetful.keepingBooks, []⟩).1.map Remark.shown
      ∧ (Occurrence.run Occurrence.twice ⟨World.forgetful, []⟩).2.world.store.rules.map
        (·.triggerCount) = [0]
      ∧ (Occurrence.run Occurrence.twice ⟨World.forgetful.keepingBooks, []⟩).2.world.store.rules.map
        (·.triggerCount) = [2] := by
  have timely : ∀ o ∈ Occurrence.twice, o.Timely := by
    intro o ho
    simp only [Occurrence.twice, List.mem_cons, List.not_mem_nil, or_false] at ho
    rcases ho with rfl | rfl | rfl | rfl | rfl
    · trivial
    · exact fun s hs => hs
    · trivial
    · exact fun s hs => hs
    · trivial
  refine ⟨(losses_change_no_deed (w := World.forgetful) rfl ?_ (by decide) timely).1, ?_, ?_⟩
  · intro id m hm
    cases hm
  · decide +kernel
  · decide +kernel

end Glasshouse
