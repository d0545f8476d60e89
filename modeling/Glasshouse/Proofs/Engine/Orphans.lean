/-
Glasshouse.Proofs.Engine.Orphans — executions and the rules that they are stored under. A tick or
a trigger by hand loads its rules once and writes about them later; at every wait in
between rules may be deleted, and the number of a deleted rule may come to belong to a new
one. What is written is written whatever has become of the rule. A deletion takes with it
what has been written, not what is yet to come. Main statement: `placed_iff`.

How the proof goes. `Plan.Launches` says what a plan does up to its first wait and how it goes
on; by that, ticks and triggers write about loaded rules only (`round_launches`,
`trigger_launches`). `SharedWorld.Sound` is the invariant of all moves: one lemma for each
move, `Sound.step`, and `Sound.run` by induction.

Side conditions of the main statement. There are no executions at first; rules, tracker and
lines may be as they like. Activities change hands only where they wait (`Plan.resume`):
between two waits one of them has the world for itself. Any number may be under way.
-/
import Glasshouse.Proofs.Engine.History
import Glasshouse.Proofs.World.Passing

namespace Glasshouse

/-! ## Plans up to their first wait -/

namespace Plan

variable {σ α β : Type} {S : σ → σ → Prop} {p : Plan σ α} {s : σ}

/-- A plan whose changes all go along a relation, whatever it waits for. -/
inductive Follows (S : σ → σ → Prop) : Plan σ α → Prop
  | done (a : α) : Follows S (.done a)
  | act {f : σ → σ} {next : σ → Plan σ α} (step : ∀ s, S s (f s))
      (rest : ∀ s, Follows S (next s)) : Follows S (.act f next)
  | wait {d : Duration} {next : Plan σ α} (rest : Follows S next) : Follows S (.wait d next)
  | whenFree {d : Duration} {next : Bool → Plan σ α} (rest : ∀ free, Follows S (next free)) :
      Follows S (.whenFree d next)

theorem Along.follows (h : Along S p) : p.Follows S := by
  induction h with
  | done a => exact .done a
  | act step _ ih => exact .act step ih
  | wait _ ih => exact .wait ih

theorem Follows.bind {k : α → Plan σ β} (h : p.Follows S) (hk : ∀ a, (k a).Follows S) :
    (p >>= k).Follows S := by
  induction h with
  | done a => exact hk a
  | act step _ ih => exact .act step ih
  | wait _ ih => exact .wait ih
  | whenFree _ ih => exact .whenFree ih

theorem Follows.mono {T : σ → σ → Prop} (hST : ∀ {s t}, S s t → T s t) (h : p.Follows S) :
    p.Follows T := by
  induction h with
  | done a => exact .done a
  | act step _ ih => exact .act (fun s => hST (step s)) ih
  | wait _ ih => exact .wait ih
  | whenFree _ ih => exact .whenFree ih

/-- A plan without waits. -/
inductive Instant : Plan σ α → Prop
  | done (a : α) : Instant (.done a)
  | act {f : σ → σ} {next : σ → Plan σ α} (rest : ∀ s, Instant (next s)) : Instant (.act f next)

theorem Instant.bind {k : α → Plan σ β} (h : p.Instant) (hk : ∀ a, (k a).Instant) :
    (p >>= k).Instant := by
  induction h with
  | done a => exact hk a
  | act _ ih => exact .act ih

theorem Instant.change (f : σ → α × σ) : (Plan.change f).Instant := .act fun _ => .done _

/-- What a plan changes from a state on goes along a relation: up to the first wait from this
state on, and afterwards from whatever state there is then. -/
def Launches (S : σ → σ → Prop) : Plan σ α → σ → Prop
  | done _, _ => True
  | act f next, s => S s (f s) ∧ (next s).Launches S (f s)
  | wait _ next, _ => next.Follows S
  | whenFree _ next, _ => ∀ free, (next free).Follows S

theorem Follows.launches (h : p.Follows S) (s : σ) : p.Launches S s := by
  induction h generalizing s with
  | done a => exact trivial
  | act step _ ih => exact ⟨step s, ih s _⟩
  | wait rest _ => exact rest
  | whenFree rest _ => exact rest

theorem Launches.bind {k : α → Plan σ β} (h : p.Launches S s) (hk : ∀ a, (k a).Follows S) :
    (p >>= k).Launches S s := by
  induction p generalizing s with
  | done a => exact (hk a).launches s
  | act f next ih => exact ⟨h.1, ih s h.2⟩
  | wait d next _ => exact Follows.bind h hk
  | whenFree d next _ => exact fun free => Follows.bind (h free) hk

/-- A plan whose wait has gone on. -/
def later (d : Duration) : Plan σ α → Plan σ α
  | wait e next => wait (e - d) next
  | whenFree e next => whenFree (e - d) next
  | p => p

theorem Follows.later (h : p.Follows S) (d : Duration) : (p.later d).Follows S := by
  cases h with
  | done a => exact .done a
  | act step rest => exact .act step rest
  | wait rest => exact .wait rest
  | whenFree rest => exact .whenFree rest

variable [Timed σ]

/-- What follows on a plan without waits needs to launch from where that has led. -/
theorem Instant.launches_bind {k : α → Plan σ β} (hp : p.Instant) (h : p.Launches S s)
    (hk : (k (p.run s).1).Launches S (p.run s).2) : (p >>= k).Launches S s := by
  induction hp generalizing s with
  | done a => exact hk
  | act _ ih => exact ⟨h.1, ih s h.2 hk⟩

theorem Follows.start (refl : ∀ s, S s s) (trans : ∀ {r s t}, S r s → S s t → S r t)
    (h : p.Follows S) (s : σ) : (p.start s).1.Follows S ∧ S s (p.start s).2 := by
  induction h generalizing s with
  | done a => exact ⟨.done a, refl s⟩
  | act step _ ih =>
    obtain ⟨hrest, hstep⟩ := ih s _
    exact ⟨hrest, trans (step s) hstep⟩
  | wait rest _ => exact ⟨.wait rest, refl s⟩
  | whenFree rest ih =>
    rw [Plan.start]
    split
    · exact ⟨.whenFree rest, refl s⟩
    · exact ih true s

theorem Launches.start (refl : ∀ s, S s s) (trans : ∀ {r s t}, S r s → S s t → S r t)
    (h : p.Launches S s) : (p.start s).1.Follows S ∧ S s (p.start s).2 := by
  induction p generalizing s with
  | done a => exact ⟨.done a, refl s⟩
  | act f next ih =>
    obtain ⟨hrest, hstep⟩ := ih s h.2
    exact ⟨hrest, trans h.1 hstep⟩
  | wait d next _ => exact ⟨.wait h, refl s⟩
  | whenFree d next _ => exact (Follows.whenFree h).start refl trans s

/-- A plan that goes on after its wait, if that is over. -/
def resume : Plan σ α → σ → Plan σ α × σ
  | wait 0 next, s => next.start s
  | whenFree d next, s =>
    if !Timed.locked s then (next true).start s
    else if d = 0 then (next false).start s
    else (whenFree d next, s)
  | p, s => (p, s)

theorem Follows.resume (refl : ∀ s, S s s) (trans : ∀ {r s t}, S r s → S s t → S r t)
    (h : p.Follows S) (s : σ) : (p.resume s).1.Follows S ∧ S s (p.resume s).2 := by
  cases h with
  | done a => exact ⟨.done a, refl s⟩
  | act step rest => exact ⟨.act step rest, refl s⟩
  | @wait d next rest =>
    cases d with
    | zero => exact rest.start refl trans s
    | succ d => exact ⟨.wait rest, refl s⟩
  | @whenFree d next rest =>
    rw [Plan.resume]
    split
    · exact (rest true).start refl trans s
    · split
      · exact (rest false).start refl trans s
      · exact ⟨.whenFree rest, refl s⟩

end Plan

open Calendar Plan World

namespace Work

variable {ε α β : Type} {S : World → World → Prop}

theorem follows_bind {x : ExceptT ε Activity α} {f : α → ExceptT ε Activity β}
    (hx : x.run.Follows S) (hf : ∀ a, (f a).run.Follows S) : (x >>= f).run.Follows S := by
  rw [ExceptT.run_bind]
  refine hx.bind fun r => ?_
  cases r with
  | ok a => exact hf a
  | error e => exact .done _

theorem follows_lift {p : Activity α} (h : p.Follows S) :
    (ExceptT.lift p : ExceptT ε Activity α).run.Follows S := by
  rw [ExceptT.run_lift, map_eq_pure_bind]
  exact h.bind fun _ => .done _

theorem instant_bind {x : ExceptT ε Activity α} {f : α → ExceptT ε Activity β}
    (hx : x.run.Instant) (hf : ∀ a, (f a).run.Instant) : (x >>= f).run.Instant := by
  rw [ExceptT.run_bind]
  refine hx.bind fun r => ?_
  cases r with
  | ok a => exact hf a
  | error e => exact .done _

theorem instant_lift {p : Activity α} (h : p.Instant) :
    (ExceptT.lift p : ExceptT ε Activity α).run.Instant := by
  rw [ExceptT.run_lift, map_eq_pure_bind]
  exact h.bind fun _ => .done _

/-- What follows on work without waits needs to launch where that has succeeded. -/
theorem launches_bind {x : ExceptT ε Activity α} {f : α → ExceptT ε Activity β} {w : World}
    (hx : x.run.Instant) (hw : x.run.Launches S w)
    (hf : ∀ a v, x.run.run w = (.ok a, v) → (f a).run.Launches S v) :
    (x >>= f).run.Launches S w := by
  rw [ExceptT.run_bind]
  refine hx.launches_bind hw ?_
  rcases hrun : x.run.run w with ⟨_ | a, v⟩
  · exact trivial
  · exact hf a v hrun

/-- What follows on a single change. -/
theorem launches_change (f : World → Except ε α × World) {g : α → ExceptT ε Activity β} {w : World}
    (hf : S w (f w).2) (hg : ∀ a, (f w).1 = .ok a → (g a).run.Launches S (f w).2) :
    ((ExceptT.mk (Plan.change f) : ExceptT ε Activity α) >>= g).run.Launches S w := by
  refine launches_bind (.change f) ⟨hf, trivial⟩ fun a v hv => ?_
  cases congrArg Prod.snd hv
  exact hg a (congrArg Prod.fst hv)

end Work

/-! ## Records of rules of some numbers -/

/-- Rows of rules that are changed in place keep their numbers. -/
theorem Store.ids_updateRule (s : Store) (id : Int) {f : RuleRow → RuleRow}
    (hf : ∀ r, (f r).id = r.id) : (s.updateRule id f).rules.map (·.id) = s.rules.map (·.id) := by
  simp only [updateRule, List.map_map]
  refine List.map_congr_left fun r _ => ?_
  simp only [Function.comp_apply]
  split
  · exact hf r
  · rfl

/-- The rules kept their numbers, and what was written was about rules of some numbers. -/
structure World.Writes (A : Int → Prop) (v w : World) : Prop where
  ids : w.books.ids = v.books.ids
  rows : ∃ rows, w.store.executions = v.store.executions ++ rows ∧ ∀ e ∈ rows, A e.ruleId

namespace World

variable {A B : Int → Prop} {u v w : World}

theorem Writes.nothing (ids : w.books.ids = v.books.ids)
    (rows : w.store.executions = v.store.executions) : Writes A v w :=
  ⟨ids, [], by rw [rows, List.append_nil], fun _ he => absurd he List.not_mem_nil⟩

theorem Writes.of_books (h : w.books = v.books) : Writes A v w :=
  .nothing (congrArg Books.ids h) (congrArg Books.executions h)

protected theorem Writes.refl (w : World) : Writes A w w := .of_books rfl

protected theorem Writes.trans (h : Writes A u v) (k : Writes A v w) : Writes A u w := by
  obtain ⟨rows, hrows, hA⟩ := h.rows
  obtain ⟨more, hmore, kA⟩ := k.rows
  refine ⟨k.ids.trans h.ids, rows ++ more, by rw [hmore, hrows, List.append_assoc], fun e he => ?_⟩
  rcases List.mem_append.1 he with he | he
  · exact hA e he
  · exact kA e he

theorem Writes.mono (hAB : ∀ id, A id → B id) (h : Writes A v w) : Writes B v w := by
  obtain ⟨rows, hrows, hA⟩ := h.rows
  exact ⟨h.ids, rows, hrows, fun e he => hAB _ (hA e he)⟩

/-- A call to the store that leaves the numbers of the rules and adds executions. -/
theorem writes_callStore {α : Type} {c : Contact} {f : Store → Except Fault (α × Store)}
    (hf : ∀ {s a t}, f s = .ok (a, t) → t.rules.map (·.id) = s.rules.map (·.id) ∧
      ∃ rows, t.executions = s.executions ++ rows ∧ ∀ e ∈ rows, A e.ruleId) (w : World) :
    Writes A w (w.callStore c f).2 := by
  rcases books_callStore c f w with ⟨-, hb⟩ | ⟨a, s, t, hs, hrules, hrows, -, hb⟩
  · exact .of_books hb
  · obtain ⟨hids, rows, hmore, hA⟩ := hf hs
    refine ⟨(congrArg Books.ids hb).trans ?_, rows, (congrArg Books.executions hb).trans ?_, hA⟩
    · show t.rules.map (·.id) = w.store.rules.map (·.id)
      rw [hids, hrules]
    · show t.executions = _
      rw [hmore, hrows]

/-- What the engine does about rules of some numbers writes about these alone. -/
theorem working_writes (A : Int → Prop) : Working A (Writes A) where
  refl := .refl
  setWire l x w := by
    cases l with
    | webhook => exact .of_books rfl
    | notice => exact .of_books rfl
  sent _ _ := .of_books rfl
  enqueue _ _ _ := writes_callStore fun h => by
    cases h
    exact ⟨rfl, [], (List.append_nil _).symm, fun e he => absurd he List.not_mem_nil⟩
  takeOff device command value w :=
    .of_books ((apart_takeOff device command value).books_eq w)
  memory _ _ := .nothing rfl rfl
  channel _ _ := .of_books rfl
  record x hx := writes_callStore fun h => by
    obtain ⟨row, hof, rfl⟩ := Store.recordExecution_eq_ok h
    refine ⟨rfl, [row], rfl, fun e he => ?_⟩
    rw [List.mem_singleton.1 he, hof.ruleId]
    exact hx
  note id t n := writes_callStore fun h => by
    obtain ⟨i, -, rfl⟩ := Store.noteTrigger_eq_ok h
    exact ⟨Store.ids_updateRule _ id fun _ => rfl, [], (List.append_nil _).symm,
      fun e he => absurd he List.not_mem_nil⟩
  consult c w := .of_books (books_consult c w)

end World

namespace Engine

variable {A : Int → Prop} {w : World}

theorem remember_follows (f : Memory → Memory) : (remember f).Follows (Writes A) :=
  .act (fun w => (working_writes A).memory _ w) fun _ => .done _

theorem launches_remember {α : Type} {f : Memory → Memory} {g : Unit → Work α}
    (hg : (g ()).run.Launches (Writes A) { w with memory := f w.memory }) :
    (ExceptT.lift (remember f) >>= g).run.Launches (Writes A) w :=
  Work.launches_change (fun w => (.ok (), { w with memory := f w.memory }))
    ((working_writes A).memory _ w) fun _ _ => hg

theorem launches_look {α β : Type} {f : World → α} {g : α → Work β}
    (hg : (g (f w)).run.Launches (Writes A) w) :
    (ExceptT.lift (Plan.look f) >>= g).run.Launches (Writes A) w :=
  Work.launches_change (fun w => (.ok (f w), w)) (.refl w) fun _ h => by
    cases h
    exact hg

/-! ### Ticks -/

theorem build_follows (rows : List RuleRow) : (build rows).run.Follows (Writes A) := by
  induction rows with
  | nil => exact .done _
  | cons row rows ih =>
    unfold build
    split
    · exact Work.follows_bind ih fun _ => .done _
    · exact Work.follows_bind (Work.follows_lift (remember_follows _)) fun _ => ih
    · exact .done _

theorem build_instant (rows : List RuleRow) : (build rows).run.Instant := by
  induction rows with
  | nil => exact .done _
  | cons row rows ih =>
    unfold build
    split
    · exact Work.instant_bind ih fun _ => .done _
    · exact Work.instant_bind (Work.instant_lift (.act fun _ => .done _)) fun _ => ih
    · exact .done _

/-- The rules that rows hold have the numbers of the rows. -/
theorem sift_ids {rows : List RuleRow} {rules : List Rule} (h : (sift rows).1 = .ok rules)
    {rule : Rule} (hrule : rule ∈ rules) : ∃ row ∈ rows, row.id = rule.id := by
  have hsift : sift rows = (.ok rules, (sift rows).2) := Prod.ext h rfl
  obtain ⟨rfl, -⟩ := sift_ok hsift
  obtain ⟨row, hrow, hof⟩ := List.mem_filterMap.1 hrule
  exact ⟨row, hrow, (RuleRow.isOf_of_toRule (RuleRow.rule?_eq_some.1 hof)).id.symm⟩

theorem launches_arrange {α : Type} {rules : List Rule} {g : List Rule → Work α}
    (hg : ∀ sorted v, sorted.Perm rules → (g sorted).run.Launches (Writes A) v) :
    (ExceptT.lift (arrange rules) >>= g).run.Launches (Writes A) w := by
  refine Work.launches_bind (Work.instant_lift (.change _))
    ⟨(working_writes A).memory _ w, trivial⟩ fun sorted v hsorted => ?_
  rw [Work.run_lift] at hsorted
  cases hsorted
  have hperm := RuleOrder.sortBy_perm w.memory.order (·.id) (·.priority) rules
  exact hg _ _ hperm

/-- A tick writes about the rules of the rows that it has loaded. -/
theorem tickWith_launches (now : Moment) {rows : List RuleRow} (hrows : ∀ row ∈ rows, A row.id)
    (w : World) : (tickWith now rows).run.Launches (Writes A) w := by
  refine Work.launches_bind (build_instant rows) ((build_follows rows).launches w)
    fun rules v hbuild => launches_remember (Work.launches_change _
      ((working_writes A).memory _ _) fun _ _ => launches_arrange fun sorted u horder => ?_)
  rw [build_run] at hbuild
  have hsorted : ∀ rule ∈ sorted, A rule.id := fun rule hrule => by
    obtain ⟨row, hrow, hid⟩ := sift_ids (congrArg Prod.fst hbuild) (horder.mem_iff.1 hrule)
    exact hid ▸ hrows row hrow
  have hlooks := (along_processAll (working_writes A) now sorted hsorted).follows
  exact Follows.launches (Work.follows_bind (Work.follows_lift hlooks) fun _ =>
    Work.follows_bind (Work.follows_lift (remember_follows _)) fun _ => .done _) u

theorem tickLocked_launches (hids : ∀ id ∈ w.books.ids, A id) :
    tickLocked.run.Launches (Writes A) w := by
  refine launches_look (launches_remember (launches_remember ?_))
  generalize hu : World.mk .. = u
  have hu : u.books = w.books := by rw [← hu]; rfl
  obtain ⟨v, hload, hv⟩ := fetchEnabled_run u
  have hfetch := along_fetch (working_writes A) .enabledRules fun s => .ok s.enabledRules
  refine Work.launches_bind (Work.instant_lift (.change _))
    ((Work.follows_lift (Along.follows hfetch)).launches u) fun x v' hx => ?_
  rw [Work.run_lift, hload] at hx
  cases hc : (u.consult .enabledRules).1 with
  | some f =>
    rw [hc] at hx
    cases hx
    exact launches_remember trivial
  | none =>
    rw [hc] at hx
    cases hx
    exact tickWith_launches _ (fun row hrow => hids _ (List.mem_map_of_mem
      (hu ▸ Books.mem_of_enabledRows hrow))) _

/-- What is done with the lock begins when the lock is taken. -/
theorem locked_launches {α : Type} {p : Activity α}
    (hp : p.Launches (Writes A) { w with memory := { w.memory with locked := true } }) :
    (locked p).Launches (Writes A) w :=
  ⟨(working_writes A).memory _ w, hp.bind fun a => (remember_follows _).bind fun _ => .done a⟩

/-- A tick writes about the rules that there are when it begins. -/
theorem round_launches (hids : ∀ id ∈ w.books.ids, A id) : round.run.Launches (Writes A) w := by
  have hbegin := (Work.Along.consult ((working_writes A).consult .tick)).follows
  refine Work.launches_bind (.change _) (hbegin.launches w) fun _ v hv => launches_look ?_
  split
  · exact launches_remember trivial
  · have hbooks : v.books = w.books := World.books_of_apart (apart_consult rfl) hv
    have hround := tickLocked_launches (w := { v with memory := { v.memory with locked := true } })
      fun id hid => hids id (hbooks ▸ hid)
    refine Launches.bind (locked_launches hround) fun r => ?_
    cases r with
    | ok r => exact .done _
    | error f => exact .done _

/-! ### By hand -/

/-- A trigger by hand writes about its rule. -/
theorem triggerLocked_follows (rule : Rule) (hrule : A rule.id) (force : Bool) :
    (triggerLocked rule force).run.Follows (Writes A) :=
  Work.follows_bind (.act (fun w => (working_writes A).memory _ w) fun _ => .done _) fun _ =>
    Work.follows_bind (Work.follows_lift (.act Writes.refl fun _ => .done _)) fun now =>
      Work.follows_lift (along_processRule (working_writes A) rule hrule now true force).follows

/-- Loading a rule takes no time, and nothing is written. -/
theorem load_begins (id : Int) :
    (load id).run.Instant ∧ (load id).run.Follows (Writes A) := by
  have hfetch := Along.follows (along_fetch (working_writes A) .getRule fun s => s.findRule id)
  refine ⟨Work.instant_bind (Work.instant_lift (.change _)) fun r => ?_,
    Work.follows_bind (Work.follows_lift hfetch) fun r => ?_⟩
  · rcases r with f | _ | row <;> exact .done _
  · rcases r with f | _ | row <;> exact .done _

/-- A trigger by hand writes about its rule, which there is when it begins. -/
theorem trigger_launches (id : Int) (force : Bool) (hids : ∀ id ∈ w.books.ids, A id) :
    (trigger id force).run.Launches (Writes A) w := by
  obtain ⟨hinstant, hfollows⟩ := load_begins (A := A) id
  refine Work.launches_bind hinstant (hfollows.launches w) fun rule v hv => ?_
  obtain ⟨x, u, hu, -, hrow⟩ := load_run id w
  cases hu.symm.trans hv
  obtain ⟨row, hmem, -, hrule⟩ := hrow rule rfl
  have hid : A rule.id := (RuleRow.isOf_of_toRule hrule).id ▸ hids _ (List.mem_map_of_mem hmem)
  have hlocked : (locked (triggerLocked rule force).run).Follows (Writes A) :=
    (remember_follows _).bind fun _ => (triggerLocked_follows rule hid force).bind fun r =>
      (remember_follows _).bind fun _ => .done r
  exact (Work.follows_bind (Work.follows_lift (.whenFree fun _ => .done _)) fun _ =>
    Work.follows_bind (Work.follows_lift hlocked) fun r => .done _).launches v

end Engine

/-! ## Rules deleted under way -/

/-- An activity of the engine that has begun. -/
structure RunningActivity where
  plan : Activity Unit
  /-- How many rules of each number had been deleted when it loaded its own. -/
  loaded : Int → Nat

/-- A stored execution, and how many rules of its number had been deleted when its rule was
loaded and when it was written. -/
structure DatedExecution where
  row : ExecutionRow
  loaded : Nat
  written : Nat

/-- A world, the activities that have begun in it, and what is remembered of deletions. -/
structure SharedWorld where
  world : World
  activities : List RunningActivity := []
  /-- How many rules of each number were deleted. -/
  gone : Int → Nat := fun _ => 0
  /-- The executions in the store. -/
  dated : List DatedExecution := []

/-- A world in which no activity has begun yet. -/
def World.shared (w : World) : SharedWorld := { world := w }

/-- What may happen at a wait of the engine. -/
inductive Move where
  | tick
  | trigger (id : Int) (force : Bool)
  /-- An activity goes on after its wait, if that is over. -/
  | resume (n : Nat)
  | pass (d : Duration)
  | create (d : Definition)
  | delete (id : Int)
  | switch (id : Int) (on : Bool)
  /-- Clocks, readings, devices, lines and outages become what they are in another world. -/
  | around (v : World)

namespace SharedWorld

/-- The world after a step of an activity, in which what was written is dated. -/
def dateNew (s : SharedWorld) (loaded : Int → Nat) (w : World) : SharedWorld :=
  { s with
    world := w
    dated := s.dated ++ (w.store.executions.drop s.world.store.executions.length).map fun e =>
      ⟨e, loaded e.ruleId, s.gone e.ruleId⟩ }

/-- An activity that begins. -/
def begin (p : Activity Unit) (s : SharedWorld) : SharedWorld :=
  { s.dateNew s.gone (p.start s.world).2 with
    activities := s.activities ++ [⟨(p.start s.world).1, s.gone⟩] }

/-- An activity that goes on. -/
def resume (n : Nat) (s : SharedWorld) : SharedWorld :=
  match s.activities[n]? with
  | none => s
  | some j =>
    { s.dateNew j.loaded (j.plan.resume s.world).2 with
      activities := s.activities.set n { j with plan := (j.plan.resume s.world).1 } }

/-- A rule deleted with what was stored under it. -/
def strike (id : Int) (w : World) (s : SharedWorld) : SharedWorld :=
  { s with
    world := w
    gone := fun i => if i = id then s.gone i + 1 else s.gone i
    dated := s.dated.filter fun a => a.row.ruleId != id }

/-- A rule deleted if it is there. -/
def delete (id : Int) (s : SharedWorld) : SharedWorld :=
  match s.world.callStore .deleteRule (·.deleteRule id) with
  | (.ok true, w) => s.strike id w
  | (_, w) => { s with world := w }

end SharedWorld

/-- A move made. -/
def Move.step : Move → SharedWorld → SharedWorld
  | tick, s => s.begin (Engine.round.run >>= fun _ => pure ())
  | trigger id force, s => s.begin ((Engine.trigger id force).run >>= fun _ => pure ())
  | resume n, s => s.resume n
  | pass d, s => { s with
      world := s.world.elapse d
      activities := s.activities.map fun j => { j with plan := j.plan.later d } }
  | create d, s => { s with world := (s.world.callStore .createRule (·.createRule d)).2 }
  | delete id, s => s.delete id
  | switch id on, s => { s with world := (s.world.callStore .setEnabled (·.setEnabled id on)).2 }
  | around v, s => { s with world := s.world.amid v }

/-- Moves made one after the other. -/
def SharedWorld.run (ms : List Move) (s : SharedWorld) : SharedWorld :=
  ms.foldl (fun s m => m.step s) s

namespace SharedWorld

variable {s : SharedWorld}

/-- A rule that was loaded when so many of its number had been deleted is still there unless
one was deleted since. -/
def Knows (s : SharedWorld) (loaded : Int → Nat) (id : Int) : Prop :=
  loaded id ≤ s.gone id ∧ (loaded id = s.gone id → id ∈ s.world.books.ids)

/-- An execution stands under the rule that it was written for. -/
def Placed (s : SharedWorld) (a : DatedExecution) : Prop :=
  a.row.ruleId ∈ s.world.books.ids ∧ a.loaded = s.gone a.row.ruleId

/-- What holds after all moves. -/
structure Sound (s : SharedWorld) : Prop where
  rows : s.dated.map (·.row) = s.world.store.executions
  written : ∀ a ∈ s.dated, a.written = s.gone a.row.ruleId
  loaded : ∀ a ∈ s.dated, s.Knows (fun _ => a.loaded) a.row.ruleId
  activities : ∀ j ∈ s.activities, j.plan.Follows (Writes (s.Knows j.loaded))

theorem Knows.onward {t : SharedWorld} {loaded : Int → Nat} {id : Int} (h : s.Knows loaded id)
    (gone : t.gone id = s.gone id) (ids : id ∈ s.world.books.ids → id ∈ t.world.books.ids) :
    t.Knows loaded id :=
  ⟨gone ▸ h.1, fun hloaded => ids (h.2 (hloaded.trans gone))⟩

/-- A rule that is there when it is loaded. -/
theorem knows_present {id : Int} (h : id ∈ s.world.books.ids) : s.Knows s.gone id :=
  ⟨Nat.le_refl _, fun _ => h⟩

/-- No rule is deleted, and nothing is written. -/
theorem Sound.onward (h : s.Sound) {t : SharedWorld} (gone : t.gone = s.gone)
    (dated : t.dated = s.dated)
    (executions : t.world.store.executions = s.world.store.executions)
    (ids : ∀ id ∈ s.world.books.ids, id ∈ t.world.books.ids)
    (activities : ∀ j ∈ t.activities, ∃ i ∈ s.activities, j.loaded = i.loaded ∧
      ∀ {S : World → World → Prop}, i.plan.Follows S → j.plan.Follows S) : t.Sound where
  rows := by rw [dated, executions, h.rows]
  written := by rw [dated, gone]; exact h.written
  loaded a ha := (h.loaded a (dated ▸ ha)).onward (congrFun gone _) (ids _)
  activities j hj := by
    obtain ⟨i, hi, hloaded, hplan⟩ := activities j hj
    rw [hloaded]
    exact (hplan (h.activities i hi)).mono (Writes.mono fun id hid =>
      hid.onward (congrFun gone id) (ids id))

/-- A step of an activity that has loaded its rules. -/
theorem Sound.dateNew (h : s.Sound) {loaded : Int → Nat} {w : World}
    (hw : Writes (s.Knows loaded) s.world w) : (s.dateNew loaded w).Sound := by
  obtain ⟨rows, hrows, hknown⟩ := hw.rows
  have hids : ∀ id ∈ s.world.books.ids, id ∈ w.books.ids := fun id hid => hw.ids ▸ hid
  have hdated : (s.dateNew loaded w).dated
      = s.dated ++ rows.map fun e => ⟨e, loaded e.ruleId, s.gone e.ruleId⟩ := by
    simp only [SharedWorld.dateNew, hrows, List.drop_left]
  refine ⟨?_, ?_, ?_, fun j hj => ?_⟩
  · rw [hdated, List.map_append, h.rows, List.map_map]
    exact (congrArg _ (List.map_id rows)).trans hrows.symm
  · rw [hdated]
    intro a ha
    rcases List.mem_append.1 ha with ha | ha
    · exact h.written a ha
    · obtain ⟨e, -, rfl⟩ := List.mem_map.1 ha
      rfl
  · rw [hdated]
    intro a ha
    rcases List.mem_append.1 ha with ha | ha
    · exact (h.loaded a ha).onward rfl (hids _)
    · obtain ⟨e, he, rfl⟩ := List.mem_map.1 ha
      have hknows : (s.dateNew loaded w).Knows loaded e.ruleId := (hknown e he).onward rfl (hids _)
      exact hknows
  · exact (h.activities j hj).mono (Writes.mono fun id hid => hid.onward rfl (hids id))

theorem Sound.begin (h : s.Sound) {p : Activity Unit}
    (hp : p.Launches (Writes (s.Knows s.gone)) s.world) : (s.begin p).Sound := by
  obtain ⟨hplan, hw⟩ := hp.start Writes.refl Writes.trans
  have hdating := h.dateNew hw
  refine { hdating with activities := fun j hj => ?_ }
  rcases List.mem_append.1 hj with hj | hj
  · exact hdating.activities j hj
  · rw [List.mem_singleton.1 hj]
    exact hplan.mono (Writes.mono fun id hid => hid.onward rfl fun hmem => hw.ids ▸ hmem)

/-- A deletion takes with it what has been written under its number. -/
theorem Sound.strike (h : s.Sound) {id : Int} {w : World}
    (ids : w.books.ids = s.world.books.ids.filter (· != id))
    (executions : w.store.executions = s.world.store.executions.filter (·.ruleId != id)) :
    (s.strike id w).Sound := by
  -- once one more of its number is deleted, nothing is known to be there any longer
  have hknows : ∀ {loaded k}, s.Knows loaded k → (s.strike id w).Knows loaded k := by
    intro loaded k hk
    by_cases hid : k = id
    · have hgone : (s.strike id w).gone k = s.gone k + 1 := if_pos hid
      have hlt : loaded k < s.gone k + 1 := Nat.lt_succ_of_le hk.1
      rw [Knows, hgone]
      exact ⟨Nat.le_of_lt hlt, fun hloaded => absurd hloaded (Nat.ne_of_lt hlt)⟩
    · refine hk.onward (if_neg hid) fun hmem => ?_
      show k ∈ w.books.ids
      rw [ids]
      exact List.mem_filter.2 ⟨hmem, by simpa using hid⟩
  have hkept : ∀ a ∈ (s.strike id w).dated, a ∈ s.dated ∧ a.row.ruleId ≠ id := fun a ha => by
    simpa [SharedWorld.strike] using ha
  refine ⟨?_, fun a ha => ?_, fun a ha => hknows (h.loaded a (hkept a ha).1), fun j hj =>
    (h.activities j hj).mono (Writes.mono fun _ => hknows)⟩
  · show (s.dated.filter _).map _ = w.store.executions
    rw [executions, ← h.rows, List.filter_map]
    rfl
  · obtain ⟨hmem, hne⟩ := hkept a ha
    exact (h.written a hmem).trans (if_neg hne).symm

theorem Sound.resume (h : s.Sound) (n : Nat) : (s.resume n).Sound := by
  unfold SharedWorld.resume
  cases hj : s.activities[n]? with
  | none => exact h
  | some j =>
    obtain ⟨hplan, hw⟩ := (h.activities j (List.mem_of_getElem? hj)).resume Writes.refl Writes.trans
      s.world
    have hdating := h.dateNew hw
    refine { hdating with activities := fun i hi => ?_ }
    rcases List.mem_or_eq_of_mem_set hi with hi | rfl
    · exact hdating.activities i hi
    · exact hplan.mono (Writes.mono fun id hid => hid.onward rfl fun hid => hw.ids ▸ hid)

/-- What is done to the world without deleting or writing. -/
theorem Sound.calm (h : s.Sound) {w : World}
    (executions : w.store.executions = s.world.store.executions)
    (ids : ∀ id ∈ s.world.books.ids, id ∈ w.books.ids) :
    ({ s with world := w } : SharedWorld).Sound :=
  h.onward rfl rfl executions ids fun j hj => ⟨j, hj, rfl, id⟩

/-- A call to the store that writes no execution and keeps the numbers of rules. -/
theorem Sound.callStore (h : s.Sound) {α : Type} {c : Contact}
    {f : Store → Except Fault (α × Store)}
    (hf : ∀ {u a t}, f u = .ok (a, t) → t.executions = u.executions ∧
      ∀ id ∈ u.rules.map (·.id), id ∈ t.rules.map (·.id)) :
    ({ s with world := (s.world.callStore c f).2 } : SharedWorld).Sound := by
  rcases books_callStore c f s.world with ⟨-, hb⟩ | ⟨a, u, t, hu, hrules, hrows, -, hb⟩
  · exact h.calm (congrArg Books.executions hb) fun k hk => congrArg Books.ids hb ▸ hk
  · obtain ⟨hexecutions, hids⟩ := hf hu
    refine h.calm ((congrArg Books.executions hb).trans (hexecutions.trans hrows)) fun k hk => ?_
    rw [congrArg Books.ids hb]
    exact hids k (hrules ▸ hk)

theorem Sound.delete (h : s.Sound) (id : Int) : (s.delete id).Sound := by
  have hcases := books_callStore .deleteRule (·.deleteRule id) s.world
  unfold SharedWorld.delete
  rcases hc : s.world.callStore .deleteRule (·.deleteRule id) with ⟨r, w⟩
  rw [hc] at hcases
  rcases hcases with ⟨⟨e, he⟩, hb⟩ | ⟨b, u, t, ht, hrules, hrows, hr, hb⟩
  · cases he
    exact h.calm (congrArg Books.executions hb) fun k hk => congrArg Books.ids hb ▸ hk
  · cases hr
    rcases Store.deleteRule_eq_ok ht with ⟨rfl, rfl⟩ | ⟨rfl, rfl⟩
    · refine h.strike ((congrArg Books.ids hb).trans ?_) ((congrArg Books.executions hb).trans ?_)
      · show List.map _ (List.filter _ u.rules) = List.filter _ (List.map _ s.world.store.rules)
        rw [hrules, List.filter_map]
        rfl
      · show List.filter _ u.executions = _
        rw [hrows]
    · exact h.calm ((congrArg Books.executions hb).trans hrows) fun k hk => by
        rw [congrArg Books.ids hb]
        exact hrules ▸ hk

/-- Every move keeps what is known. -/
theorem Sound.step (h : s.Sound) (m : Move) : (m.step s).Sound := by
  cases m with
  | tick => exact h.begin ((Engine.round_launches fun _ => knows_present).bind fun _ => .done _)
  | trigger id force =>
    exact h.begin ((Engine.trigger_launches id force fun _ => knows_present).bind fun _ => .done _)
  | resume n => exact h.resume n
  | pass d =>
    have hbooks := books_elapse d s.world
    refine h.onward rfl rfl (congrArg Books.executions hbooks)
      (fun id hid => congrArg Books.ids hbooks ▸ hid) fun j hj => ?_
    obtain ⟨i, hi, rfl⟩ := List.mem_map.1 hj
    exact ⟨i, hi, rfl, fun hplan => hplan.later d⟩
  | create d =>
    refine h.callStore fun ht => ?_
    obtain ⟨-, -, rfl⟩ := Store.createRule_eq_ok ht
    exact ⟨rfl, fun k hk => List.map_append ▸ List.mem_append_left _ hk⟩
  | delete id => exact h.delete id
  | switch id on =>
    refine h.callStore fun ht => ?_
    obtain rfl := Store.setEnabled_eq_ok ht
    exact ⟨rfl, fun k hk => by
      rwa [Store.ids_updateRule (f := RuleRow.switched on) _ id fun _ => rfl]⟩
  | around v => exact h.calm rfl fun _ => id

/-- What holds at first holds after all moves. -/
theorem Sound.run (h : s.Sound) (ms : List Move) : (s.run ms).Sound := by
  induction ms generalizing s with
  | nil => exact h
  | cons m ms ih => exact ih (h.step m)

end SharedWorld

open SharedWorld in
/-- From a world without executions on, whatever is done at the waits of ticks and triggers by
hand: every execution was written after all deletions of its number that there have been, and
it stands under the rule that it was written for exactly if that was not deleted between its
loading and the writing. -/
theorem placed_iff {w : World} (new : w.store.executions = []) (ms : List Move) :
    (w.shared.run ms).dated.map (·.row) = (w.shared.run ms).world.store.executions ∧
    ∀ a ∈ (w.shared.run ms).dated, a.loaded ≤ a.written ∧
      a.written = (w.shared.run ms).gone a.row.ruleId ∧
      ((w.shared.run ms).Placed a ↔ a.loaded = a.written) := by
  have hbegin : w.shared.Sound := {
    rows := new.symm
    written := fun _ ha => absurd ha List.not_mem_nil
    loaded := fun _ ha => absurd ha List.not_mem_nil
    activities := fun _ hj => absurd hj List.not_mem_nil }
  have hsound := hbegin.run ms
  refine ⟨hsound.rows, fun a ha => ?_⟩
  have hwritten := hsound.written a ha
  obtain ⟨hle, hthere⟩ := hsound.loaded a ha
  rw [Placed, hwritten]
  exact ⟨hle, rfl, fun h => h.2, fun h => ⟨hthere h, h⟩⟩

/-- A rule that always holds and puts a job into a queue. -/
def Definition.queuing : Definition := { Definition.vent with actions := [.job { queue := "chores" }] }

/-- A rule is deleted while the tick that has loaded it waits for its job. -/
def Move.belated (ms : List Move) : List Move :=
  [.create .queuing, .tick, .delete 1] ++ ms ++ [.resume 0, .resume 0]

/-- An execution that was written late, and stands under no rule. -/
theorem placed_iff_belated : (World.quiet 0).store.executions = [] ∧
    ∃ a ∈ ((World.quiet 0).shared.run (Move.belated [])).dated, a.loaded < a.written ∧
      ¬ ((World.quiet 0).shared.run (Move.belated [])).Placed a := by
  obtain ⟨-, hplaced⟩ := placed_iff (w := .quiet 0) rfl (Move.belated [])
  have hlate : ∃ a ∈ ((World.quiet 0).shared.run (Move.belated [])).dated,
      a.loaded < a.written := by decide +kernel
  obtain ⟨a, ha, hlt⟩ := hlate
  exact ⟨rfl, a, ha, hlt, fun h => Nat.ne_of_lt hlt ((hplaced a ha).2.2.1 h)⟩

/-- What is then written is stored under no rule, or under a new one of the same number. -/
theorem orphan_written :
    ((World.quiet 0).shared.run (Move.belated [])).world.books.ids = [] ∧
    ((World.quiet 0).shared.run (Move.belated [])).world.store.executions.map (·.ruleId) = [1] ∧
    ((World.quiet 0).shared.run (Move.belated [.create .vent])).world.store.rules.map
      (fun r => (r.id, r.name, r.triggerCount)) = [(1, "vent", 1)] ∧
    ((World.quiet 0).shared.run (Move.belated [.create .vent])).dated.map
      (fun a => (a.row.ruleId, a.loaded, a.written)) = [(1, 0, 1)] := by
  decide +kernel

end Glasshouse
