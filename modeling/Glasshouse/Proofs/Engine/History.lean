/-
Glasshouse.Proofs.Engine.History — histories of the engine: ticks, triggers by hand,
rules created, deleted and switched, and a world that changes around all this
as it likes. `live` performs a history with the engine's own operations and
keeps a log of what became of rules; `live_chain` resolves it into strides, one
for every entry of the log, each of which changes the books in a simple way.
Properties of histories follow by looking at strides alone.
-/
import Glasshouse.Proofs.Cooldown.Operations
import Glasshouse.Proofs.Engine.Operations
import Mathlib.Data.List.Nodup

namespace Glasshouse

open Calendar Plan

/-! ## Histories -/

/-- Something that happens to the engine. -/
inductive Happening where
  | tick
  | trigger (id : Int) (force : Bool)
  /-- A trigger by hand reads its rule and begins to wait for the lock. -/
  | request (id : Int) (force : Bool)
  /-- The trigger that has waited longest gets the lock. -/
  | grant
  | create (d : Definition)
  | delete (id : Int)
  | switch (id : Int) (on : Bool)
  | switchAll (ids : List Int) (on : Bool)
  /-- Clocks, readings, devices, lines and outages become what they are in another
  world; rules, their history and what the engine remembers stay. -/
  | around (v : World)

/-- What a history tells about rules. -/
inductive Entry where
  | created (row : RuleRow)
  | deleted (id : Int)
  /-- The rules that a tick loaded, in the order in which it looks at them. -/
  | loaded (rules : List Rule)
  | looked (byTick : Bool) (report : Report)

/-- A world with the triggers by hand that wait for the lock, each with the rule
as it was read and whether its conditions count. -/
structure Scene where
  world : World
  waiting : List (Rule × Bool) := []

/-- The world around the rules and the engine replaced. -/
def World.amid (w v : World) : World :=
  { v with
    store := { v.store with rules := w.store.rules, executions := w.store.executions }
    memory := w.memory }

/-- What there is to tell about something that may have failed. -/
def told {ε α : Type} (f : α → List Entry) : Except ε α → List Entry
  | .ok a => f a
  | .error _ => []

/-- What there is to tell about a tick. -/
def Round.entries : Option Round → List Entry
  | some (.done _ rules reports) => .loaded rules :: reports.map (.looked true)
  | _ => []

/-- What happens, and what there is to tell about it. -/
def Happening.step : Happening → Scene → List Entry × Scene
  | tick, s =>
    let (r, w) := Engine.round.run.run s.world
    (told Round.entries r, { s with world := w })
  | trigger id force, s =>
    let (r, w) := (Engine.trigger id force).run.run s.world
    (told (fun r => [.looked false r]) r, { s with world := w })
  | request id force, s =>
    match (Engine.load id).run.run s.world with
    | (.ok rule, w) => ([], ⟨w, s.waiting ++ [(rule, force)]⟩)
    | (.error _, w) => ([], { s with world := w })
  | grant, s =>
    match s.waiting with
    | [] => ([], s)
    | (rule, force) :: rest =>
      let (r, w) := (Engine.locked (Engine.triggerLocked rule force).run).run s.world
      (told (fun r => [.looked false r]) r, ⟨w, rest⟩)
  | create d, s =>
    let (r, w) := s.world.callStore .createRule fun t => t.createRule d
    (told (fun row => [.created row]) r, { s with world := w })
  | delete id, s =>
    let (r, w) := s.world.callStore .deleteRule fun t => t.deleteRule id
    (told (fun b => if b then [.deleted id] else []) r, { s with world := w })
  | switch id on, s =>
    ([], { s with world := (s.world.callStore .setEnabled fun t => t.setEnabled id on).2 })
  | switchAll ids on, s =>
    ([], { s with world := (s.world.callStore .setAllEnabled fun t => t.setAllEnabled ids on).2 })
  | around v, s => ([], { s with world := s.world.amid v })

/-- A history performed: its log, and the scene at its end. -/
def live : List Happening → Scene → List Entry × Scene
  | [], s => ([], s)
  | h :: hs, s =>
    let (es, s) := h.step s
    let (fs, s) := live hs s
    (es ++ fs, s)

theorem live_cons (h : Happening) (hs : List Happening) (s : Scene) :
    live (h :: hs) s = ((h.step s).1 ++ (live hs (h.step s).2).1, (live hs (h.step s).2).2) := rfl

/-- A history goes on from where its first part ends. -/
theorem live_append (hs ks : List Happening) (s : Scene) :
    live (hs ++ ks) s
      = ((live hs s).1 ++ (live ks (live hs s).2).1, (live ks (live hs s).2).2) := by
  induction hs generalizing s with
  | nil => rfl
  | cons h hs ih => rw [List.cons_append, live_cons, live_cons, ih, List.append_assoc]

/-- What a history may contain. -/
structure Terms where
  /-- What the engine's clock may show. -/
  clock : Moment → Prop
  /-- Whether rules may be deleted. -/
  deletes : Prop
  /-- Whether triggers by hand may wait. -/
  waits : Prop

/-- Whether a happening keeps to terms. -/
def Happening.Under (T : Terms) : Happening → Prop
  | request .. => T.waits
  | grant => T.waits
  | delete _ => T.deletes
  | around v => T.clock v.clock
  | _ => True

/-! ## Strides -/

namespace Books

/-- The books with a rule removed. -/
def remove (b : Books) (id : Int) : Books :=
  { b with
    rules := b.rules.filter fun r => r.id != id
    executions := b.executions.filter fun e => e.ruleId != id }

/-- The numbers of the rules. -/
def ids (b : Books) : List Int := b.rules.map (·.id)

/-- The tracker has taken over the record of a loaded rule: the silence of its row,
and a time that is not before the stored one. -/
structure Ready (b : Books) (rule : Rule) : Prop where
  minutes : b.cooldowns.minutes.get? rule.id = some rule.cooldown
  stored : rule.id ∈ b.ids
  row : ∀ row ∈ b.rules, row.id = rule.id → (rule.cooldown : Int) = row.cooldown
    ∧ ∀ l, row.lastTriggered = some l →
      ∃ m, b.cooldowns.last.get? rule.id = some m ∧ l ≤ m.instant

/-- Books whose times can be compared and whose rules have different numbers. -/
structure Sane (T : Terms) (b : Books) : Prop where
  clock : T.clock b.clock
  aware : b.cooldowns.Aware
  nodup : b.ids.Nodup

end Books

/-- A simple change of the books, and what there is to tell about it. -/
inductive Stride (T : Terms) (b : Books) : Option Entry → Books → Prop
  | around {m : Moment} (clock : T.clock m) : Stride T b none { b with clock := m }
  | refuse (n : Nat) : Stride T b none (b.refuse n)
  | switch (id : Int) (on : Bool) : Stride T b none (b.update id (RuleRow.switched on))
  | create {row : RuleRow} (new : row.id ∉ b.ids) (fits : Store.fits row.id = true)
      (last : row.lastTriggered = none) (count : row.triggerCount = 0) :
      Stride T b (some (.created row)) { b with rules := b.rules ++ [row] }
  | delete (id : Int) (allowed : T.deletes) : Stride T b (some (.deleted id)) (b.remove id)
  | load {rules sorted : List Rule} (order : sorted.Perm rules)
      (rows : ∀ rule ∈ rules, ∃ row ∈ b.rules, row.toRule = .ok rule)
      (nodup : (rules.map (·.id)).Nodup) :
      Stride T b (some (.loaded sorted)) (b.track (b.cooldowns.refreshed rules))
  | look {rule : Rule} {r : Report} {b' : Books} (ready : b.Ready rule)
      (course : Engine.Course rule b.clock false false b r b') :
      Stride T b (some (.looked true r)) b'
  | manual {rule : Rule} {row : RuleRow} {force : Bool} {r : Report} {b' : Books}
      (stored : row ∈ b.rules) (id : row.id = rule.id)
      (current : row.toRule = .ok rule ∨ T.waits) (aware : rule.Aware)
      (course : Engine.Course rule b.clock true force (b.track (b.cooldowns.merge rule)) r b') :
      Stride T b (some (.looked false r)) b'

/-- Strides one after the other, and the log that they leave. -/
inductive Chain (T : Terms) : Books → List Entry → Books → Prop
  | nil (b : Books) : Chain T b [] b
  | cons {b b₁ b' : Books} {e : Option Entry} {es : List Entry} (first : Stride T b e b₁)
      (rest : Chain T b₁ es b') : Chain T b (e.toList ++ es) b'

namespace Chain

variable {T : Terms} {b b₁ b₂ : Books} {es fs : List Entry}

theorem single {e : Option Entry} (h : Stride T b e b₁) : Chain T b e.toList b₁ := by
  have hc := cons h (.nil b₁)
  rwa [List.append_nil] at hc

theorem append (h : Chain T b es b₁) (k : Chain T b₁ fs b₂) : Chain T b (es ++ fs) b₂ := by
  induction h with
  | nil => exact k
  | cons first _ ih =>
    rw [List.append_assoc]
    exact .cons first (ih k)

/-- What every stride preserves, a chain preserves. -/
theorem preserves {P : Books → Prop} (hP : ∀ {b e b'}, Stride T b e b' → P b → P b')
    (h : Chain T b es b₁) (hb : P b) : P b₁ := by
  induction h with
  | nil => exact hb
  | cons first _ ih => exact ih (hP first hb)

/-- A chain can be cut before and after every entry of its log. -/
theorem split {e : Entry} (h : Chain T b (es ++ e :: fs) b₂) :
    ∃ m n, Chain T b es m ∧ Stride T m (some e) n ∧ Chain T n fs b₂ := by
  generalize hl : es ++ e :: fs = l at h
  induction h generalizing es with
  | nil => simp at hl
  | @cons b b₁ b' o rest first chain ih =>
    cases o with
    | none =>
      obtain ⟨m, n, h₁, h₂, h₃⟩ := ih hl
      exact ⟨m, n, .cons first h₁, h₂, h₃⟩
    | some x =>
      cases es with
      | nil =>
        obtain ⟨rfl, rfl⟩ := List.cons.inj hl
        exact ⟨b, b₁, .nil b, first, chain⟩
      | cons y es =>
        obtain ⟨rfl, htail⟩ := List.cons.inj hl
        obtain ⟨m, n, h₁, h₂, h₃⟩ := ih htail
        exact ⟨m, n, .cons first h₁, h₂, h₃⟩

end Chain

/-! ## What strides preserve -/

theorem Books.ids_update (b : Books) (id : Int) (f : RuleRow → RuleRow)
    (hf : ∀ r, (f r).id = r.id) : (b.update id f).ids = b.ids := by
  unfold ids update
  rw [List.map_map]
  refine List.map_congr_left fun r _ => ?_
  simp only [Function.comp]
  split
  · exact hf r
  · rfl

/-- A row after the rows of a number were changed is an unchanged row of another
number, or a changed one of this. -/
theorem Books.mem_update {f : RuleRow → RuleRow} {b : Books} {id : Int} {row : RuleRow}
    (h : row ∈ (b.update id f).rules) :
    (row ∈ b.rules ∧ row.id ≠ id) ∨ ∃ old ∈ b.rules, old.id = id ∧ row = f old := by
  obtain ⟨old, hold, rfl⟩ := List.mem_map.1 h
  by_cases hid : old.id = id
  · exact .inr ⟨old, hold, hid, by simp [hid]⟩
  · exact .inl (by simpa [hid] using hold)

/-- What a record leaves as it is. -/
theorem Recorded.same {x : Execution} {b b' : Books} (h : Recorded x b b') :
    b'.rules = b.rules ∧ b'.cooldowns = b.cooldowns ∧ b'.clock = b.clock := by
  rcases h with rfl | ⟨row, _, rfl⟩
  · exact ⟨rfl, rfl, rfl⟩
  · exact ⟨rfl, rfl, rfl⟩

/-- What noting a trigger leaves as it is, and what it does to the rows. -/
theorem Noted.same {id : Int} {t : Moment} {n : Int} {noted : Bool} {b b' : Books}
    (h : Noted id t n noted b b') :
    b'.cooldowns = b.cooldowns ∧ b'.clock = b.clock ∧ b'.executions = b.executions
      ∧ b'.rules = (if noted then (b.update id (RuleRow.noted t.instant n)).rules else b.rules) := by
  rcases h with ⟨rfl, rfl⟩ | ⟨rfl, i, hi, rfl⟩
  · exact ⟨rfl, rfl, rfl, rfl⟩
  · obtain ⟨_, rfl⟩ := Moment.toInstant_eq_ok.1 hi
    exact ⟨rfl, rfl, rfl, rfl⟩

namespace Engine.Effect

variable {id : Int} {now : Moment} {b b' : Books} {r : Report}

theorem clock_eq (h : Effect id now b r b') : b'.clock = b.clock := by
  cases h with
  | nothing e => rfl
  | quiet _ _ _ _ record => exact record.same.2.2
  | trigger _ _ _ _ note record => exact record.same.2.2.trans note.same.2.1

theorem ids_eq (h : Effect id now b r b') : b'.ids = b.ids := by
  cases h with
  | nothing e => rfl
  | quiet _ _ _ _ record => exact congrArg (List.map (·.id)) record.same.1
  | @trigger _ noted _ _ _ _ _ _ note record =>
    unfold Books.ids
    rw [record.same.1, note.same.2.2.2]
    cases noted with
    | false => rfl
    | true => exact Books.ids_update b id (RuleRow.noted _ _) fun _ => rfl

theorem aware (h : Effect id now b r b') (ht : b.cooldowns.Aware) (hn : now.Aware) :
    b'.cooldowns.Aware := by
  cases h with
  | nothing e => exact ht
  | quiet _ _ _ _ record =>
    rw [record.same.2.1]
    exact ht
  | trigger _ _ _ _ note record =>
    rw [record.same.2.1, note.same.1]
    exact ht.marked id hn

/-- A rule that was taken over stays so while others, or it itself, are looked at. -/
theorem ready (h : Effect id now b r b') {rule : Rule} (hr : b.Ready rule) : b'.Ready rule := by
  refine ⟨?_, h.ids_eq ▸ hr.stored, ?_⟩
  · cases h with
    | nothing e => exact hr.minutes
    | quiet _ _ _ _ record =>
      rw [record.same.2.1]
      exact hr.minutes
    | trigger _ _ _ _ note record =>
      rw [record.same.2.1, note.same.1]
      exact hr.minutes
  · cases h with
    | nothing e => exact hr.row
    | quiet _ _ _ _ record =>
      rw [record.same.1, record.same.2.1]
      exact hr.row
    | @trigger _ noted _ _ _ _ _ _ note record =>
      rw [record.same.1, record.same.2.1, note.same.1, note.same.2.2.2]
      intro row hrow hid
      -- a stored time that was not after the remembered one is not after the mark either
      have hold : ∀ old ∈ b.rules, old.id = rule.id → (rule.cooldown : Int) = old.cooldown
          ∧ ∀ l, old.lastTriggered = some l →
            ∃ m, (b.cooldowns.marked id now).last.get? rule.id = some m ∧ l ≤ m.instant := by
        intro old hmem hid
        refine ⟨(hr.row old hmem hid).1, fun l hl => ?_⟩
        obtain ⟨m, hm, hlm⟩ := (hr.row old hmem hid).2 l hl
        obtain ⟨m', hm', hmm⟩ := Cooldown.marked_forward hm id now
        exact ⟨m', hm', Int.le_trans hlm hmm⟩
      cases noted with
      | false => exact hold row hrow hid
      | true =>
        rcases Books.mem_update hrow with ⟨hmem, _⟩ | ⟨old, hmem, hk, rfl⟩
        · exact hold row hmem hid
        · have hkr : id = rule.id := hk.symm.trans hid
          obtain ⟨hc, hlast⟩ := hold old hmem hid
          refine ⟨hc, fun l hl => ?_⟩
          rw [← hkr, Cooldown.marked_last] at hlast
          show ∃ m, (b.cooldowns.marked id now).last.get? rule.id = some m ∧ l ≤ m.instant
          rw [← hkr, Cooldown.marked_last]
          refine ⟨_, rfl, RuleRow.le_of_noted hl (Int.le_refl _) fun j hj => ?_⟩
          obtain ⟨m, hm, hjm⟩ := hlast j hj
          cases hm
          exact hjm

end Engine.Effect

/-- A rule built from a row has a stored time with an offset. -/
theorem Rule.IsOf.aware {rule : Rule} {row : RuleRow} (h : rule.IsOf row) : rule.Aware := by
  intro m hm
  rw [h.last] at hm
  obtain ⟨i, _, rfl⟩ := Option.map_eq_some_iff.1 hm
  exact (Moment.utc_ofInstant i).aware

namespace Books

variable {T : Terms} {b b' : Books}

/-- Of rows with different numbers only one has a given number. -/
theorem eq_of_id {b : Books} (hn : b.ids.Nodup) {p q : RuleRow} (hp : p ∈ b.rules)
    (hq : q ∈ b.rules) (h : p.id = q.id) : p = q :=
  List.inj_on_of_nodup_map hn hp hq h

/-- A tick that merges in the records of the rules takes all of them over. -/
theorem ready_refreshed {rules : List Rule} (hn : b.ids.Nodup)
    (rows : ∀ rule ∈ rules, ∃ row ∈ b.rules, row.toRule = .ok rule)
    (nodup : (rules.map (·.id)).Nodup) {rule : Rule} (hr : rule ∈ rules) :
    (b.track (b.cooldowns.refreshed rules)).Ready rule := by
  obtain ⟨row, hrow, hrule⟩ := rows rule hr
  have hof := RuleRow.isOf_of_toRule hrule
  have hat := Cooldown.refreshed_of_mem nodup hr b.cooldowns
  refine ⟨?_, ?_, ?_⟩
  · show (b.cooldowns.refreshed rules).minutes.get? rule.id = _
    rw [hat.minutes, Cooldown.merge_minutes]
  · rw [hof.id]
    exact List.mem_map_of_mem hrow
  · intro q hq hid
    have hqr : q = row := eq_of_id hn hq hrow (hid.trans hof.id)
    subst hqr
    refine ⟨hof.cooldown, fun l hl => ?_⟩
    show ∃ m, (b.cooldowns.refreshed rules).last.get? rule.id = some m ∧ l ≤ m.instant
    rw [hat.last]
    have hl' : rule.lastTriggered = some (.ofInstant l) := by rw [hof.last, hl]; rfl
    obtain ⟨m, hm, hlm⟩ := Cooldown.le_merge_last b.cooldowns hl'
    rw [Moment.instant_ofInstant] at hlm
    exact ⟨m, hm, hlm⟩

end Books

namespace Stride

variable {T : Terms} {b b' : Books} {e : Option Entry}

/-- Times stay comparable, and numbers of rules different. -/
theorem sane (hT : ∀ m, T.clock m → m.Aware) (h : Stride T b e b') (hb : b.Sane T) :
    b'.Sane T := by
  cases h with
  | around clock => exact ⟨clock, hb.aware, hb.nodup⟩
  | refuse n => exact ⟨hb.clock, hb.aware, hb.nodup⟩
  | switch id on =>
    refine ⟨hb.clock, hb.aware, ?_⟩
    rw [Books.ids_update b id (RuleRow.switched on) fun _ => rfl]
    exact hb.nodup
  | @create row new _ _ _ =>
    refine ⟨hb.clock, hb.aware, ?_⟩
    show (List.map (·.id) (b.rules ++ [row])).Nodup
    rw [List.map_append, List.nodup_append]
    refine ⟨hb.nodup, by simp, fun i hi j hj => ?_⟩
    rw [List.map_singleton, List.mem_singleton] at hj
    subst hj
    exact fun hij => new (hij ▸ hi)
  | delete id _ =>
    refine ⟨hb.clock, hb.aware, ?_⟩
    exact hb.nodup.sublist ((List.filter_sublist (l := b.rules)).map _)
  | load _ rows _ =>
    refine ⟨hb.clock, hb.aware.refreshed fun rule hr => ?_, hb.nodup⟩
    obtain ⟨row, _, hrow⟩ := rows rule hr
    exact (RuleRow.isOf_of_toRule hrow).aware
  | look _ course =>
    have he := course.effect hb.aware (hT _ hb.clock)
    exact ⟨he.clock_eq ▸ hb.clock, he.aware hb.aware (hT _ hb.clock), he.ids_eq ▸ hb.nodup⟩
  | manual _ _ _ aware course =>
    have hm := hb.aware.merge aware
    have he := course.effect hm (hT _ hb.clock)
    exact ⟨he.clock_eq ▸ hb.clock, he.aware hm (hT _ hb.clock), he.ids_eq ▸ hb.nodup⟩

end Stride

theorem Chain.sane {T : Terms} (hT : ∀ m, T.clock m → m.Aware) {b b' : Books} {es : List Entry}
    (h : Chain T b es b') (hb : b.Sane T) : b'.Sane T :=
  h.preserves (fun h hb => h.sane hT hb) hb

/-! ## Histories are chains -/

/-- The numbers of the enabled rows are numbers of rows, each once. -/
theorem Books.enabledRows_ids (b : Books) (hn : b.ids.Nodup) :
    (b.enabledRows.map (·.id)).Nodup := by
  have hp : (b.rules.mergeSort RuleRow.before).Perm b.rules := List.mergeSort_perm ..
  have hs : (b.enabledRows.map (·.id)).Sublist ((b.rules.mergeSort RuleRow.before).map (·.id)) :=
    List.filter_sublist.map _
  exact ((hp.map _).nodup_iff.2 hn).sublist hs

theorem Books.mem_enabledRows {b : Books} {row : RuleRow} :
    row ∈ b.enabledRows ↔ row ∈ b.rules ∧ row.enabled = true := by
  rw [enabledRows, List.mem_filter, List.mem_mergeSort]

theorem Books.mem_of_enabledRows {b : Books} {row : RuleRow} (h : row ∈ b.enabledRows) :
    row ∈ b.rules :=
  (mem_enabledRows.1 h).1

/-- Every rule that a tick builds is held by a row. -/
theorem Books.rows_of_built (b : Books) :
    ∀ rule ∈ b.built, ∃ row ∈ b.rules, row.toRule = .ok rule := by
  intro rule hrule
  obtain ⟨row, hrow, hr⟩ := List.mem_filterMap.1 hrule
  exact ⟨row, mem_of_enabledRows hrow, RuleRow.rule?_eq_some.1 hr⟩

theorem Books.built_aware (b : Books) : ∀ rule ∈ b.built, rule.Aware := by
  intro rule hrule
  obtain ⟨row, _, hr⟩ := b.rows_of_built rule hrule
  exact (RuleRow.isOf_of_toRule hr).aware

/-- The rules that a tick builds have different numbers, as their rows do. -/
theorem Books.built_ids (b : Books) (hn : b.ids.Nodup) : (b.built.map (·.id)).Nodup := by
  have hsub : ∀ rows : List RuleRow,
      ((rows.filterMap RuleRow.rule?).map (·.id)).Sublist (rows.map (·.id)) := by
    intro rows
    induction rows with
    | nil => exact .refl _
    | cons row rows ih =>
      cases hr : row.rule? with
      | none =>
        rw [List.filterMap_cons_none hr]
        exact ih.trans (List.sublist_cons_self ..)
      | some rule =>
        rw [List.filterMap_cons_some hr, List.map_cons, List.map_cons,
          (RuleRow.isOf_of_toRule (RuleRow.rule?_eq_some.1 hr)).id]
        exact ih.cons_cons _
  exact (b.enabledRows_ids hn).sublist (hsub b.enabledRows)

section Chains

variable {T : Terms} (hT : ∀ m, T.clock m → m.Aware)

include hT

theorem courses_chain {rules : List Rule} {b b' : Books} {rs : List Report}
    (h : Engine.Courses b.clock rules b rs b') (hb : b.Sane T)
    (ready : ∀ rule ∈ rules, b.Ready rule) : Chain T b (rs.map (.looked true)) b' := by
  generalize hnow : b.clock = now at h
  induction h with
  | nil b => exact .nil b
  | @cons rule rules b b₁ b' r rs first rest ih =>
    subst hnow
    have he := first.effect hb.aware (hT _ hb.clock)
    have hl : Stride T b (some (.looked true r)) b₁ :=
      .look (ready rule (List.mem_cons_self ..)) first
    have hrest : Chain T b₁ (rs.map (.looked true)) b' :=
      ih (hl.sane hT hb) (fun q hq => he.ready (ready q (List.mem_cons_of_mem _ hq))) he.clock_eq
    exact .cons hl hrest

/-- What a tick does with the rows that it has loaded is a chain of strides. -/
theorem served_chain {b b' : Books} {r : Except Fault Round}
    (h : Engine.Served b.clock b.enabledRows b r b') (hb : b.Sane T) :
    Chain T b (told Round.entries (r.map some)) b' := by
  cases h with
  | unbuilt _ => exact .single (.refuse _)
  | unmerged build merge =>
    obtain ⟨rfl, _⟩ := Engine.sift_built build
    rw [Cooldown.refresh_of_aware hb.aware b.built_aware] at merge
    cases merge
  | @done _ sorted n _ reports _ build merge order looks =>
    obtain ⟨rfl, _⟩ := Engine.sift_built build
    rw [Cooldown.refresh_of_aware hb.aware b.built_aware] at merge
    cases merge
    have hrefuse : Stride T b none (b.refuse n) := .refuse n
    have hload : Stride T (b.refuse n) (some (.loaded sorted))
        ((b.refuse n).track (b.cooldowns.refreshed b.built)) :=
      .load order b.rows_of_built (b.built_ids hb.nodup)
    refine .cons hrefuse (.cons hload ?_)
    refine courses_chain hT looks (hload.sane hT (hrefuse.sane hT hb)) fun rule hr => ?_
    exact Books.ready_refreshed (b := b.refuse n) hb.nodup b.rows_of_built (b.built_ids hb.nodup)
      (order.mem_iff.1 hr)

/-- A tick is a chain of strides. -/
theorem turn_chain {w : World} {b' : Books} {r : Except Fault (Option Round)}
    (h : Engine.Turn w r b') (hb : w.books.Sane T) :
    Chain T w.books (told Round.entries r) b' := by
  cases h with
  | refused _ => exact .nil _
  | skipped _ => exact .nil _
  | unloaded _ => exact .nil _
  | served _ serve => exact served_chain hT serve hb

omit hT

/-- A trigger by hand that has the lock is a chain of strides, if its rule is stored. -/
theorem manual_chain {rule : Rule} {row : RuleRow} {force : Bool} {b b' : Books}
    {r : Except Fault Report} (h : Engine.Manual rule force b r b') (hb : b.Sane T)
    (stored : row ∈ b.rules) (id : row.id = rule.id)
    (current : row.toRule = .ok rule ∨ T.waits) (aware : rule.Aware) :
    Chain T b (told (fun r => [.looked false r]) r) b' := by
  cases h with
  | unmerged merge =>
    rw [Cooldown.sync_of_aware hb.aware aware] at merge
    cases merge
  | looked merge look =>
    rw [Cooldown.sync_of_aware hb.aware aware] at merge
    cases merge
    exact .single (.manual stored id current aware look)

theorem create_chain (d : Definition) (s : Scene) :
    Chain T s.world.books ((Happening.create d).step s).1
      ((Happening.create d).step s).2.world.books := by
  show Chain T s.world.books
    (told (fun row => [.created row]) (s.world.callStore .createRule fun t => t.createRule d).1)
    (s.world.callStore .createRule fun t => t.createRule d).2.books
  rcases World.books_callStore .createRule (fun t => t.createRule d) s.world with
    ⟨⟨e, he⟩, hb⟩ | ⟨row, t, t', hf, hr, hx, hn, hb⟩
  · rw [he, hb]
    exact .nil _
  · obtain ⟨hrow, hfits, rfl⟩ := Store.createRule_eq_ok hf
    have hnew : row.id ∉ s.world.books.ids := by
      have h := t.nextRule_not_mem
      rw [hr] at h
      rw [hrow]
      exact h
    simp only [hr, hx] at hb
    rw [hn, hb]
    exact .single (.create hnew hfits (by rw [hrow]; rfl) (by rw [hrow]; rfl))

theorem delete_chain (id : Int) (allowed : T.deletes) (s : Scene) :
    Chain T s.world.books ((Happening.delete id).step s).1
      ((Happening.delete id).step s).2.world.books := by
  show Chain T s.world.books
    (told (fun b => if b then [.deleted id] else [])
      (s.world.callStore .deleteRule fun t => t.deleteRule id).1)
    (s.world.callStore .deleteRule fun t => t.deleteRule id).2.books
  rcases World.books_callStore .deleteRule (fun t => t.deleteRule id) s.world with
    ⟨⟨e, he⟩, hb⟩ | ⟨x, t, t', hf, hr, hx, hn, hb⟩
  · rw [he, hb]
    exact .nil _
  · rcases Store.deleteRule_eq_ok hf with ⟨rfl, rfl⟩ | ⟨rfl, rfl⟩
    · simp only [hr, hx] at hb
      rw [hn, hb]
      exact .single (.delete id allowed)
    · simp only [hr, hx] at hb
      rw [hn, hb]
      exact .nil _

theorem switch_chain (id : Int) (on : Bool) (s : Scene) :
    Chain T s.world.books ((Happening.switch id on).step s).1
      ((Happening.switch id on).step s).2.world.books := by
  show Chain T s.world.books [] (s.world.callStore _ _).2.books
  rcases World.books_callStore .setEnabled (fun t => t.setEnabled id on) s.world with
    ⟨_, hb⟩ | ⟨x, t, t', hf, hr, hx, _, hb⟩
  · rw [hb]
    exact .nil _
  · have ht := Store.setEnabled_eq_ok hf
    subst ht
    simp only [Store.updateRule, hr, hx] at hb
    rw [hb]
    exact .single (.switch id on)

/-- Switching several rules switches them number by number. -/
theorem switches_chain (ids : List Int) (on : Bool) {t : Store} {b : Books}
    (hr : t.rules = b.rules) (hx : t.executions = b.executions) :
    Chain T b [] { b with
      rules := (ids.foldl (fun t id => t.updateRule id (RuleRow.switched on)) t).rules
      executions :=
        (ids.foldl (fun t id => t.updateRule id (RuleRow.switched on)) t).executions } := by
  induction ids generalizing t b with
  | nil =>
    rw [List.foldl_nil, hr, hx]
    exact .nil b
  | cons id ids ih =>
    have hfirst : Stride T b none (b.update id (RuleRow.switched on)) := .switch id on
    have hrest := @ih (t.updateRule id (RuleRow.switched on)) (b.update id (RuleRow.switched on))
      (congrArg (List.map _) hr) hx
    exact .cons hfirst hrest

theorem switchAll_chain (ids : List Int) (on : Bool) (s : Scene) :
    Chain T s.world.books ((Happening.switchAll ids on).step s).1
      ((Happening.switchAll ids on).step s).2.world.books := by
  show Chain T s.world.books [] (s.world.callStore _ _).2.books
  rcases World.books_callStore .setAllEnabled (fun t => t.setAllEnabled ids on) s.world with
    ⟨_, hb⟩ | ⟨x, t, t', hf, hr, hx, _, hb⟩
  · rw [hb]
    exact .nil _
  · have ht := Store.setAllEnabled_eq_ok hf
    subst ht
    rw [hb]
    exact switches_chain ids on hr hx

end Chains

/-- A rule stays stored unless it is deleted. -/
theorem Stride.mem_ids {T : Terms} (hT : ∀ m, T.clock m → m.Aware) {b b' : Books}
    {e : Option Entry} (h : Stride T b e b') (hb : b.Sane T) {id : Int}
    (kept : e = some (.deleted id) → ¬ T.deletes) (hid : id ∈ b.ids) : id ∈ b'.ids := by
  cases h with
  | around _ => exact hid
  | refuse n => exact hid
  | switch k on =>
    rw [Books.ids_update b k (RuleRow.switched on) fun _ => rfl]
    exact hid
  | create _ _ _ _ =>
    show id ∈ List.map _ (_ ++ _)
    rw [List.map_append]
    exact List.mem_append_left _ hid
  | delete k allowed =>
    by_cases hk : k = id
    · exact absurd allowed (kept (by rw [hk]))
    · obtain ⟨row, hrow, rfl⟩ := List.mem_map.1 hid
      refine List.mem_map_of_mem (List.mem_filter.2 ⟨hrow, ?_⟩)
      simpa using Ne.symm hk
  | load _ _ _ => exact hid
  | look _ course =>
    rw [(course.effect hb.aware (hT _ hb.clock)).ids_eq]
    exact hid
  | manual _ _ _ aware course =>
    rw [(course.effect (hb.aware.merge aware) (hT _ hb.clock)).ids_eq]
    exact hid

theorem Chain.mem_ids {T : Terms} (hT : ∀ m, T.clock m → m.Aware) {b b' : Books}
    {es : List Entry} (h : Chain T b es b') (hb : b.Sane T) {id : Int}
    (kept : .deleted id ∈ es → ¬ T.deletes) (hid : id ∈ b.ids) : id ∈ b'.ids := by
  induction h with
  | nil => exact hid
  | cons first _ ih =>
    refine ih (first.sane hT hb) (fun hm => kept (List.mem_append_right _ hm))
      (first.mem_ids hT hb (fun he => kept (List.mem_append_left _ ?_)) hid)
    rw [he]
    exact List.mem_singleton_self _

/-- Terms under which triggers that wait always find their rule in the store. -/
structure Terms.Fair (T : Terms) : Prop where
  aware : ∀ m, T.clock m → m.Aware
  stored : T.waits → ¬ T.deletes

/-- A scene with sane books, in which the rules of waiting triggers are stored. -/
structure Scene.Sane (T : Terms) (s : Scene) : Prop where
  books : s.world.books.Sane T
  waiting : ∀ p ∈ s.waiting, T.waits ∧ p.1.Aware ∧ p.1.id ∈ s.world.books.ids

/-- Happenings that keep to terms are chains, and waiting triggers still find their rules. -/
theorem step_chain {T : Terms} (hT : T.Fair) {h : Happening} (hh : h.Under T) {s : Scene}
    (hs : s.Sane T) : Chain T s.world.books (h.step s).1 (h.step s).2.world.books
      ∧ ∀ p ∈ (h.step s).2.waiting, p ∈ s.waiting
        ∨ T.waits ∧ p.1.Aware ∧ p.1.id ∈ s.world.books.ids := by
  cases h with
  | tick => exact ⟨turn_chain hT.aware (Engine.round_turn s.world) hs.books, fun p hp => .inl hp⟩
  | trigger id force =>
    refine ⟨?_, fun p hp => .inl hp⟩
    obtain ⟨x, v, hx, hc⟩ := Engine.trigger_run id force s.world
    show Chain T s.world.books (told (fun r => [.looked false r])
      ((Engine.trigger id force).run.run s.world).1)
      ((Engine.trigger id force).run.run s.world).2.books
    rw [hx]
    rcases hc with ⟨⟨e, rfl⟩, hv⟩ | ⟨rule, ⟨row, hrow, _, hrule⟩, r, rfl, hm⟩
    · show Chain T s.world.books [] v.books
      rw [hv]
      exact .nil _
    · have hof := RuleRow.isOf_of_toRule hrule
      have hc := manual_chain hm hs.books hrow hof.id.symm (.inl hrule) hof.aware
      cases r with
      | ok r => exact hc
      | error f => exact hc
  | request id force =>
    obtain ⟨x, v, hx, hv, hrow⟩ := Engine.load_run id s.world
    simp only [Happening.step, hx]
    cases x with
    | error e =>
      refine ⟨?_, fun p hp => .inl hp⟩
      simp only [hv]
      exact .nil _
    | ok rule =>
      refine ⟨?_, fun p hp => ?_⟩
      · simp only [hv]
        exact .nil _
      · rcases List.mem_append.1 hp with hp | hp
        · exact .inl hp
        · obtain ⟨row, hmem, _, hrule⟩ := hrow rule rfl
          have hof := RuleRow.isOf_of_toRule hrule
          rw [List.mem_singleton.1 hp]
          exact .inr ⟨hh, hof.aware, hof.id ▸ List.mem_map_of_mem hmem⟩
  | grant =>
    simp only [Happening.step]
    cases hw : s.waiting with
    | nil => exact ⟨.nil _, fun p hp => .inl (hw ▸ hp)⟩
    | cons p rest =>
      obtain ⟨rule, force⟩ := p
      refine ⟨?_, fun p hp => .inl (List.mem_cons_of_mem _ hp)⟩
      obtain ⟨hwaits, haware, hid⟩ := hs.waiting (rule, force) (hw ▸ List.mem_cons_self ..)
      obtain ⟨row, hrow, hk⟩ := List.mem_map.1 hid
      exact manual_chain (Engine.triggerLocked_manual rule force s.world) hs.books hrow hk
        (.inr hwaits) haware
  | create d => exact ⟨create_chain d s, fun p hp => .inl hp⟩
  | delete id => exact ⟨delete_chain id hh s, fun p hp => .inl hp⟩
  | switch id on => exact ⟨switch_chain id on s, fun p hp => .inl hp⟩
  | switchAll ids on => exact ⟨switchAll_chain ids on s, fun p hp => .inl hp⟩
  | around v => exact ⟨.single (.around hh), fun p hp => .inl hp⟩

theorem step_sane {T : Terms} (hT : T.Fair) {h : Happening} (hh : h.Under T) {s : Scene}
    (hs : s.Sane T) : (h.step s).2.Sane T := by
  obtain ⟨hc, hw⟩ := step_chain hT hh hs
  have hkeep : T.waits → ∀ id ∈ s.world.books.ids, id ∈ (h.step s).2.world.books.ids :=
    fun hwaits id hid => hc.mem_ids hT.aware hs.books (fun _ => hT.stored hwaits) hid
  refine ⟨hc.sane hT.aware hs.books, fun p hp => ?_⟩
  rcases hw p hp with hold | ⟨hwaits, haware, hid⟩
  · obtain ⟨hwaits, haware, hid⟩ := hs.waiting p hold
    exact ⟨hwaits, haware, hkeep hwaits _ hid⟩
  · exact ⟨hwaits, haware, hkeep hwaits _ hid⟩

/-- A history that keeps to terms is a chain of strides. -/
theorem live_chain {T : Terms} (hT : T.Fair) {hs : List Happening} (hh : ∀ h ∈ hs, h.Under T)
    {s : Scene} (h : s.Sane T) :
    Chain T s.world.books (live hs s).1 (live hs s).2.world.books := by
  induction hs generalizing s with
  | nil => exact .nil _
  | cons x hs ih =>
    have hx := hh x (List.mem_cons_self ..)
    have hrest := ih (fun y hy => hh y (List.mem_cons_of_mem _ hy)) (step_sane hT hx h)
    exact (step_chain hT hx h).1.append hrest

theorem live_sane {T : Terms} (hT : T.Fair) {hs : List Happening} (hh : ∀ h ∈ hs, h.Under T)
    {s : Scene} (h : s.Sane T) : (live hs s).2.Sane T := by
  induction hs generalizing s with
  | nil => exact h
  | cons x hs ih =>
    exact ih (fun y hy => hh y (List.mem_cons_of_mem _ hy))
      (step_sane hT (hh x (List.mem_cons_self ..)) h)

/-! ## Losses -/

theorem Recorded.lost_le {x : Execution} {b b' : Books} (h : Recorded x b b') :
    b.lost ≤ b'.lost := by
  rcases h with rfl | ⟨row, _, rfl⟩
  · exact Nat.le_succ _
  · exact Nat.le_refl _

theorem Noted.lost_le {id : Int} {t : Moment} {n : Int} {noted : Bool} {b b' : Books}
    (h : Noted id t n noted b b') : b.lost ≤ b'.lost := by
  rcases h with ⟨_, rfl⟩ | ⟨_, i, _, rfl⟩
  · exact Nat.le_succ _
  · exact Nat.le_refl _

theorem Engine.Course.lost_le {rule : Rule} {now : Moment} {bypass force : Bool} {b b' : Books}
    {r : Report} (h : Engine.Course rule now bypass force b r b') : b.lost ≤ b'.lost := by
  cases h with
  | notMatched _ _ _ => exact Nat.le_refl _
  | suppressed _ _ _ record => exact record.lost_le
  | triggered _ _ _ _ note record => exact Nat.le_trans note.lost_le record.lost_le
  | failed _ _ _ record => exact record.lost_le
  | faulted _ _ _ record => exact record.lost_le

theorem Stride.lost_le {T : Terms} {b b' : Books} {e : Option Entry} (h : Stride T b e b') :
    b.lost ≤ b'.lost := by
  cases h with
  | look _ course => exact course.lost_le
  | manual _ _ _ _ course => exact course.lost_le
  | _ => exact Nat.le_refl _

/-- What is lost stays lost. -/
theorem Chain.lost_le {T : Terms} {b b' : Books} {es : List Entry} (h : Chain T b es b') :
    b.lost ≤ b'.lost := by
  induction h with
  | nil => exact Nat.le_refl _
  | cons first _ ih => exact Nat.le_trans first.lost_le ih

/-! ## Beginnings -/

/-- A world without rules, in which nothing is remembered of any. -/
structure World.Fresh (w : World) : Prop where
  rules : w.store.rules = []
  executions : w.store.executions = []
  cooldowns : w.memory.cooldowns = {}

theorem World.Fresh.sane {w : World} (h : w.Fresh) {T : Terms} (clock : T.clock w.clock) :
    (Scene.mk w []).Sane T := by
  have hrules : w.books.rules = [] := h.rules
  have hempty : w.books.cooldowns = {} := h.cooldowns
  refine ⟨⟨clock, fun id m hm => ?_, ?_⟩, fun p hp => by cases hp⟩
  · rw [hempty] at hm
    cases hm
  · unfold Books.ids
    rw [hrules]
    exact List.nodup_nil

/-- A world without rules, so many minutes after some midnight of universal time. -/
def World.quiet (minutes : Nat) : World :=
  .create {
      databaseUrl := ""
      interval := 60
      autostart := false
      stopTimeout := 30.0
      actionTimeout := 10.0
      eventQueueSize := 100
      webhookTimeout := 10.0
      notificationEnabled := false
      whatsappUrl := ""
      whatsappKey := ""
      telegramToken := ""
      telegramChat := ""
      noticeWebhookUrl := ""
      timezone := "UTC"
      logLevel := "INFO"
      host := ""
      port := 80 }
    .utc (.ofInstant (739687 * dayLength + minutes * minute)) (.ofInstant 0)

theorem World.quiet_fresh (minutes : Nat) : (World.quiet minutes).Fresh := ⟨rfl, rfl, rfl⟩

/-- A rule that always holds, stays silent for a quarter of an hour and does nothing. -/
def Definition.vent : Definition := { name := "vent", conditions := .all [] }

end Glasshouse
