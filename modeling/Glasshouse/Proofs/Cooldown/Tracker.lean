/-
Glasshouse.Proofs.Cooldown.Tracker — what holds of a tracker after any calls, whether or not they
succeed. A call either merges in times that can be compared with what is remembered, or fails
and leaves what it came to; no call but a round drops anything, and none moves a time back or
a count down (`Cooldown.Ahead`). Main statement: `Cooldown.tracker_lawful`.

The main statement has no side conditions. Times with an offset and times without one may be
mixed; comparing one with the other is what calls fail with. Where all have an offset none
fails, and the time that is left is told unless a span is too long.
-/
import Glasshouse.Proofs.Cooldown.Operations
import Glasshouse.Proofs.Store.Rows
import Glasshouse.Proofs.Basic.Table
import Mathlib.Data.List.Induction

namespace Glasshouse

open Calendar

/-- One time can be compared with another one and does not lie after it. -/
def Calendar.Moment.UpTo (a b : Moment) : Prop := a.after b = .ok false

namespace Calendar.Moment

variable {a b c : Moment}

theorem upTo_iff : a.UpTo b ↔ a.Alike b ∧ a.instant ≤ b.instant := by
  unfold UpTo
  rw [after_eq]
  by_cases h : a.Alike b
  · rw [if_pos h, Except.ok.injEq, decide_eq_false_iff_not, Int.not_lt]
    exact (and_iff_right h).symm
  · rw [if_neg h]
    exact iff_of_false (fun k => by cases k) fun k => h k.1

protected theorem UpTo.refl (a : Moment) : a.UpTo a := upTo_iff.2 ⟨rfl, Int.le_refl _⟩

protected theorem UpTo.trans (h : a.UpTo b) (k : b.UpTo c) : a.UpTo c := by
  rw [upTo_iff] at *
  exact ⟨h.1.trans k.1, Int.le_trans h.2 k.2⟩

end Calendar.Moment

namespace Cooldown

variable {t u v : Cooldown} {r : Rule} {rules : List Rule} {id : Int} {m now : Moment}

/-! ## What one call does -/

/-- A time can be compared with what is remembered about a rule. -/
def Takes (t : Cooldown) (id : Int) (m : Moment) : Prop :=
  ∀ c, t.last.get? id = some c → m.Alike c

/-- The record of a rule can be merged in. -/
def Accepts (t : Cooldown) (r : Rule) : Prop := ∀ m, r.lastTriggered = some m → t.Takes r.id m

/-- A tracker with nothing but the silence of a rule taken over. -/
def timed (t : Cooldown) (r : Rule) : Cooldown :=
  { t with minutes := t.minutes.put r.id r.cooldown }

theorem later_of_takes (h : t.Takes id m) :
    later (t.last.get? id) m = .ok (latest (t.last.get? id) m) := by
  unfold Takes at h
  cases hc : t.last.get? id with
  | none => rfl
  | some c =>
    rw [later, latest, Moment.after_eq, if_pos (h c hc)]
    by_cases hlt : c.instant < m.instant
    · rw [if_pos hlt, decide_eq_true hlt]
      rfl
    · rw [if_neg hlt, decide_eq_false hlt]
      rfl

theorem later_of_not_takes (h : ¬ t.Takes id m) :
    later (t.last.get? id) m = .error .mixedComparison := by
  unfold Takes at h
  cases hc : t.last.get? id with
  | none => exact absurd (fun c k => by rw [hc] at k; cases k) h
  | some c =>
    have apart : ¬ m.Alike c := fun k => h fun d hd => Option.some.inj (hc.symm.trans hd) ▸ k
    rw [later, Moment.after_eq, if_neg apart]
    rfl

/-- The record of a rule is merged in, or only its silence is taken over. -/
theorem sync_cases (t : Cooldown) (r : Rule) :
    t.Accepts r ∧ t.sync r = (.ok (), t.merge r)
      ∨ ¬ t.Accepts r ∧ t.sync r = (.error .mixedComparison, t.timed r) := by
  unfold Accepts sync merge timed
  cases hr : r.lastTriggered with
  | none => exact .inl ⟨fun _ h => (by cases h), rfl⟩
  | some m =>
    by_cases h : t.Takes r.id m
    · refine .inl ⟨fun n hn => Option.some.inj hn ▸ h, ?_⟩
      simp only [advance, later_of_takes h]
      rfl
    · refine .inr ⟨fun k => h (k m rfl), ?_⟩
      simp only [advance, show later (t.last.get? r.id) m = _ from later_of_not_takes h]
      rfl

theorem syncAll_singleton (t : Cooldown) (r : Rule) : t.syncAll [r] = t.sync r := by
  unfold syncAll
  rcases t.sync_cases r with ⟨_, h⟩ | ⟨_, h⟩ <;> rw [h]
  rfl

/-- A trigger is noted, or nothing is done. -/
theorem mark_cases (t : Cooldown) (id : Int) (now : Moment) :
    t.Takes id now ∧ t.mark id now
        = .ok ((latest (t.last.get? id) now, t.triggerCount id + 1), t.marked id now)
      ∨ ¬ t.Takes id now ∧ t.mark id now = .error .mixedComparison := by
  unfold mark
  by_cases h : t.Takes id now
  · rw [later_of_takes h]
    exact .inl ⟨h, rfl⟩
  · rw [later_of_not_takes h]
    exact .inr ⟨h, rfl⟩

/-! ## Only the rules of a round are remembered -/

theorem exists_rule (h : ¬ ∀ r ∈ rules, r.id ≠ id) : ∃ r ∈ rules, r.id = id := by
  simpa using h

theorem Counted.syncAll (ht : t.Counted) (rules : List Rule) : (t.syncAll rules).2.Counted := by
  induction rules generalizing t with
  | nil => exact ht
  | cons r rules ih =>
    unfold Cooldown.syncAll
    rcases t.sync_cases r with ⟨_, h⟩ | ⟨_, h⟩ <;> rw [h]
    · exact ih (ht.merge r)
    · exact ht

theorem Counted.refresh (ht : t.Counted) (rules : List Rule) : (t.refresh rules).2.Counted :=
  (forgetAll_counted ht _).syncAll rules

/-- A round leaves nothing about other rules, whether or not all of its own can be merged in. -/
theorem not_holds_refresh (ht : t.Counted) (h : ∀ r ∈ rules, r.id ≠ id) :
    ¬ (t.refresh rules).2.Holds id :=
  mt (syncAll_of_ne h (t.kept rules)).holds.1 (not_holds_kept ht h)

/-! ## Times go on and counts go up -/

/-- A tracker in which no time lies before that of another one, and no count below. -/
structure Ahead (t u : Cooldown) : Prop where
  last : ∀ id l, t.last.get? id = some l → ∃ l', u.last.get? id = some l' ∧ l.UpTo l'
  counts : ∀ id n, t.counts.get? id = some n → ∃ n', u.counts.get? id = some n' ∧ n ≤ n'

namespace Ahead

protected theorem refl (t : Cooldown) : Ahead t t :=
  ⟨fun _ l h => ⟨l, h, .refl l⟩, fun _ n h => ⟨n, h, Nat.le_refl n⟩⟩

protected theorem trans (h : Ahead t u) (k : Ahead u v) : Ahead t v where
  last id l hl := by
    obtain ⟨l', hl', hle⟩ := h.last id l hl
    obtain ⟨l'', hl'', hle'⟩ := k.last id l' hl'
    exact ⟨l'', hl'', hle.trans hle'⟩
  counts id n hn := by
    obtain ⟨n', hn', hle⟩ := h.counts id n hn
    obtain ⟨n'', hn'', hle'⟩ := k.counts id n' hn'
    exact ⟨n'', hn'', Nat.le_trans hle hle'⟩

theorem triggerCount (h : Ahead t u) (id : Int) : t.triggerCount id ≤ u.triggerCount id := by
  unfold Cooldown.triggerCount
  cases hn : t.counts.get? id with
  | none => exact Nat.zero_le _
  | some n =>
    obtain ⟨n', hn', hle⟩ := h.counts id n hn
    rw [hn']
    exact hle

end Ahead

theorem le_triggerCount {n : Nat} (h : t.counts.get? id = some n) : n ≤ t.triggerCount id := by
  rw [triggerCount, h]
  exact Nat.le_refl n

theorem upTo_latest (h : t.Takes id m) : m.UpTo (latest (t.last.get? id) m) ∧
    ∀ c, t.last.get? id = some c → c.UpTo (latest (t.last.get? id) m) := by
  unfold Takes at h
  cases hc : t.last.get? id with
  | none => exact ⟨.refl m, fun _ k => by cases k⟩
  | some c =>
    have alike := h c hc
    have reach {d : Moment} : d.UpTo (latest (some c) m) ↔
        d.Alike (latest (some c) m) ∧ d.instant ≤ (latest (some c) m).instant := Moment.upTo_iff
    refine ⟨reach.2 ⟨?_, le_latest ..⟩, fun d hd => ?_⟩
    · rcases latest_mem (some c) m with k | k
      · rw [k]
        rfl
      · exact Option.some.inj k ▸ alike
    · cases hd
      refine reach.2 ⟨?_, le_latest_of_some m⟩
      rcases latest_mem (some c) m with k | k
      · rw [k]
        exact alike.symm
      · rw [← Option.some.inj k]
        rfl

theorem ahead_merge (h : t.Accepts r) : Ahead t (t.merge r) where
  last id l hl := by
    by_cases hid : r.id = id
    · subst hid
      rw [merge_last]
      cases hr : r.lastTriggered with
      | none => exact ⟨l, hl, .refl l⟩
      | some m => exact ⟨_, rfl, (upTo_latest (h m hr)).2 l hl⟩
    · exact ⟨l, (merge_of_ne hid).last.trans hl, .refl l⟩
  counts id n hn := by
    by_cases hid : r.id = id
    · subst hid
      exact ⟨_, merge_counts t r, Nat.le_trans (le_triggerCount hn) (Nat.le_max_left ..)⟩
    · exact ⟨n, (merge_of_ne hid).counts.trans hn, Nat.le_refl n⟩

theorem ahead_timed (t : Cooldown) (r : Rule) : Ahead t (t.timed r) :=
  ⟨(Ahead.refl t).last, (Ahead.refl t).counts⟩

theorem ahead_syncAll (t : Cooldown) (rules : List Rule) : Ahead t (t.syncAll rules).2 := by
  induction rules generalizing t with
  | nil => exact .refl t
  | cons r rules ih =>
    unfold syncAll
    rcases t.sync_cases r with ⟨hr, h⟩ | ⟨_, h⟩ <;> rw [h]
    · exact (ahead_merge hr).trans (ih _)
    · exact ahead_timed t r

theorem ahead_marked (h : t.Takes id now) : Ahead t (t.marked id now) where
  last k l hl := by
    by_cases hid : id = k
    · subst hid
      exact ⟨_, marked_last t id now, (upTo_latest h).2 l hl⟩
    · exact ⟨l, (marked_of_ne now hid).last.trans hl, .refl l⟩
  counts k n hn := by
    by_cases hid : id = k
    · subst hid
      exact ⟨_, marked_counts t id now, Nat.le_succ_of_le (le_triggerCount hn)⟩
    · exact ⟨n, (marked_of_ne now hid).counts.trans hn, Nat.le_refl n⟩

/-! ## A second time -/

/-- A tracker that holds all that the record of a rule says, but for its silence. -/
structure Absorbs (t : Cooldown) (r : Rule) : Prop where
  last : ∀ m, r.lastTriggered = some m → ∃ l, t.last.get? r.id = some l ∧ m.UpTo l
  counts : ∃ n, t.counts.get? r.id = some n ∧ r.triggerCount ≤ n

theorem absorbs_merge (h : t.Accepts r) : (t.merge r).Absorbs r where
  last m hm := by
    rw [merge_last, hm]
    exact ⟨_, rfl, (upTo_latest (h m hm)).1⟩
  counts := ⟨_, merge_counts t r, Nat.le_max_right ..⟩

theorem Absorbs.ahead (h : t.Absorbs r) (k : Ahead t u) : u.Absorbs r where
  last m hm := by
    obtain ⟨l, hl, hle⟩ := h.last m hm
    obtain ⟨l', hl', hle'⟩ := k.last _ l hl
    exact ⟨l', hl', hle.trans hle'⟩
  counts := by
    obtain ⟨n, hn, hle⟩ := h.counts
    obtain ⟨n', hn', hle'⟩ := k.counts _ n hn
    exact ⟨n', hn', Nat.le_trans hle hle'⟩

/-- Where all that a record says is held, merging it in takes over nothing but its silence. -/
theorem Absorbs.sync (h : t.Absorbs r) : t.sync r = (.ok (), t.timed r) := by
  have accepted : t.Accepts r := fun m hm c hc => by
    obtain ⟨l, hl, hle⟩ := h.last m hm
    exact Option.some.inj (hl.symm.trans hc) ▸ (Moment.upTo_iff.1 hle).1
  have merged : t.merge r = t.timed r := by
    obtain ⟨n, hn, hle⟩ := h.counts
    have counts : t.counts.put r.id (max (t.triggerCount r.id) r.triggerCount) = t.counts := by
      rw [triggerCount, hn, Option.getD_some, Nat.max_eq_left hle]
      exact Table.put_self hn
    unfold merge timed
    rw [counts]
    cases hr : r.lastTriggered with
    | none => rfl
    | some m =>
      obtain ⟨l, hl, hle⟩ := h.last m hr
      have latest_eq : latest (t.last.get? r.id) m = l := by
        rw [hl, latest, if_neg (Int.not_lt.2 (Moment.upTo_iff.1 hle).2)]
      simp only [latest_eq, Table.put_self hl]
  rcases t.sync_cases r with ⟨_, k⟩ | ⟨no, _⟩
  · rw [k, merged]
  · exact absurd accepted no

/-- Records that were merged in are merged in a second time: the same one fails, and only
silences are taken over once more. -/
theorem syncAll_again (t : Cooldown) (rules : List Rule) :
    ∃ ps, (t.syncAll rules).2.minutes = Table.fill t.minutes ps ∧
      ∀ u : Cooldown, u.last = (t.syncAll rules).2.last → u.counts = (t.syncAll rules).2.counts →
        u.syncAll rules = ((t.syncAll rules).1,
          { (t.syncAll rules).2 with minutes := Table.fill u.minutes ps }) := by
  -- Silences are put in whether or not a record is taken, so `u` may differ from the end of
  -- the first pass in these, and only in these; the times and counts it holds are those of
  -- the end, by which every record that was taken is absorbed.
  induction rules generalizing t with
  | nil =>
    refine ⟨[], rfl, fun u hl hc => ?_⟩
    obtain ⟨last, counts, minutes⟩ := u
    cases hl
    cases hc
    rfl
  | cons r rules ih =>
    rcases t.sync_cases r with ⟨hr, h⟩ | ⟨hr, h⟩
    · obtain ⟨ps, hps, again⟩ := ih (t.merge r)
      have hall : t.syncAll (r :: rules) = (t.merge r).syncAll rules := by rw [syncAll, h]
      rw [hall]
      refine ⟨(r.id, r.cooldown) :: ps, hps, fun u hl hc => ?_⟩
      have absorbs : u.Absorbs r := by
        have held := (absorbs_merge hr).ahead (ahead_syncAll (t.merge r) rules)
        exact ⟨hl ▸ held.last, hc ▸ held.counts⟩
      rw [syncAll, absorbs.sync]
      exact again (u.timed r) hl hc
    · have hall : t.syncAll (r :: rules) = (.error .mixedComparison, t.timed r) := by
        rw [syncAll, h]
      rw [hall]
      refine ⟨[(r.id, r.cooldown)], rfl, fun u hl hc => ?_⟩
      have refused : ¬ u.Accepts r := fun k => hr fun m hm c hc' => k m hm c (hl ▸ hc')
      rcases u.sync_cases r with ⟨yes, _⟩ | ⟨_, k⟩
      · exact absurd yes refused
      · rw [syncAll, k]
        show (_, u.timed r) = _
        unfold timed
        rw [hl, hc]
        rfl

theorem syncAll_syncAll (t : Cooldown) (rules : List Rule) :
    (t.syncAll rules).2.syncAll rules = t.syncAll rules := by
  obtain ⟨ps, hps, again⟩ := t.syncAll_again rules
  rw [again _ rfl rfl, hps, Table.fill_fill, ← hps]

/-- A record merged in a second time changes nothing. -/
theorem sync_sync (t : Cooldown) (r : Rule) : (t.sync r).2.sync r = t.sync r := by
  simpa only [syncAll_singleton] using t.syncAll_syncAll [r]

theorem not_mem_known_refresh (h : ∀ r ∈ rules, r.id ≠ id) (t : Cooldown) :
    id ∉ (t.refresh rules).2.known := by
  have same := (syncAll_of_ne h (t.kept rules)).trans (kept_of_not_mem h t)
  refine mt same.mem_known.1 ?_
  split
  · rw [mem_known]
    exact fun k => k.elim (fun k => by cases k) fun k => by cases k
  · assumption

theorem kept_of_known (h : ∀ id ∈ t.known, ∃ r ∈ rules, r.id = id) : t.kept rules = t := by
  have none : t.known.filter (fun id => !(rules.any fun r => r.id == id)) = [] := by
    refine List.filter_eq_nil_iff.2 fun id hid hgone => ?_
    rw [Bool.not_eq_true', List.any_eq_false] at hgone
    obtain ⟨r, hr, heq⟩ := h id hid
    exact hgone r hr (beq_iff_eq.2 heq)
  rw [kept, none]
  rfl

/-- A round of the same rules a second time changes nothing. -/
theorem refresh_refresh (t : Cooldown) (rules : List Rule) :
    (t.refresh rules).2.refresh rules = t.refresh rules := by
  -- The second round forgets nothing, as all that is known is of the first.
  have known : ∀ id ∈ (t.refresh rules).2.known, ∃ r ∈ rules, r.id = id := fun _ hid =>
    exists_rule fun other => not_mem_known_refresh other t hid
  calc (t.refresh rules).2.refresh rules
      = ((t.refresh rules).2.kept rules).syncAll rules := rfl
    _ = ((t.kept rules).syncAll rules).2.syncAll rules := by rw [kept_of_known known]; rfl
    _ = t.refresh rules := (t.kept rules).syncAll_syncAll rules

/-! ## The latest of the times merged in -/

/-- The times that the records of rules give for one of them. -/
def timesOf (id : Int) (rules : List Rule) : List Moment :=
  rules.filterMap fun r => if r.id = id then r.lastTriggered else none

theorem timesOf_cons (id : Int) (r : Rule) (rules : List Rule) :
    timesOf id (r :: rules) = timesOf id [r] ++ timesOf id rules :=
  List.filterMap_append (l := [r])

/-- The rules of a list whose records are merged in: those before the first that fails. -/
def merged (t : Cooldown) : List Rule → List Rule
  | [] => []
  | r :: rules =>
    match t.sync r with
    | (.ok (), u) => r :: u.merged rules
    | (.error _, _) => []

/-- What is remembered is the greatest of some times, and nothing if there are none. -/
def Latest (times : List Moment) : Option Moment → Prop
  | none => times = []
  | some l => l ∈ times ∧ ∀ m ∈ times, m.UpTo l

theorem Latest.snoc {times : List Moment} (h : Latest times (t.last.get? id))
    (takes : t.Takes id m) : Latest (times ++ [m]) (some (latest (t.last.get? id) m)) := by
  obtain ⟨hm, hlast⟩ := upTo_latest takes
  cases hc : t.last.get? id with
  | none =>
    rw [hc] at h
    rw [show times = [] from h]
    exact ⟨List.mem_singleton_self m, fun n hn => List.mem_singleton.1 hn ▸ .refl m⟩
  | some c =>
    rw [hc] at h hm hlast
    have hmem := latest_mem (some c) m
    refine ⟨?_, fun n hn => ?_⟩
    · rcases hmem with k | k
      · rw [k]
        exact List.mem_append_right _ (List.mem_singleton_self m)
      · exact List.mem_append_left _ (Option.some.inj k ▸ h.1)
    · rcases List.mem_append.1 hn with hn | hn
      · exact (h.2 n hn).trans (hlast c rfl)
      · exact List.mem_singleton.1 hn ▸ hm

theorem Latest.merge {times : List Moment} (h : Latest times (t.last.get? id))
    (accepts : t.Accepts r) :
    Latest (times ++ timesOf id [r]) ((t.merge r).last.get? id) := by
  by_cases hid : r.id = id
  · subst hid
    rw [merge_last]
    cases hr : r.lastTriggered with
    | none => simpa [timesOf, hr] using h
    | some m => simpa [timesOf, hr] using h.snoc (accepts m hr)
  · rw [(merge_of_ne hid).last]
    simpa [timesOf, hid] using h

theorem Latest.syncAll {times : List Moment} (h : Latest times (t.last.get? id))
    (rules : List Rule) :
    Latest (times ++ timesOf id (t.merged rules)) ((t.syncAll rules).2.last.get? id) := by
  induction rules generalizing t times with
  | nil =>
    show Latest (times ++ []) (t.last.get? id)
    rwa [List.append_nil]
  | cons r rules ih =>
    unfold merged Cooldown.syncAll
    rcases t.sync_cases r with ⟨hr, k⟩ | ⟨_, k⟩ <;> rw [k]
    · have next := ih (h.merge hr)
      rwa [List.append_assoc, ← timesOf_cons] at next
    · show Latest (times ++ []) (t.last.get? id)
      rwa [List.append_nil]

/-! ## Any calls -/

/-- A call that may change what is remembered. -/
inductive Call where
  | refresh (rules : List Rule)
  | sync (r : Rule)
  | mark (id : Int) (now : Moment)

namespace Call

/-- A round that a rule is not of, so that it is forgotten. -/
def Drops (id : Int) : Call → Prop
  | .refresh rules => ∀ r ∈ rules, r.id ≠ id
  | .sync _ => False
  | .mark .. => False

instance (id : Int) : (c : Call) → Decidable (c.Drops id)
  | .refresh rules => inferInstanceAs (Decidable (∀ r ∈ rules, r.id ≠ id))
  | .sync _ => inferInstanceAs (Decidable False)
  | .mark .. => inferInstanceAs (Decidable False)

/-- The times that a call gives for a rule. -/
def times (id : Int) : Call → List Moment
  | .refresh rules => timesOf id rules
  | .sync r => timesOf id [r]
  | .mark k now => if k = id then [now] else []

/-- A call all of whose times have an offset. -/
def Aware : Call → Prop
  | .refresh rules => ∀ r ∈ rules, r.Aware
  | .sync r => r.Aware
  | .mark _ now => now.Aware

end Call

/-- What comes of a call, and what is remembered after it. -/
def call (t : Cooldown) : Call → Except Fault Unit × Cooldown
  | .refresh rules => t.refresh rules
  | .sync r => t.sync r
  | .mark id now =>
    match t.mark id now with
    | .ok (_, u) => (.ok (), u)
    | .error e => (.error e, t)

/-- The times of a call that are merged in: those before the first that cannot be compared. -/
def taken (t : Cooldown) (id : Int) : Call → List Moment
  | .refresh rules => timesOf id ((t.kept rules).merged rules)
  | .sync r => timesOf id (t.merged [r])
  | .mark k now =>
    match t.mark k now with
    | .ok _ => if k = id then [now] else []
    | .error _ => []

/-- The tracker that calls lead to, beginning with an empty one. -/
def run (calls : List Call) : Cooldown := calls.foldl (fun t c => (t.call c).2) {}

/-- The times merged in for a rule since it was forgotten last. -/
def given (id : Int) (calls : List Call) : List Moment :=
  (calls.foldl (fun (s : Cooldown × List Moment) c =>
    ((s.1.call c).2, (if c.Drops id then [] else s.2) ++ s.1.taken id c)) ({}, [])).2

/-- The times that calls gave for a rule since it was forgotten last. -/
def offered (id : Int) (calls : List Call) : List Moment :=
  calls.foldl (fun times c => (if c.Drops id then [] else times) ++ c.times id) []

/-- Calls none of which fails. -/
def Smooth (calls : List Call) : Prop :=
  ∀ before c, before ++ [c] <+: calls → ((run before).call c).1 = .ok ()

variable {c : Call} {calls more : List Call}

theorem run_append (calls : List Call) (c : Call) :
    run (calls ++ [c]) = ((run calls).call c).2 := by
  unfold run
  rw [List.foldl_append]
  rfl

theorem given_append (id : Int) (calls : List Call) (c : Call) : given id (calls ++ [c])
    = (if c.Drops id then [] else given id calls) ++ (run calls).taken id c := by
  have tracked (t : Cooldown) (times : List Moment) :
      (calls.foldl (fun (s : Cooldown × List Moment) c =>
        ((s.1.call c).2, (if c.Drops id then [] else s.2) ++ s.1.taken id c)) (t, times)).1
      = calls.foldl (fun t c => (t.call c).2) t := by
    induction calls generalizing t times with
    | nil => rfl
    | cons b calls ih => exact ih ..
  unfold given run
  rw [List.foldl_append, ← tracked {} []]
  rfl

theorem offered_append (id : Int) (calls : List Call) (c : Call) : offered id (calls ++ [c])
    = (if c.Drops id then [] else offered id calls) ++ c.times id := by
  unfold offered
  rw [List.foldl_append]
  rfl

theorem call_mark_cases (t : Cooldown) (id : Int) (now : Moment) :
    t.Takes id now ∧ t.call (.mark id now) = (.ok (), t.marked id now)
        ∧ (∀ k, t.taken k (.mark id now) = if id = k then [now] else [])
      ∨ ¬ t.Takes id now ∧ t.call (.mark id now) = (.error .mixedComparison, t)
        ∧ ∀ k, t.taken k (.mark id now) = [] := by
  rcases t.mark_cases id now with ⟨h, k⟩ | ⟨h, k⟩
  · exact .inl ⟨h, by simp only [call, k], fun _ => by simp only [taken, k]⟩
  · exact .inr ⟨h, by simp only [call, k], fun _ => by simp only [taken, k]⟩

/-! ### One call -/

theorem Counted.call (ht : t.Counted) (c : Call) : (t.call c).2.Counted := by
  cases c with
  | refresh rules => exact ht.refresh rules
  | sync r =>
    have h := ht.syncAll [r]
    rwa [syncAll_singleton] at h
  | mark id now =>
    rcases t.call_mark_cases id now with ⟨_, h, _⟩ | ⟨_, h, _⟩ <;> rw [h]
    · exact ht.marked id now
    · exact ht

/-- After a call the greatest of the times so far and its own is remembered. -/
theorem Latest.call (ht : t.Counted) {times : List Moment} (h : Latest times (t.last.get? id))
    (c : Call) : Latest ((if c.Drops id then [] else times) ++ t.taken id c)
      ((t.call c).2.last.get? id) := by
  cases c with
  | refresh rules =>
    -- What is forgotten starts anew with the times of the round, which has none for it.
    refine Latest.syncAll (t := t.kept rules) ?_ rules
    by_cases hd : (Call.refresh rules).Drops id
    · rw [if_pos hd, (sameAt_empty_iff.2 (not_holds_kept ht hd)).last]
      rfl
    · obtain ⟨r, hr, rfl⟩ := exists_rule hd
      rw [if_neg hd]
      exact (forgetAll_of_mem hr t).last ▸ h
  | sync r =>
    show Latest (times ++ _) _
    have merged := h.syncAll [r]
    rwa [syncAll_singleton] at merged
  | mark k now =>
    show Latest (times ++ _) _
    rcases t.call_mark_cases k now with ⟨takes, hcall, htaken⟩ | ⟨_, hcall, htaken⟩
    · rw [hcall, htaken]
      by_cases hid : k = id
      · subst hid
        rw [if_pos rfl, marked_last]
        exact h.snoc takes
      · rw [if_neg hid, List.append_nil, (marked_of_ne now hid).last]
        exact h
    · rw [hcall, htaken, List.append_nil]
      exact h

/-- A call that does not drop a rule does not lower its count. -/
theorem count_call (h : ¬ c.Drops id) : t.triggerCount id ≤ (t.call c).2.triggerCount id := by
  cases c with
  | refresh rules =>
    obtain ⟨r, hr, rfl⟩ := exists_rule h
    have kept : (t.kept rules).triggerCount r.id = t.triggerCount r.id :=
      (forgetAll_of_mem hr t).triggerCount
    rw [← kept]
    exact (ahead_syncAll (t.kept rules) rules).triggerCount r.id
  | sync r =>
    have ahead := ahead_syncAll t [r]
    rw [syncAll_singleton] at ahead
    exact ahead.triggerCount id
  | mark k now =>
    rcases t.call_mark_cases k now with ⟨takes, h, _⟩ | ⟨_, h, _⟩
    · rw [h]
      exact (ahead_marked takes).triggerCount id
    · exact Nat.le_of_eq (by rw [h])

/-- A mark adds one to the count of its rule, and gives the time and the count remembered. -/
theorem mark_counts {l : Moment} {n : Nat} (h : t.mark id now = .ok ((l, n), u)) :
    n = t.triggerCount id + 1 ∧ u.triggerCount id = n ∧ u.lastTriggered id = some l := by
  rcases t.mark_cases id now with ⟨_, k⟩ | ⟨_, k⟩
  · cases h.symm.trans k
    refine ⟨rfl, ?_, marked_last t id now⟩
    rw [triggerCount, marked_counts]
    rfl
  · cases h.symm.trans k

/-! ### Calls that do not fail -/

theorem merged_of_ok (h : (t.syncAll rules).1 = .ok ()) : t.merged rules = rules := by
  induction rules generalizing t with
  | nil => rfl
  | cons r rules ih =>
    unfold merged
    unfold syncAll at h
    rcases t.sync_cases r with ⟨_, k⟩ | ⟨_, k⟩ <;> rw [k] at h ⊢
    · exact congrArg (r :: ·) (ih h)
    · cases h

theorem taken_of_ok (h : (t.call c).1 = .ok ()) (id : Int) : t.taken id c = c.times id := by
  cases c with
  | refresh rules => exact congrArg (timesOf id) (merged_of_ok (t := t.kept rules) h)
  | sync r =>
    have done : (t.syncAll [r]).1 = .ok () := by rwa [syncAll_singleton]
    exact congrArg (timesOf id) (merged_of_ok done)
  | mark k now =>
    rcases t.call_mark_cases k now with ⟨_, _, htaken⟩ | ⟨_, hcall, _⟩
    · exact htaken id
    · rw [hcall] at h
      cases h

theorem smooth_append : Smooth (calls ++ [c]) ↔ Smooth calls ∧ ((run calls).call c).1 = .ok () := by
  constructor
  · intro h
    exact ⟨fun before b hb => h before b (hb.trans (List.prefix_append ..)),
      h calls c (List.prefix_refl _)⟩
  · rintro ⟨h, hc⟩ before b hb
    rcases List.prefix_concat_iff.1 hb with heq | hb
    · obtain ⟨rfl, hcb⟩ := List.append_inj' heq rfl
      cases hcb
      exact hc
    · exact h before b hb

theorem Aware.call (ht : t.Aware) (hc : c.Aware) :
    (t.call c).1 = .ok () ∧ (t.call c).2.Aware := by
  cases c with
  | refresh rules =>
    rw [show t.call (.refresh rules) = _ from refresh_of_aware ht hc]
    exact ⟨rfl, ht.refreshed hc⟩
  | sync r =>
    rw [show t.call (.sync r) = _ from sync_of_aware ht hc]
    exact ⟨rfl, ht.merge hc⟩
  | mark id now =>
    rw [call, mark_of_aware ht id hc]
    exact ⟨rfl, ht.marked id hc⟩

/-! ### All calls -/

theorem counted_run (calls : List Call) : (run calls).Counted := by
  induction calls using List.reverseRecOn with
  | nil => exact fun _ h => by cases h
  | append_singleton calls c ih =>
    rw [run_append]
    exact ih.call c

theorem latest_run (calls : List Call) (id : Int) :
    Latest (given id calls) ((run calls).lastTriggered id) := by
  induction calls using List.reverseRecOn with
  | nil => rfl
  | append_singleton calls c ih =>
    rw [given_append, run_append]
    exact Latest.call (counted_run calls) ih c

theorem count_run (h : ∀ c ∈ more, ¬ c.Drops id) (calls : List Call) :
    (run calls).triggerCount id ≤ (run (calls ++ more)).triggerCount id := by
  induction more using List.reverseRecOn with
  | nil => exact Nat.le_of_eq (by rw [List.append_nil])
  | append_singleton more c ih =>
    obtain ⟨hmore, hc⟩ := List.forall_mem_append.1 h
    rw [← List.append_assoc, run_append]
    exact Nat.le_trans (ih hmore) (count_call (hc c (List.mem_singleton_self c)))

theorem given_of_smooth (h : Smooth calls) (id : Int) : given id calls = offered id calls := by
  induction calls using List.reverseRecOn with
  | nil => rfl
  | append_singleton calls c ih =>
    obtain ⟨hcalls, hc⟩ := smooth_append.1 h
    rw [given_append, offered_append, ih hcalls, taken_of_ok hc]

theorem smooth_of_aware (h : ∀ c ∈ calls, c.Aware) : Smooth calls ∧ (run calls).Aware := by
  induction calls using List.reverseRecOn with
  | nil =>
    refine ⟨fun before c hb => ?_, fun _ _ k => by cases k⟩
    cases List.append_eq_nil_iff.1 (List.prefix_nil.1 hb) |>.2
  | append_singleton calls c ih =>
    obtain ⟨hcalls, hc⟩ := List.forall_mem_append.1 h
    obtain ⟨hsmooth, haware⟩ := ih hcalls
    obtain ⟨hok, hnext⟩ := haware.call (List.forall_mem_singleton.1 hc)
    rw [smooth_append, run_append]
    exact ⟨⟨hsmooth, hok⟩, hnext⟩

/-! ## The time that is left -/

/-- The time that is left decides whether a rule may fire some time later. -/
theorem eligible_plus {d left : Span} {later : Moment} (hd : 0 ≤ d)
    (hlater : now.plus d = .ok later) (hleft : t.remaining id now = .ok left) :
    t.eligible id later = .ok (decide (left ≤ d)) := by
  unfold remaining at hleft
  unfold eligible
  cases hl : t.last.get? id with
  | none =>
    rw [hl] at hleft
    cases hleft
    exact congrArg Except.ok (decide_eq_true hd).symm
  | some l =>
    rw [hl] at hleft
    obtain ⟨span, hspan, hleft⟩ := bind_eq_ok.1 hleft
    obtain ⟨since, hsince, hleft⟩ := bind_eq_ok.1 hleft
    obtain ⟨rest, hrest, hleft⟩ := bind_eq_ok.1 hleft
    cases hleft
    have rest_eq : rest = span - since := (Span.check_eq_ok.1 hrest).2
    have since_eq : later.minus l = .ok (since + d) := Moment.minus_of_plus hlater hsince
    refine bind_eq_ok.2 ⟨_, since_eq, bind_eq_ok.2 ⟨span, hspan, ?_⟩⟩
    refine congrArg Except.ok (decide_eq_decide.2 ?_)
    have bound (a b c : Int) (h : 0 ≤ c) : a ≤ b + c ↔ max (a - b) 0 ≤ c := by omega
    rw [rest_eq]
    exact bound span since d hd

/-- The silence of a rule. -/
def quiet (t : Cooldown) (id : Int) : Int := (t.minutes.get? id).getD 0 * minute

/-- The silence of a rule less the time since its last trigger, and nothing if that is less. -/
def rest (t : Cooldown) (id : Int) (now : Moment) : Int :=
  match t.last.get? id with
  | none => 0
  | some l => max (t.quiet id - (now.instant - l.instant)) 0

/-- The silence of a rule can be counted, and so can its difference to the time since the last
trigger. -/
def Tellable (t : Cooldown) (id : Int) (now : Moment) : Prop :=
  ∀ l, t.last.get? id = some l →
    Span.Countable (t.quiet id) ∧ Span.Countable (t.quiet id - (now.instant - l.instant))

/-- Where all times have an offset, the time that is left is told unless a span is too long. -/
theorem remaining_eq_ok (ht : t.Aware) (hn : now.Aware) {left : Span} :
    t.remaining id now = .ok left ↔ t.Tellable id now ∧ left = t.rest id now := by
  unfold remaining Tellable rest
  cases hl : t.last.get? id with
  | none =>
    rw [Except.ok.injEq]
    exact ⟨fun h => ⟨fun _ k => (by cases k), h.symm⟩, fun h => h.2.symm⟩
  | some l =>
    have since := Moment.minus_of_aware hn (ht id l hl)
    constructor
    · intro h
      obtain ⟨span, hspan, h⟩ := bind_eq_ok.1 h
      obtain ⟨_, hsince, h⟩ := bind_eq_ok.1 h
      obtain ⟨_, hrest, h⟩ := bind_eq_ok.1 h
      cases since.symm.trans hsince
      obtain ⟨short, rfl⟩ := Span.ofMinutes?_eq_ok_iff.1 hspan
      obtain ⟨near, rfl⟩ := Span.check_eq_ok.1 hrest
      exact ⟨fun _ k => Option.some.inj k ▸ ⟨short, near⟩, (Except.ok.inj h).symm⟩
    · rintro ⟨countable, rfl⟩
      obtain ⟨short, near⟩ := countable l rfl
      have span : t.silence id = .ok (t.quiet id) := Span.ofMinutes?_eq_ok_iff.2 ⟨short, rfl⟩
      exact bind_eq_ok.2 ⟨_, span, bind_eq_ok.2 ⟨_, since, bind_eq_ok.2
        ⟨_, Span.check_eq_ok.2 ⟨near, rfl⟩, rfl⟩⟩⟩

/-! ## What holds of every tracker -/

/-- What holds of the tracker that calls lead to. -/
structure Lawful (calls : List Call) : Prop where
  /-- After a round something is held about its own rules only. -/
  round : ∀ rules id, ((run calls).refresh rules).2.Holds id → ∃ r ∈ rules, r.id = id
  /-- The greatest of the times merged in for a rule since it was dropped is remembered; where
  no call fails, these are all that the calls gave. -/
  last : ∀ id, Latest (given id calls) ((run calls).lastTriggered id) ∧
    (Smooth calls → given id calls = offered id calls)
  /-- The count of a rule that is not dropped does not go down. -/
  count : ∀ id more, (∀ c ∈ more, ¬ c.Drops id) →
    (run calls).triggerCount id ≤ (run (calls ++ more)).triggerCount id
  /-- A mark adds one to the count of its rule. -/
  mark : ∀ id now l n u, (run calls).mark id now = .ok ((l, n), u) →
    n = (run calls).triggerCount id + 1 ∧ u.triggerCount id = n ∧ u.lastTriggered id = some l
  /-- The same record a second time changes nothing. -/
  sync : ∀ r, ((run calls).sync r).2.sync r = (run calls).sync r
  /-- The same round a second time changes nothing. -/
  refresh : ∀ rules, ((run calls).refresh rules).2.refresh rules = (run calls).refresh rules
  /-- A rule may fire some time later exactly if no more than that is left of its silence. -/
  eligible : ∀ id now d later left, 0 ≤ d → Moment.plus now d = .ok later →
    (run calls).remaining id now = .ok left →
    (run calls).eligible id later = .ok (decide (left ≤ d))
  /-- Where all times have an offset, no call fails, and the time that is left is told unless a
  span is too long. -/
  aware : (∀ c ∈ calls, c.Aware) → Smooth calls ∧
    ∀ id now left, now.Aware → ((run calls).remaining id now = .ok left ↔
      (run calls).Tellable id now ∧ left = (run calls).rest id now)

/-- The laws hold after any calls: in any order, with times in any order, and also where some
of the times have an offset and others have none. -/
theorem tracker_lawful (calls : List Call) : Lawful calls where
  round _ _ h := exists_rule fun other => not_holds_refresh (counted_run calls) other h
  last id := ⟨latest_run calls id, fun h => given_of_smooth h id⟩
  count _ _ h := count_run h calls
  mark _ _ _ _ _ := mark_counts
  sync := (run calls).sync_sync
  refresh := (run calls).refresh_refresh
  eligible _ _ _ _ _ := eligible_plus
  aware h := ⟨(smooth_of_aware h).1, fun _ _ _ hn => remaining_eq_ok (smooth_of_aware h).2 hn⟩

/-- A rule that stays silent for a quarter of an hour, as a record with a last trigger has it. -/
def record (last : Option Moment) : Rule where
  name := "vent"
  conditions := .all []
  id := 1
  lastTriggered := last

/-- A round, and a mark at the tenth hour. -/
def fired : List Call := [.refresh [record none], .mark 1 (.ofInstant (600 * minute))]

/-- A later round whose record is an hour old. -/
def outdated : Call := .refresh [record (some (.ofInstant (540 * minute)))]

/-- An old record moves neither the time nor the count back: ten minutes after the mark five are
left, and the rule may fire as these are over and not a second before. -/
theorem tracker_lawful_outdated :
    Smooth (fired ++ [outdated]) ∧
      Latest [.ofInstant (600 * minute), .ofInstant (540 * minute)]
        ((run (fired ++ [outdated])).lastTriggered 1) ∧
      1 ≤ (run (fired ++ [outdated])).triggerCount 1 ∧
      (run (fired ++ [outdated])).eligible 1 (.ofInstant (615 * minute)) = .ok true ∧
      (run (fired ++ [outdated])).eligible 1 (.ofInstant (615 * minute - second)) = .ok false := by
  have laws := tracker_lawful (fired ++ [outdated])
  have aware : ∀ c ∈ fired ++ [outdated], c.Aware := by
    simp [fired, outdated, record, Call.Aware, Rule.Aware, Moment.Aware, Moment.ofInstant]
  have smooth := (laws.aware aware).1
  have times : offered 1 (fired ++ [outdated])
      = [.ofInstant (600 * minute), .ofInstant (540 * minute)] := by rfl
  have tellable : (run (fired ++ [outdated])).Tellable 1 (.ofInstant (610 * minute)) := by
    rintro l ⟨⟩
    decide
  have left : (run (fired ++ [outdated])).remaining 1 (.ofInstant (610 * minute))
      = .ok (5 * minute) :=
    ((laws.aware aware).2 1 (.ofInstant (610 * minute)) _ rfl).2 ⟨tellable, by decide⟩
  refine ⟨smooth, ?_, ?_, ?_, ?_⟩
  · rw [← times, ← (laws.last 1).2 smooth]
    exact (laws.last 1).1
  · exact (tracker_lawful fired).count 1 [outdated] (List.forall_mem_singleton.2 (by decide))
  · exact laws.eligible 1 (.ofInstant (610 * minute)) (5 * minute) _ _ (by decide) rfl left
  · exact laws.eligible 1 (.ofInstant (610 * minute)) (5 * minute - second) _ _ (by decide) rfl left

end Cooldown
end Glasshouse
