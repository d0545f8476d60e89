/-
Glasshouse.Proofs.Condition.Snapshot — what a snapshot of a tree contains. The questions
of a tree are those of its leaves, each once and ordered by first occurrence
(`Condition.queries_order`). A capture asks them in this order and no others,
whatever the answers are (`Condition.capture_noted`), and the question of every
leaf is found among the answers, also where the leaf is later skipped.
-/
import Glasshouse.Snapshot
import Glasshouse.Proofs.Store.Rows
import Mathlib.Data.List.Basic

namespace Glasshouse

open Calendar

/-! ## The questions of a tree -/

section Order

variable {α : Type} [DecidableEq α]

/-- Dropping other members keeps the order of first occurrences. -/
theorem idxOf_lt_of_filter {f : α → Bool} {p q : α} (hp : f p = true) (hq : f q = true)
    {l : List α} (h : (l.filter f).idxOf p < (l.filter f).idxOf q) : l.idxOf p < l.idxOf q := by
  induction l with
  | nil => exact h
  | cons x l ih =>
    by_cases hx : f x = true
    · rw [List.filter_cons_of_pos hx] at h
      by_cases hxq : x = q
      · subst hxq
        simp at h
      · by_cases hxp : x = p
        · subst hxp
          rw [List.idxOf_cons_self, List.idxOf_cons_ne _ hxq]
          exact Nat.succ_pos _
        · rw [List.idxOf_cons_ne _ hxp, List.idxOf_cons_ne _ hxq] at h ⊢
          exact Nat.succ_lt_succ (ih (Nat.lt_of_succ_lt_succ h))
    · rw [List.filter_cons_of_neg hx] at h
      have hxp : x ≠ p := fun e => hx (e ▸ hp)
      have hxq : x ≠ q := fun e => hx (e ▸ hq)
      rw [List.idxOf_cons_ne _ hxp, List.idxOf_cons_ne _ hxq]
      exact Nat.succ_lt_succ (ih h)

/-- Without its repetitions a list is ordered by first occurrence. -/
theorem eraseDups_order (l : List α) :
    l.eraseDups.Pairwise fun p q => l.idxOf p < l.idxOf q := by
  -- each head takes all its further occurrences away, so the length carries the induction
  induction hn : l.length using Nat.strongRecOn generalizing l with
  | ind n ih =>
    cases l with
    | nil => simp
    | cons x l =>
      rw [List.eraseDups_cons, List.pairwise_cons]
      have hne : ∀ q ∈ (l.filter fun y => !y == x).eraseDups, x ≠ q := by
        intro q hq e
        subst e
        simp at hq
      refine ⟨fun q hq => ?_, ?_⟩
      · rw [List.idxOf_cons_self, List.idxOf_cons_ne _ (hne q hq)]
        exact Nat.succ_pos _
      · have hlt : (l.filter fun y => !y == x).length < n :=
          hn ▸ Nat.lt_succ_of_le (List.length_filter_le _ _)
        refine (ih _ hlt _ rfl).imp_of_mem fun {p q} hp hq h => ?_
        rw [List.idxOf_cons_ne _ (hne p hp), List.idxOf_cons_ne _ (hne q hq)]
        refine Nat.succ_lt_succ (idxOf_lt_of_filter ?_ ?_ h)
        · simpa using fun e => hne p hp e.symm
        · simpa using fun e => hne q hq e.symm

end Order

namespace Condition

/-- The questions that the leaves of a tree ask, with repetitions. -/
def asked (c : Condition) : List Query := c.leaves.filterMap Leaf.query?

/-- No question is repeated, and they are ordered by first occurrence. -/
theorem queries_order (c : Condition) :
    c.queries.Pairwise fun p q => c.asked.idxOf p < c.asked.idxOf q :=
  eraseDups_order _

end Condition

/-! ## Asking -/

/-- Computations that note which questions they ask. -/
abbrev Noting := ExceptT Fault (StateM (List Query))

/-- A computation performed after some questions; gives the questions asked then. -/
def Noting.perform {α : Type} (x : Noting α) (log : List Query) : Except Fault α × List Query :=
  (StateT.run x.run log).run

/-- A question with a fixed answer, noted. -/
def Query.noted (answer : (q : Query) → Except Fault q.Answer) (q : Query) : Noting q.Answer :=
  ExceptT.mk fun log => (answer q, log ++ [q])

namespace Noting

variable {α β : Type}

@[simp] theorem perform_noted (answer : (q : Query) → Except Fault q.Answer) (q : Query)
    (log : List Query) : (q.noted answer).perform log = (answer q, log ++ [q]) := rfl

theorem perform_bind (x : Noting α) (f : α → Noting β) (log : List Query) :
    (x >>= f).perform log = match x.perform log with
      | (.ok a, log) => (f a).perform log
      | (.error e, log) => (.error e, log) := by
  show (ExceptT.bindCont f (x log).1 (x log).2) = _
  rcases h : x log with ⟨_ | a, log'⟩
  · simp only [perform, StateT.run, ExceptT.run, Id.run, h]
    rfl
  · simp only [perform, StateT.run, ExceptT.run, Id.run, h]
    rfl

end Noting

namespace Snapshot

variable {answer : (q : Query) → Except Fault q.Answer}

/-- Questions are asked in turn, up to the first that has no answer. -/
theorem gather_noted (answer : (q : Query) → Except Fault q.Answer) (qs log : List Query) :
    ∃ done, (gather (Query.noted answer) qs).perform log = (gather answer qs, log ++ done) ∧
      done <+: qs ∧ ∀ found, gather answer qs = .ok found → done = qs := by
  induction qs generalizing log with
  | nil => exact ⟨[], by rw [List.append_nil]; rfl, List.nil_prefix, fun _ _ => rfl⟩
  | cons q qs ih =>
    rw [gather, gather, Noting.perform_bind, Noting.perform_noted]
    cases answer q with
    | error e => exact ⟨[q], rfl, ⟨qs, rfl⟩, fun f hf => by cases hf⟩
    | ok a =>
      obtain ⟨done, hrun, hpre, hdone⟩ := ih (log ++ [q])
      refine ⟨q :: done, ?_, List.cons_prefix_cons.2 ⟨rfl, hpre⟩, fun found hf => ?_⟩
      · simp only [Noting.perform_bind, hrun, List.append_assoc, List.singleton_append]
        cases gather answer qs with
        | error e => rfl
        | ok rest => rfl
      · obtain ⟨_, _, hf⟩ := bind_eq_ok.1 hf
        obtain ⟨rest, hrest, -⟩ := bind_eq_ok.1 hf
        rw [hdone rest hrest]

/-- What was gathered are the answers to the questions. -/
theorem of_gather {qs : List Query} {found : List Answered} (h : gather answer qs = .ok found) :
    found.map Sigma.fst = qs ∧ ∀ p ∈ found, answer p.1 = .ok p.2 := by
  induction qs generalizing found with
  | nil =>
    cases h
    exact ⟨rfl, by simp⟩
  | cons q qs ih =>
    obtain ⟨a, ha, hrest⟩ := bind_eq_ok.1 h
    obtain ⟨rest, hr, hf⟩ := bind_eq_ok.1 hrest
    cases hf
    obtain ⟨hfst, hsnd⟩ := ih hr
    exact ⟨congrArg (q :: ·) hfst, List.forall_mem_cons.2 ⟨ha, hsnd⟩⟩

/-- Questions that all have an answer are gathered. -/
theorem gather_of_answered {qs : List Query} (h : ∀ q ∈ qs, ∃ a, answer q = .ok a) :
    ∃ found, gather answer qs = .ok found := by
  induction qs with
  | nil => exact ⟨[], rfl⟩
  | cons q qs ih =>
    obtain ⟨⟨a, ha⟩, hqs⟩ := List.forall_mem_cons.1 h
    obtain ⟨rest, hrest⟩ := ih hqs
    exact ⟨⟨q, a⟩ :: rest, bind_eq_ok.2 ⟨a, ha, bind_eq_ok.2 ⟨rest, hrest, rfl⟩⟩⟩

/-- A question without an answer stops the gathering, with the one fault that there is. -/
theorem gather_of_unanswered {qs : List Query} {e : Fault}
    (only : ∀ q ∈ qs, ∀ x, answer q = .error x → x = e)
    (h : ∃ q ∈ qs, answer q = .error e) : gather answer qs = .error e := by
  induction qs with
  | nil => simp at h
  | cons q qs ih =>
    obtain ⟨hq, hqs⟩ := List.forall_mem_cons.1 only
    unfold gather
    cases ha : answer q with
    | error x =>
      rw [hq x ha]
      rfl
    | ok a =>
      obtain ⟨p, hp, he⟩ := h
      rcases List.mem_cons.1 hp with rfl | hp
      · rw [ha] at he
        cases he
      · rw [ih hqs ⟨p, hp, he⟩]
        rfl

/-- A question that was answered is found. -/
theorem find?_of_mem {q : Query} {found : List Answered} (h : q ∈ found.map Sigma.fst) :
    ∃ a, find? q found = some a ∧ ⟨q, a⟩ ∈ found := by
  induction found with
  | nil => simp at h
  | cons p found ih =>
    obtain ⟨p, a⟩ := p
    unfold find?
    by_cases hp : p = q
    · subst hp
      exact ⟨a, dif_pos rfl, List.mem_cons_self⟩
    · rw [dif_neg hp]
      have hq : q ∈ found.map Sigma.fst := by
        rcases List.mem_cons.1 h with e | hq
        · exact absurd e.symm hp
        · exact hq
      obtain ⟨b, hb, hmem⟩ := ih hq
      exact ⟨b, hb, List.mem_cons_of_mem _ hmem⟩

end Snapshot

namespace Condition

/-- A capture of a tree that came to its end: it asked every question of the tree
once, in the order in which they occur first, and the snapshot has an answer to
each question of a leaf. -/
structure Captured (c : Condition) (answer : (q : Query) → Except Fault q.Answer)
    (asked : List Query) (s : Snapshot) : Prop where
  order : asked.Pairwise fun p q => c.asked.idxOf p < c.asked.idxOf q
  complete : ∀ q, q ∈ asked ↔ q ∈ c.asked
  found : ∀ q ∈ c.asked, ∃ a, Snapshot.find? q s.answers = some a ∧ answer q = .ok a

/-- A capture asks the questions of the tree in their order, up to the first that
has no answer. -/
theorem capture_noted (c : Condition) {zone : Zone} {now clock : Moment}
    (h : zone.local? now = .ok clock) (answer : (q : Query) → Except Fault q.Answer) :
    ∃ asked, (c.capture zone now (Query.noted answer)).perform [] =
        (c.capture zone now answer, asked) ∧ asked <+: c.queries ∧
      ∀ s, c.capture zone now answer = .ok s → c.Captured answer asked s := by
  obtain ⟨asked, hrun, hpre, hall⟩ := Snapshot.gather_noted answer c.queries []
  refine ⟨asked, ?_, hpre, fun s hs => ?_⟩
  · simp only [capture, h, Noting.perform_bind, hrun, List.nil_append]
    cases Snapshot.gather answer c.queries with
    | error e => rfl
    | ok found => rfl
  · simp only [capture, h] at hs
    obtain ⟨found, hfound, hs⟩ := bind_eq_ok.1 hs
    cases hs
    obtain ⟨hfst, hsnd⟩ := Snapshot.of_gather hfound
    rw [hall found hfound]
    have hmem : ∀ q, q ∈ c.queries ↔ q ∈ c.asked := fun q => List.mem_eraseDups
    refine ⟨c.queries_order, hmem, fun q hq => ?_⟩
    obtain ⟨a, ha, hin⟩ := Snapshot.find?_of_mem (hfst ▸ (hmem q).2 hq)
    exact ⟨a, ha, hsnd _ hin⟩

end Condition

end Glasshouse
