/-
Glasshouse.Proofs.Message.Delivery — what becomes of the events of a channel. A queue is
watched over a run: which events were due to it, which its subscriber took and
which it lost. Those that were due are those that were taken or lost, in their
order, and after them those that are pending. A queue loses an event only where
one is published while it is full, and then its oldest. Main statement:
`deliveries_balance`, for every capacity and every run; listeners may fail at any call,
and a capacity of zero or less stands for a queue without bound.

How the proof goes. A queue is watched from outside (`Watch`), and `Watch.Sound` ties what is
watched to what the queue holds; `Sound.after` is about one move, `watch_sound` about a run.
-/
import Glasshouse.Channel
import Mathlib.Algebra.BigOperators.Group.Finset.Basic

namespace Glasshouse.Channel

/-! ## Listeners -/

/-- An event handed to listeners one after the other, of which `calls` says whether they
return or fail. A failure is passed over. -/
def call (e : Event) (calls : Nat → Except Fault Unit) (i : Nat) :
    List (List Event) → Except Fault (List (List Event))
  | [] => .ok []
  | heard :: r => do
    tryCatch (calls i) fun _ => .ok ()
    .ok ((heard ++ [e]) :: (← call e calls (i + 1) r))

/-- An event put into the queues and then handed to the listeners. -/
def announce (c : Channel) (e : Event) (calls : Nat → Except Fault Unit) :
    Except Fault Channel := do
  let heard ← call e calls 0 c.listeners
  .ok { c.publish e with listeners := heard }

/-- Every listener is called, whatever becomes of the calls before. -/
theorem call_eq (e : Event) (calls : Nat → Except Fault Unit) (i : Nat)
    (ls : List (List Event)) : call e calls i ls = .ok (ls.map (· ++ [e])) := by
  induction ls generalizing i with
  | nil => rfl
  | cons heard ls ih =>
    have passed : (tryCatch (calls i) fun _ => .ok () : Except Fault Unit) = .ok () := by
      cases calls i <;> rfl
    rw [call, passed, ih]
    rfl

/-- Failing listeners change nothing. -/
theorem announce_eq (c : Channel) (e : Event) (calls : Nat → Except Fault Unit) :
    c.announce e calls = .ok (c.publish e) := by
  unfold announce
  rw [call_eq]
  rfl

/-! ## Runs -/

/-- What can happen to a channel. -/
inductive Move where
  | subscribe
  | unsubscribe (queue : Nat)
  /-- An event is published, and calling the listeners with it ends so. -/
  | publish (e : Event) (calls : Nat → Except Fault Unit)
  /-- A subscriber takes the oldest event of its queue. -/
  | take (queue : Nat)
  | listen

/-- One move. -/
def step (c : Channel) : Move → Except Fault Channel
  | .subscribe => .ok c.subscribe
  | .unsubscribe i => .ok (c.unsubscribe i)
  | .publish e calls => c.announce e calls
  | .take i => .ok (c.take i)
  | .listen => .ok c.listen

/-- Moves one after the other. -/
def run (c : Channel) (ms : List Move) : Except Fault Channel := ms.foldlM step c

/-- A channel after a move in which no listener fails. -/
def after (c : Channel) : Move → Channel
  | .subscribe => c.subscribe
  | .unsubscribe i => c.unsubscribe i
  | .publish e _ => c.publish e
  | .take i => c.take i
  | .listen => c.listen

theorem step_eq (c : Channel) (m : Move) : c.step m = .ok (c.after m) := by
  cases m with
  | publish e calls => exact c.announce_eq e calls
  | _ => rfl

theorem run_eq (c : Channel) (ms : List Move) : c.run ms = .ok (ms.foldl after c) := by
  induction ms generalizing c with
  | nil => rfl
  | cons m ms ih =>
    unfold run at ih ⊢
    rw [List.foldlM_cons, step_eq]
    exact ih _

/-! ## Queues -/

/-- The queue of a subscription; one that is yet to come is empty and not subscribed. -/
def box (c : Channel) (i : Nat) : Mailbox := c.boxes[i]?.getD { subscribed := false }

theorem box_of_le {c : Channel} {i : Nat} (h : c.boxes.length ≤ i) :
    c.box i = { subscribed := false } := by
  rw [box, List.getElem?_eq_none h, Option.getD_none]

theorem box_subscribe (c : Channel) (i : Nat) :
    c.subscribe.box i = if i = c.boxes.length then {} else c.box i := by
  unfold box subscribe
  rcases Nat.lt_trichotomy i c.boxes.length with h | h | h
  · rw [if_neg (by omega), List.getElem?_append_left h]
  · rw [if_pos h, h, List.getElem?_concat_length, Option.getD_some]
  · rw [if_neg (by omega), List.getElem?_eq_none (by simp; omega),
      List.getElem?_eq_none (by omega)]

theorem box_unsubscribe (c : Channel) (i j : Nat) : (c.unsubscribe j).box i
    = if i = j then { c.box i with subscribed := false } else c.box i := by
  unfold box unsubscribe
  rw [List.getElem?_modify]
  cases c.boxes[i]? <;> by_cases h : i = j <;> simp [h, eq_comm]

theorem box_take (c : Channel) (i j : Nat) : (c.take j).box i
    = if i = j then { c.box i with pending := (c.box i).pending.drop 1 } else c.box i := by
  unfold box take
  rw [List.getElem?_modify]
  cases c.boxes[i]? <;> by_cases h : i = j <;> simp [h, eq_comm]

theorem box_publish (c : Channel) (e : Event) (i : Nat) :
    (c.publish e).box i = c.deliver e (c.box i) := by
  unfold box publish
  rw [List.getElem?_map]
  cases c.boxes[i]? <;> rfl

theorem box_listen (c : Channel) (i : Nat) : c.listen.box i = c.box i := rfl

theorem take_iterate (c : Channel) (i n : Nat) : (fun c => c.take i)^[n] c
    = { c with boxes := c.boxes.modify i fun b => { b with pending := b.pending.drop n } } := by
  induction n with
  | zero => exact congrArg (fun bs => { c with boxes := bs }) (List.modify_id ..).symm
  | succ n ih =>
    rw [Function.iterate_succ_apply', ih]
    unfold take
    simp only [List.modify_modify_eq]
    refine congrArg (fun f => { c with boxes := c.boxes.modify i f }) (funext fun b => ?_)
    simp

/-- Draining a queue is taking its events one by one. -/
theorem drain_eq (c : Channel) (i : Nat) :
    c.drain i = (fun c => c.take i)^[(c.box i).pending.length] c := by
  rw [take_iterate]
  refine congrArg (fun bs => { c with boxes := bs }) (List.ext_getElem? fun j => ?_)
  rw [List.getElem?_modify, List.getElem?_modify]
  by_cases h : i = j
  · subst h
    unfold box
    cases c.boxes[i]? <;> simp
  · simp [h]

/-! ## What becomes of events -/

/-- The event that a move publishes, if any. -/
def Move.arrival : Move → List Event
  | .publish e _ => [e]
  | _ => []

/-- Whether a move is that of the subscriber of a queue taking an event. -/
def Move.takes (i : Nat) : Move → Bool
  | .take j => j == i
  | _ => false

/-- A queue that is watched during a run. -/
structure Watch where
  channel : Channel
  subscribed : Bool := false
  /-- The events published while the queue was subscribed. -/
  due : List Event := []
  /-- The events that its subscriber took out. -/
  taken : List Event := []
  /-- The events that left it otherwise. -/
  lost : List Event := []

namespace Watch

/-- What has left a queue between two moments: so many from the front of what reached it as
are not pending any more. -/
def departed (reached pending : List Event) : List Event :=
  reached.take (reached.length - pending.length)

/-- The watch on the queue of a subscription after a move. -/
def after (i : Nat) (w : Watch) (m : Move) : Watch :=
  let c := w.channel.after m
  let arrived := if w.subscribed then m.arrival else []
  let gone := departed ((w.channel.box i).pending ++ arrived) (c.box i).pending
  { channel := c
    subscribed := match m with
      | .subscribe => w.subscribed || i == w.channel.boxes.length
      | .unsubscribe j => w.subscribed && i != j
      | _ => w.subscribed
    due := w.due ++ arrived
    taken := if m.takes i then w.taken ++ gone else w.taken
    lost := if m.takes i then w.lost else w.lost ++ gone }

theorem due_after (i : Nat) (w : Watch) (m : Move) :
    (w.after i m).due = w.due ++ if w.subscribed then m.arrival else [] := rfl

end Watch

/-- The watch on a queue during moves of a new channel. -/
def watch (capacity : Int) (i : Nat) (ms : List Move) : Watch :=
  ms.foldl (Watch.after i) { channel := { capacity := capacity } }

theorem watch_append (capacity : Int) (i : Nat) (ms : List Move) (m : Move) :
    watch capacity i (ms ++ [m]) = (watch capacity i ms).after i m := by
  simp [watch]

theorem channel_watch (capacity : Int) (i : Nat) (ms : List Move) :
    (watch capacity i ms).channel = ms.foldl after { capacity := capacity } := by
  induction ms using List.reverseRecOn with
  | nil => rfl
  | append_singleton ms m ih =>
    rw [watch_append, List.foldl_append, ← ih]
    rfl

/-- A list parted into two, each in its order. -/
inductive Parted {α : Type} : List α → List α → List α → Prop
  | nil : Parted [] [] []
  | left {as bs cs : List α} (a : α) (h : Parted as bs cs) : Parted (as ++ [a]) bs (cs ++ [a])
  | right {as bs cs : List α} (a : α) (h : Parted as bs cs) : Parted as (bs ++ [a]) (cs ++ [a])

theorem Parted.append_left {α : Type} {as bs cs : List α} (h : Parted as bs cs) (ds : List α) :
    Parted (as ++ ds) bs (cs ++ ds) := by
  induction ds using List.reverseRecOn with
  | nil => simpa using h
  | append_singleton ds d ih =>
    rw [← List.append_assoc, ← List.append_assoc]
    exact .left d ih

theorem Parted.append_right {α : Type} {as bs cs : List α} (h : Parted as bs cs) (ds : List α) :
    Parted as (bs ++ ds) (cs ++ ds) := by
  induction ds using List.reverseRecOn with
  | nil => simpa using h
  | append_singleton ds d ih =>
    rw [← List.append_assoc, ← List.append_assoc]
    exact .right d ih

theorem Parted.length {α : Type} {as bs cs : List α} (h : Parted as bs cs) :
    cs.length = as.length + bs.length := by
  induction h with
  | nil => rfl
  | left a _ ih => simp only [List.length_append, ih, List.length_singleton]; omega
  | right a _ ih => simp only [List.length_append, ih, List.length_singleton]; omega

/-- Whether a move publishes an event into a queue that is full. -/
def overflows (c : Channel) (i : Nat) (m : Move) : Bool :=
  !m.arrival.isEmpty && (c.box i).subscribed && c.isFull (c.box i)

theorem overflows_of_arrival {m : Move} (h : m.arrival = []) (c : Channel) (i : Nat) :
    c.overflows i m = false := by
  rw [overflows, h]
  rfl

/-- What is pending before a move and what arrives with it is what is pending after it,
but for the oldest event if that is taken or has to make room. -/
theorem reached_eq (c : Channel) (i : Nat) (m : Move) :
    (c.box i).pending ++ (if (c.box i).subscribed then m.arrival else [])
      = (if m.takes i || c.overflows i m then (c.box i).pending.take 1 else [])
        ++ ((c.after m).box i).pending := by
  have quiet (h : m.arrival = []) : (c.box i).pending
      ++ (if (c.box i).subscribed then m.arrival else []) = (c.box i).pending := by
    rw [h, ite_self, List.append_nil]
  have kept (h : m.arrival = []) (ht : m.takes i = false) :
      (if m.takes i || c.overflows i m then (c.box i).pending.take 1 else []) = [] := by
    rw [ht, overflows_of_arrival h]
    rfl
  cases m with
  | subscribe =>
    rw [quiet rfl, kept rfl rfl, List.nil_append, after, box_subscribe]
    split
    next h => rw [box_of_le (Nat.le_of_eq h.symm)]
    next => rfl
  | unsubscribe j =>
    rw [quiet rfl, kept rfl rfl, List.nil_append, after, box_unsubscribe]
    split <;> rfl
  | publish e calls =>
    simp only [Move.arrival, Move.takes, overflows, after, box_publish, deliver]
    by_cases hs : (c.box i).subscribed = true <;> by_cases hf : c.isFull (c.box i) = true <;>
      simp [hs, hf, ← List.append_assoc, -List.drop_one]
  | take j =>
    rw [quiet rfl, overflows_of_arrival rfl, after, box_take, Move.takes, Bool.or_false]
    by_cases h : i = j
    · rw [if_pos h, if_pos (beq_iff_eq.2 h.symm), List.take_append_drop]
    · rw [if_neg h, if_neg fun hji => h (beq_iff_eq.1 hji).symm]
      rfl
  | listen => rw [quiet rfl, kept rfl rfl, List.nil_append, after, box_listen]

theorem capacity_after (c : Channel) (m : Move) : (c.after m).capacity = c.capacity := by
  cases m <;> rfl

/-- No queue comes to hold more than there is room for. -/
theorem length_after {c : Channel} {i : Nat} (hc : 0 < c.capacity)
    (h : ((c.box i).pending.length : Int) ≤ c.capacity) (m : Move) :
    (((c.after m).box i).pending.length : Int) ≤ c.capacity := by
  cases m with
  | subscribe =>
    rw [after, box_subscribe]
    split
    · exact hc.le
    · exact h
  | unsubscribe j =>
    rw [after, box_unsubscribe]
    split <;> exact h
  | publish e calls =>
    rw [after, box_publish, deliver]
    simp only [isFull, Bool.and_eq_true, decide_eq_true_eq]
    split
    · exact h
    · split <;> simp only [List.length_append, List.length_drop, List.length_singleton] <;> omega
  | take j =>
    rw [after, box_take]
    split
    · simp only [List.length_drop]; omega
    · exact h
  | listen => exact h

/-- The oldest event of a queue, if a move publishes one while the queue is full. -/
def spilled (c : Channel) (i : Nat) (m : Move) : List Event :=
  if c.overflows i m then (c.box i).pending.take 1 else []

/-- An event spills only where another is published while the queue is full. -/
theorem spilled_cases (c : Channel) (i : Nat) (m : Move) : c.spilled i m = [] ∨
    ∃ e calls oldest rest, m = .publish e calls ∧ (c.box i).subscribed = true
      ∧ 0 < c.capacity ∧ c.capacity ≤ (c.box i).pending.length
      ∧ (c.box i).pending = oldest :: rest ∧ c.spilled i m = [oldest] := by
  unfold spilled
  split
  next h =>
    cases m with
    | publish e calls =>
      simp only [overflows, isFull, Bool.and_eq_true, decide_eq_true_eq] at h
      obtain ⟨⟨-, hs⟩, hc, hf⟩ := h
      cases hp : (c.box i).pending with
      | nil => rw [hp] at hf; exact absurd hf (by simpa using hc)
      | cons oldest rest =>
        exact .inr ⟨e, calls, oldest, rest, rfl, hs, hc, hp ▸ hf, rfl, rfl⟩
    | _ => exact absurd h (by rw [overflows_of_arrival rfl]; decide)
  next => exact .inl rfl

theorem countP_eq_sum {α : Type} (p : α → Bool) (d : α) (as : List α) : as.countP p
    = ∑ i ∈ Finset.range as.length, if p (as[i]?.getD d) then 1 else 0 := by
  induction as with
  | nil => rfl
  | cons a as ih =>
    rw [List.countP_cons, ih, List.length_cons, Finset.sum_range_succ']
    rfl

theorem length_spilled (c : Channel) (i : Nat) (e : Event) (calls : Nat → Except Fault Unit) :
    (c.spilled i (.publish e calls)).length
      = if (c.box i).subscribed && c.isFull (c.box i) then 1 else 0 := by
  simp only [spilled, overflows, Move.arrival, List.isEmpty_cons, Bool.not_false, Bool.true_and]
  split
  next h =>
    simp only [isFull, Bool.and_eq_true, decide_eq_true_eq] at h
    rw [List.length_take]
    omega
  next => rfl

/-- The number of events lost grows by those that spill out of a queue. -/
theorem dropped_after (c : Channel) (m : Move) : (c.after m).dropped
    = c.dropped + ∑ i ∈ Finset.range c.boxes.length, (c.spilled i m).length := by
  cases m with
  | publish e calls =>
    simp only [length_spilled]
    exact congrArg (c.dropped + ·) (countP_eq_sum _ { subscribed := false } c.boxes)
  | _ => simp [spilled, overflows, Move.arrival, after, subscribe, unsubscribe, take, listen]

namespace Watch

theorem departed_append (xs ys : List Event) : departed (xs ++ ys) ys = xs := by
  simp [departed]

/-- What holds of the watch on a queue at every moment. -/
structure Sound (capacity : Int) (i : Nat) (w : Watch) : Prop where
  room : w.channel.capacity = capacity
  subscribed : w.subscribed = (w.channel.box i).subscribed
  balance : ∃ gone, w.due = gone ++ (w.channel.box i).pending ∧ Parted w.taken w.lost gone
  bounded : 0 < capacity → ((w.channel.box i).pending.length : Int) ≤ capacity
  unbounded : capacity ≤ 0 → w.lost = []

variable {capacity : Int} {i : Nat} {w : Watch}

/-- What leaves the queue is its oldest event, if that is taken or has to make room. -/
theorem gone_eq (h : w.Sound capacity i) (m : Move) :
    departed ((w.channel.box i).pending ++ (if w.subscribed then m.arrival else []))
        ((w.channel.after m).box i).pending
      = if m.takes i || w.channel.overflows i m then (w.channel.box i).pending.take 1 else [] := by
  rw [h.subscribed, reached_eq, departed_append]

theorem lost_after (h : w.Sound capacity i) (m : Move) :
    (w.after i m).lost = w.lost ++ w.channel.spilled i m := by
  have gone := gone_eq h m
  simp only [Watch.after, spilled]
  rw [gone]
  by_cases ht : m.takes i = true
  · have quiet : w.channel.overflows i m = false := by
      cases m with
      | take j => exact overflows_of_arrival rfl ..
      | _ => cases ht
    simp [ht, quiet]
  · simp [ht]

theorem subscribed_after (h : w.subscribed = (w.channel.box i).subscribed) (m : Move) :
    (w.after i m).subscribed = ((w.channel.after m).box i).subscribed := by
  cases m with
  | subscribe =>
    simp only [Watch.after, Channel.after, box_subscribe]
    split
    · simp [*]
    · simp [*]
  | unsubscribe j =>
    simp only [Watch.after, Channel.after, box_unsubscribe]
    split
    · simp [*]
    · simp [*]
  | publish e calls =>
    simp only [Watch.after, Channel.after, box_publish, deliver, h]
    split
    · rfl
    · split <;> rfl
  | take j =>
    simp only [Watch.after, Channel.after, box_take, h]
    split <;> rfl
  | listen => exact h

theorem Sound.after (h : w.Sound capacity i) (m : Move) : (w.after i m).Sound capacity i where
  room := (capacity_after ..).trans h.room
  subscribed := subscribed_after h.subscribed m
  balance := by
    obtain ⟨gone, due, parted⟩ := h.balance
    have left := gone_eq h m
    have reached := reached_eq w.channel i m
    rw [← h.subscribed] at reached
    refine ⟨gone ++ (if m.takes i || w.channel.overflows i m
      then (w.channel.box i).pending.take 1 else []), ?_, ?_⟩
    · simp only [Watch.after]
      rw [due, List.append_assoc, reached, List.append_assoc]
    · simp only [Watch.after]
      rw [left]
      by_cases ht : m.takes i = true
      · rw [if_pos ht, if_pos ht]
        exact parted.append_left _
      · rw [if_neg ht, if_neg ht]
        exact parted.append_right _
  bounded hc := by
    have := h.room
    subst this
    exact length_after hc (h.bounded hc) m
  unbounded hc := by
    rw [lost_after h, h.unbounded hc]
    rcases w.channel.spilled_cases i m with hm | ⟨_, _, _, _, _, _, hpos, _⟩
    · exact hm
    · exact absurd (h.room ▸ hpos) (not_lt.2 hc)

end Watch

theorem watch_sound (capacity : Int) (i : Nat) (ms : List Move) :
    (watch capacity i ms).Sound capacity i := by
  induction ms using List.reverseRecOn with
  | nil => exact ⟨rfl, rfl, ⟨[], rfl, .nil⟩, fun h => h.le, fun _ => rfl⟩
  | append_singleton ms m ih =>
    rw [watch_append]
    exact ih.after m

/-! ## Counters -/

theorem boxes_after (c : Channel) (m : Move) : c.boxes.length ≤ (c.after m).boxes.length := by
  cases m with
  | subscribe => simp [after, subscribe]
  | unsubscribe j => simp [after, unsubscribe]
  | publish e calls => simp [after, publish]
  | take j => simp [after, take]
  | listen => exact le_rfl

theorem published_after (c : Channel) (m : Move) :
    (c.after m).published = c.published + m.arrival.length := by
  cases m <;> rfl

theorem spilled_of_le {c : Channel} {i : Nat} (h : c.boxes.length ≤ i) (m : Move) :
    c.spilled i m = [] := by
  rw [spilled, overflows, box_of_le h, Bool.and_false, Bool.false_and]
  rfl

/-- A queue that is yet to come has nothing due to it. -/
theorem due_of_le {capacity : Int} {i : Nat} (ms : List Move)
    (h : (watch capacity i ms).channel.boxes.length ≤ i) : (watch capacity i ms).due = [] := by
  induction ms using List.reverseRecOn with
  | nil => rfl
  | append_singleton ms m ih =>
    rw [watch_append] at h ⊢
    have before := (boxes_after (watch capacity i ms).channel m).trans h
    have apart : (watch capacity i ms).subscribed = false := by
      rw [(watch_sound ..).subscribed, box_of_le before]
    rw [Watch.due_after, ih before, apart]
    rfl

/-- It has lost nothing either. -/
theorem lost_of_le {capacity : Int} {i : Nat} (ms : List Move)
    (h : (watch capacity i ms).channel.boxes.length ≤ i) : (watch capacity i ms).lost = [] := by
  obtain ⟨gone, due, parted⟩ := (watch_sound capacity i ms).balance
  rw [due_of_le ms h, eq_comm, List.append_eq_nil_iff] at due
  have := parted.length
  rw [due.1, List.length_nil] at this
  exact List.length_eq_zero_iff.1 (by omega)

/-- What is due to a queue was published in one stretch, which lasts while it is subscribed. -/
theorem due_stretch (capacity : Int) (i : Nat) (ms : List Move) :
    (watch capacity i ms).due <:+: ms.flatMap Move.arrival
    ∧ ((watch capacity i ms).subscribed = true →
        (watch capacity i ms).due <:+ ms.flatMap Move.arrival) := by
  induction ms using List.reverseRecOn with
  | nil => exact ⟨List.infix_rfl, fun _ => List.suffix_rfl⟩
  | append_singleton ms m ih =>
    have all : (ms ++ [m]).flatMap Move.arrival = ms.flatMap Move.arrival ++ m.arrival := by simp
    have due := congrArg Watch.due (watch_append capacity i ms m)
    rw [all, due]
    cases hs : (watch capacity i ms).subscribed with
    | true =>
      have grown : ((watch capacity i ms).after i m).due
          <:+ ms.flatMap Move.arrival ++ m.arrival := by
        obtain ⟨front, h⟩ := ih.2 hs
        exact ⟨front, by rw [Watch.due_after, hs, ← h, if_pos rfl, List.append_assoc]⟩
      exact ⟨grown.isInfix, fun _ => grown⟩
    | false =>
      have same : ((watch capacity i ms).after i m).due = (watch capacity i ms).due := by
        rw [Watch.due_after, hs]
        exact List.append_nil _
      rw [same]
      refine ⟨ih.1.trans (List.prefix_append ..).isInfix, fun subscribed => ?_⟩
      -- only a new queue becomes subscribed
      have unborn : (watch capacity i ms).channel.boxes.length ≤ i := by
        rw [watch_append] at subscribed
        cases m with
        | subscribe =>
          simp only [Watch.after, hs, Bool.false_or, beq_iff_eq] at subscribed
          exact subscribed.ge
        | unsubscribe j => simp [Watch.after, hs] at subscribed
        | _ => exact absurd (hs.symm.trans subscribed) Bool.false_ne_true
      rw [due_of_le ms unborn]
      exact List.nil_suffix

/-- The number of events lost is that over all queues. -/
theorem dropped_eq (capacity : Int) (ms : List Move) (c : Channel)
    (h : ms.foldl after { capacity := capacity } = c) :
    c.dropped = ∑ i ∈ Finset.range c.boxes.length, (watch capacity i ms).lost.length := by
  induction ms using List.reverseRecOn generalizing c with
  | nil => subst h; rfl
  | append_singleton ms m ih =>
    rw [List.foldl_append] at h
    subst h
    have ran (i : Nat) := channel_watch capacity i ms
    generalize ms.foldl after { capacity := capacity } = c at ran ih ⊢
    have grown (i : Nat) : (watch capacity i (ms ++ [m])).lost.length
        = (watch capacity i ms).lost.length + (c.spilled i m).length := by
      rw [watch_append, Watch.lost_after (watch_sound ..), ran, List.length_append]
    calc (c.after m).dropped
        = c.dropped + ∑ i ∈ Finset.range c.boxes.length, (c.spilled i m).length :=
          dropped_after c m
      _ = ∑ i ∈ Finset.range c.boxes.length, (watch capacity i (ms ++ [m])).lost.length := by
          simp only [grown, Finset.sum_add_distrib, ih c rfl]
      _ = ∑ i ∈ Finset.range (c.after m).boxes.length,
            (watch capacity i (ms ++ [m])).lost.length := by
          -- a queue that only now came has lost nothing
          refine Finset.sum_subset (Finset.range_mono (boxes_after c m)) fun i _ hi => ?_
          have unborn : c.boxes.length ≤ i := not_lt.1 (Finset.mem_range.not.1 hi)
          rw [grown, lost_of_le ms (ran i ▸ unborn), spilled_of_le unborn]
          rfl

theorem published_eq (capacity : Int) (ms : List Move) :
    (ms.foldl after { capacity := capacity }).published = (ms.flatMap Move.arrival).length := by
  induction ms using List.reverseRecOn with
  | nil => rfl
  | append_singleton ms m ih =>
    rw [List.foldl_append, List.foldl_cons, List.foldl_nil, published_after, ih]
    simp

/-! ## Delivery -/

/-- A move in which no listener fails. -/
def Move.calm : Move → Move
  | .publish e _ => .publish e fun _ => .ok ()
  | m => m

theorem run_calm (c : Channel) (ms : List Move) : c.run (ms.map Move.calm) = c.run ms := by
  have same (c : Channel) (m : Move) : c.after m.calm = c.after m := by cases m <;> rfl
  rw [run_eq, run_eq, List.foldl_map]
  simp only [same]

/-- How the queue of a subscription stands after moves of a new channel. -/
structure Delivered (capacity : Int) (ms : List Move) (c : Channel) (i : Nat) : Prop where
  /-- What was due to it is what its subscriber took and what it lost, each in its order, and
  after that what is pending. -/
  order : ∃ gone, (watch capacity i ms).due = gone ++ (c.box i).pending
    ∧ Parted (watch capacity i ms).taken (watch capacity i ms).lost gone
  balance : (watch capacity i ms).due.length = (watch capacity i ms).taken.length
    + (watch capacity i ms).lost.length + (c.box i).pending.length
  /-- What was due to it was published in one stretch, which goes on while it is subscribed. -/
  stretch : (watch capacity i ms).due <:+: ms.flatMap Move.arrival
    ∧ ((c.box i).subscribed = true → (watch capacity i ms).due <:+ ms.flatMap Move.arrival)
  bounded : 0 < capacity → ((c.box i).pending.length : Int) ≤ capacity
  unbounded : capacity ≤ 0 → (watch capacity i ms).lost = []
  /-- It loses an event only where one is published while it is full, and then its oldest. -/
  eviction (m : Move) : (watch capacity i (ms ++ [m])).lost = (watch capacity i ms).lost
    ∨ ∃ e calls oldest rest, m = .publish e calls ∧ (c.box i).subscribed = true
      ∧ 0 < capacity ∧ ((c.box i).pending.length : Int) = capacity
      ∧ (c.box i).pending = oldest :: rest
      ∧ (watch capacity i (ms ++ [m])).lost = (watch capacity i ms).lost ++ [oldest]
  /-- Publishing leaves it as it is when it is not subscribed. -/
  deaf : (c.box i).subscribed = false → ∀ e calls,
    ∃ c', c.step (.publish e calls) = .ok c' ∧ c'.box i = c.box i

theorem delivered (capacity : Int) (ms : List Move) (c : Channel) (i : Nat)
    (h : ms.foldl after { capacity := capacity } = c) : Delivered capacity ms c i := by
  have sound := watch_sound capacity i ms
  have ran := (channel_watch capacity i ms).trans h
  have hc : c.capacity = capacity := ran ▸ sound.room
  obtain ⟨gone, due, parted⟩ := sound.balance
  rw [ran] at due
  exact {
    order := ⟨gone, due, parted⟩
    balance := by rw [due, List.length_append, parted.length]
    stretch := by
      have := due_stretch capacity i ms
      rwa [sound.subscribed, ran] at this
    bounded := ran ▸ sound.bounded
    unbounded := sound.unbounded
    eviction := fun m => by
      rw [watch_append, Watch.lost_after sound, ran]
      rcases c.spilled_cases i m with kept | ⟨e, calls, oldest, rest, hm, hs, pos, full, hp, one⟩
      · exact .inl (by rw [kept, List.append_nil])
      · rw [hc] at pos full
        have room := ran ▸ sound.bounded pos
        exact .inr ⟨e, calls, oldest, rest, hm, hs, pos, le_antisymm room full, hp, by rw [one]⟩
    deaf := fun hs e calls => ⟨_, c.announce_eq e calls, by
      rw [box_publish, deliver, hs]
      rfl⟩ }

/-- After any moves of a new channel every queue is in order, the counters count the events
published and those that all queues lost, and no failing listener makes a difference. -/
theorem deliveries_balance (capacity : Int) (ms : List Move) :
    ∃ c, run { capacity := capacity } ms = .ok c
      ∧ run { capacity := capacity } (ms.map Move.calm) = .ok c
      ∧ c.published = (ms.flatMap Move.arrival).length
      ∧ c.dropped = ∑ i ∈ Finset.range c.boxes.length, (watch capacity i ms).lost.length
      ∧ ∀ i, Delivered capacity ms c i :=
  ⟨_, run_eq _ ms, (run_calm _ ms).trans (run_eq _ ms), published_eq capacity ms,
    dropped_eq capacity ms _ rfl, fun i => delivered capacity ms _ i rfl⟩

end Glasshouse.Channel
