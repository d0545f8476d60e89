/-
Glasshouse.Proofs.Dispatch.Flights — commands take turns. Actions are dispatched one after the
other; a command that exceeds the time limit is given up and still arrives, some time
later. Whatever takes how long, at no moment are two commands on their way to one device:
each device sees a command go up and come down before the next one goes up, in the order
of dispatch, and is what the commands that came down have made of it. Main statement:
`commands_take_turns`.

It is enough to wait for the last command entered for a device, if it leaves the table
with its own entry only: that entry is the one command on its way to the device
(`InTurn.pending`). Whether an entry is struck out before or after the next one is made
does not matter (`Flight.get?_strike_put`).

How the proof goes. `World.InTurn` is the invariant, over the motions so far. Time that
passes keeps it (`InTurn.elapse`), so does a command that goes up (`InTurn.launch`), and what
touches no command (`InTurn.steady`). `Plan.Always` carries it to every moment of a plan, also
under a time limit (`Always.within`); `always_tryOne` and `always_planAll` go from one action
to all stages.

Side conditions of the main statement. No command is on its way at first, and numbers that
have been given are not given again. Settings, delays and faults may change at every stage,
time limits may be anything, and commands may fail when they arrive. Dispatches do not
overlap, which the lock of the engine sees to.
-/
import Glasshouse.Proofs.Dispatch.InTime
import Glasshouse.Proofs.Basic.Table

namespace Glasshouse

/-! ## At every moment of a plan -/

namespace Plan

variable {σ α β γ : Type} [Timed σ]

/-- What holds at every moment of a plan, of the state and of what has been noted of the
changes up to then; and what holds of its result at the end. -/
def Always (note : σ → σ → List γ) (I : List γ → σ → Prop) (Q : α → List γ → σ → Prop) :
    Plan σ α → List γ → σ → Prop
  | done a, es, s => I es s ∧ Q a es s
  | act f next, es, s => I es s ∧ (next s).Always note I Q (es ++ note s (f s)) (f s)
  | wait d next, es, s => I es s ∧
    (∀ t ≤ d, I (es ++ note s (Timed.elapse t s)) (Timed.elapse t s)) ∧
      next.Always note I Q (es ++ note s (Timed.elapse d s)) (Timed.elapse d s)
  | whenFree d next, es, s => I es s ∧
    if Timed.locked s then
      (∀ t ≤ d, I (es ++ note s (Timed.elapse t s)) (Timed.elapse t s)) ∧
        (next false).Always note I Q (es ++ note s (Timed.elapse d s)) (Timed.elapse d s)
    else (next true).Always note I Q es s

variable {note : σ → σ → List γ} {I J : List γ → σ → Prop} {Q : α → List γ → σ → Prop}
  {p : Plan σ α} {es : List γ} {s : σ}

theorem Always.imp {R : α → List γ → σ → Prop} (h : p.Always note I Q es s)
    (hI : ∀ es s, I es s → J es s) (hQ : ∀ a es s, I es s → Q a es s → R a es s) :
    p.Always note J R es s := by
  induction p generalizing es s with
  | done a => exact ⟨hI _ _ h.1, hQ _ _ _ h.1 h.2⟩
  | act f next ih => exact ⟨hI _ _ h.1, ih s h.2⟩
  | wait d next ih => exact ⟨hI _ _ h.1, fun t ht => hI _ _ (h.2.1 t ht), ih h.2.2⟩
  | whenFree d next ih =>
    refine ⟨hI _ _ h.1, ?_⟩
    have hrest := h.2
    split at hrest
    · rw [if_pos ‹_›]
      exact ⟨fun t ht => hI _ _ (hrest.1 t ht), ih false hrest.2⟩
    · rw [if_neg ‹_›]
      exact ih true hrest

theorem always_bind {R : β → List γ → σ → Prop} {k : α → Plan σ β}
    (h : p.Always note I (fun a es s => (k a).Always note I R es s) es s) :
    (p >>= k).Always note I R es s := by
  induction p generalizing es s with
  | done a => exact h.2
  | act f next ih => exact ⟨h.1, ih s h.2⟩
  | wait d next ih => exact ⟨h.1, h.2.1, ih h.2.2⟩
  | whenFree d next ih =>
    refine ⟨h.1, ?_⟩
    have hrest := h.2
    split at hrest
    · rw [if_pos ‹_›]
      exact ⟨hrest.1, ih false hrest.2⟩
    · rw [if_neg ‹_›]
      exact ih true hrest

/-- What always holds in a plan holds always in one that is given up. -/
theorem Always.within {S : σ → σ → Prop} (hp : Along S p) (h : p.Always note I Q es s)
    (limit : Duration) : (p.within limit).Always note I (fun _ => I) es s := by
  induction hp generalizing es s limit with
  | done a => exact ⟨h.1, h.1⟩
  | @act f next _ _ ih => exact ⟨h.1, ih s h.2 limit⟩
  | @wait d next _ ih =>
    by_cases hd : d < limit
    · rw [Plan.within, if_pos hd]
      exact ⟨h.1, h.2.1, ih h.2.2 _⟩
    · have hlimit := h.2.1 limit (Nat.not_lt.1 hd)
      rw [Plan.within, if_neg hd]
      exact ⟨h.1, fun t ht => h.2.1 t (Nat.le_trans ht (Nat.not_lt.1 hd)), hlimit, hlimit⟩

/-- A plan whose changes keep what the time keeps. -/
theorem Along.always {S : σ → σ → Prop} (hp : Along S p)
    (act : ∀ {es s t}, I es s → S s t → I (es ++ note s t) t)
    (time : ∀ {es s} d, I es s → I (es ++ note s (Timed.elapse d s)) (Timed.elapse d s))
    (h : I es s) : p.Always note I (fun _ => I) es s := by
  induction hp generalizing es s with
  | done a => exact ⟨h, h⟩
  | act step _ ih => exact ⟨h, ih s (act h (step s))⟩
  | @wait d _ _ ih => exact ⟨h, fun t _ => time t h, ih (time d h)⟩

/-- What holds of the result at the end holds where the plan is performed. -/
theorem Always.run (h : p.Always note I Q es s) :
    ∃ later, Q (p.run s).1 (es ++ later) (p.run s).2 := by
  induction p generalizing es s with
  | done a => exact ⟨[], (List.append_nil es).symm ▸ h.2⟩
  | act f next ih =>
    obtain ⟨later, hQ⟩ := ih s h.2
    exact ⟨_, List.append_assoc .. ▸ hQ⟩
  | wait d next ih =>
    obtain ⟨later, hQ⟩ := ih h.2.2
    exact ⟨_, List.append_assoc .. ▸ hQ⟩
  | whenFree d next ih =>
    have hrest := h.2
    rw [Plan.run]
    split at hrest
    · rw [if_pos ‹_›]
      obtain ⟨later, hQ⟩ := ih false hrest.2
      exact ⟨_, List.append_assoc .. ▸ hQ⟩
    · rw [if_neg ‹_›]
      exact ih true hrest

end Plan

open Calendar World

/-! ## Commands that go up and come down -/

/-- A command is sent on its way, or it is past: it has taken effect or failed. -/
inductive Motion where
  | up (f : Flight)
  | down (f : Flight)

namespace Motion

/-- The command that goes up or comes down. -/
def flight : Motion → Flight
  | up f | down f => f

/-- The command that goes up. -/
def sent? : Motion → Option Flight
  | up f => some f
  | down _ => none

/-- Whether the command is to a device. -/
def on (device : String) (e : Motion) : Bool := e.flight.device == device

/-- The table of last commands: one that goes up is entered for its device, and one that is
over strikes out the entry of its device if that is still its own. -/
def note (t : Table String Nat) : Motion → Table String Nat
  | up f => t.put f.device f.ticket
  | down f => f.strike t

@[simp] theorem sent?_up (f : Flight) : (up f).sent? = some f := rfl

@[simp] theorem sent?_down (f : Flight) : (down f).sent? = none := rfl

@[simp] theorem on_up (f : Flight) (device : String) :
    (up f).on device = (f.device == device) := rfl

@[simp] theorem on_down (f : Flight) (device : String) :
    (down f).on device = (f.device == device) := rfl

end Motion

/-- The commands that came down between two worlds, in the order in which they did, and then
those that went up. -/
def World.motions (v w : World) : List Motion :=
  ((w.landed.drop v.landed.length).filterMap fun p =>
    (v.flights.find? (·.ticket == p.1)).map .down) ++
  (w.flights.filter fun f => decide (v.tickets ≤ f.ticket)).map .up

/-- A device, a command by its name, and a value. -/
abbrev DeviceOrder := String × String × Option String

namespace Flight

/-- What a command asks for. -/
def order (f : Flight) : DeviceOrder := (f.device, f.command, f.value)

/-- The device after the command has come down. -/
def upon (f : Flight) (d : DeviceRow) : DeviceRow :=
  match f.fault, Command.ofName? f.command with
  | none, some c => d.apply c f.value
  | _, _ => d

end Flight

/-- What an action asks of a device. -/
def Action.orders : Action → List DeviceOrder
  | .device a => [(a.device, a.command.name, a.value.map Setting.stored)]
  | _ => []

/-- A command goes up and comes down. -/
def turn (f : Flight) : List Motion := [.up f, .down f]

/-- Commands take turns from a world on: what has happened to each device, and what is still to
come. -/
structure World.InTurn (start : World) (orders : List DeviceOrder)
    (es : List Motion) (w : World) : Prop where
  /-- At most one command is on its way to a device. -/
  alone : (w.flights.map (·.device)).Nodup
  /-- Each command to a device comes down before the next goes up, and the device is what
  those that came down have made of it, one after the other. -/
  turns : ∀ device, ∃ past : List Flight,
    es.filter (·.on device)
      = past.flatMap turn ++ (w.flights.filter (·.device == device)).map .up ∧
    w.store.device? device
      = (start.store.device? device).map fun d => past.foldl (fun d f => f.upon d) d
  /-- Commands are entered as they go up, and struck out as they come down. -/
  noted : w.writes = es.foldl Motion.note start.writes
  /-- Commands go up in the order in which they are asked for, each at most once. -/
  sent : ((es.filterMap Motion.sent?).map Flight.order).Sublist orders
  numbered : ((es.filterMap Motion.sent?).map (·.ticket)).Pairwise (· < ·)
  fresh : ∀ f ∈ es.filterMap Motion.sent?, f.ticket < w.tickets
  aloft : ∀ f ∈ w.flights, f ∈ es.filterMap Motion.sent? ∧ ∀ p ∈ w.landed, p.1 ≠ f.ticket
  landed : ∀ p ∈ w.landed, p.1 < w.tickets

/-! ## Steps -/

/-- No command was sent, none came down, and no device changed. -/
structure World.Steady (v w : World) : Prop where
  flights : w.flights = v.flights
  landed : w.landed = v.landed
  tickets : w.tickets = v.tickets
  writes : w.writes = v.writes
  devices : w.store.devices = v.store.devices

namespace World

variable {start : World} {orders : List DeviceOrder} {es : List Motion}
  {v w : World}

theorem Unmoved.steady (h : Unmoved v w) : Steady v w :=
  ⟨h.flights, h.landed, h.tickets, h.writes, h.sameView.devices⟩

theorem steady_refl (w : World) : Steady w w := ⟨rfl, rfl, rfl, rfl, rfl⟩

theorem InTurn.ticket_lt (h : InTurn start orders es w) {f : Flight} (hf : f ∈ w.flights) :
    f.ticket < w.tickets :=
  h.fresh f (h.aloft f hf).1

theorem motions_of_steady (h : InTurn start orders es v) (hs : Steady v w) :
    motions v w = [] := by
  have hnone : w.flights.filter (fun f => decide (v.tickets ≤ f.ticket)) = [] :=
    List.filter_eq_nil_iff.2 fun f hf => by
      simpa using h.ticket_lt (hs.flights ▸ hf)
  rw [motions, hnone, hs.landed, List.drop_length]
  rfl

theorem InTurn.steady (h : InTurn start orders es v) (hs : Steady v w) :
    InTurn start orders (es ++ motions v w) w := by
  rw [motions_of_steady h hs, List.append_nil]
  exact {
    alone := hs.flights ▸ h.alone
    turns := fun device => by
      rw [hs.flights, Store.device?, hs.devices]
      exact h.turns device
    noted := hs.writes.trans h.noted
    sent := h.sent
    numbered := h.numbered
    fresh := hs.tickets ▸ h.fresh
    aloft := hs.flights ▸ hs.landed ▸ h.aloft
    landed := hs.landed ▸ hs.tickets ▸ h.landed }

theorem InTurn.mono (h : InTurn start orders es w) {orders' : List DeviceOrder}
    (hsub : orders.Sublist orders') : InTurn start orders' es w :=
  { h with sent := h.sent.trans hsub }

theorem InTurn.same_ticket (h : InTurn start orders es w) {f g : Flight} (hf : f ∈ w.flights)
    (hg : g ∈ w.flights) (hfg : f.ticket = g.ticket) : f = g :=
  List.inj_on_of_nodup_map (h.numbered.imp Nat.ne_of_lt) (h.aloft f hf).1 (h.aloft g hg).1 hfg

/-- A command on its way is found by its number. -/
theorem InTurn.find_ticket (h : InTurn start orders es w) {f : Flight} (hf : f ∈ w.flights) :
    w.flights.find? (·.ticket == f.ticket) = some f := by
  cases hfind : w.flights.find? (·.ticket == f.ticket) with
  | none => simpa using List.find?_eq_none.1 hfind f hf
  | some g =>
    have hticket : g.ticket = f.ticket := by simpa using List.find?_some hfind
    rw [h.same_ticket (List.mem_of_find?_eq_some hfind) hf hticket]

end World

/-! ## Commands that come down -/

theorem Store.device?_applyCommand (s : Store) (id : String) (c : Command) (value : Option String)
    (device : String) : (s.applyCommand id c value).device? device
      = (s.device? device).map fun d => if id == device then d.apply c value else d := by
  have hid : ∀ d : DeviceRow, (if d.id == id then d.apply c value else d).id = d.id := by
    intro d
    split
    · unfold DeviceRow.apply
      split <;> rfl
    · rfl
  have hfind : (s.applyCommand id c value).device? device
      = (s.device? device).map fun d => if d.id == id then d.apply c value else d := by
    simp only [applyCommand, device?, List.find?_map]
    refine congrArg (Option.map _) (congrArg (fun p => s.devices.find? p) (funext fun d => ?_))
    simp only [Function.comp_apply, hid]
  rw [hfind]
  refine Option.map_congr fun d hd => ?_
  have hdevice : d.id = device := by simpa using List.find?_some hd
  rw [hdevice, BEq.comm]

namespace World

/-- A command that comes down changes its own device alone. -/
theorem device?_land (f : Flight) (w : World) (device : String) :
    (w.land f).store.device? device
      = (w.store.device? device).map fun d => if f.device == device then f.upon d else d := by
  have hsame : ∀ {f : Flight}, (∀ d, f.upon d = d) → w.store.device? device
      = (w.store.device? device).map fun d => if f.device == device then f.upon d else d := by
    intro f hf
    simp [hf]
  rw [land_eq]
  unfold resultOf
  cases hfault : f.fault with
  | some e => exact hsame fun d => by rw [Flight.upon, hfault]
  | none =>
    simp only [Store.command]
    cases hd : w.store.device? f.device with
    | none =>
      show w.store.device? device = _
      by_cases hdevice : f.device = device
      · subst hdevice
        simp [hd]
      · simp [hdevice]
    | some d =>
      cases hname : Command.ofName? f.command with
      | none => exact hsame fun d => by rw [Flight.upon, hfault, hname]
      | some c =>
        have hupon : ∀ d, f.upon d = d.apply c f.value := fun d => by
          rw [Flight.upon, hfault, hname]
        simp only [hupon]
        exact Store.device?_applyCommand w.store f.device c f.value device

/-! ### Commands that come down one after the other -/

theorem landAll_writes (fs : List Flight) (w : World) :
    (fs.foldl land w).writes = (fs.map Motion.down).foldl Motion.note w.writes := by
  induction fs generalizing w with
  | nil => rfl
  | cons f fs ih =>
    rw [List.foldl_cons, ih, land_eq]
    rfl

theorem device?_landAll (fs : List Flight) (w : World) (device : String) :
    (fs.foldl land w).store.device? device = (w.store.device? device).map fun d =>
      (fs.filter (·.device == device)).foldl (fun d f => f.upon d) d := by
  induction fs generalizing w with
  | nil => simp
  | cons f fs ih =>
    rw [List.foldl_cons, ih, device?_land, Option.map_map]
    refine congrArg (Option.map · _) (funext fun d => ?_)
    rw [Function.comp_apply, List.filter_cons]
    split <;> rfl

/-- Commands with numbers of their own leave what they come to in their order. -/
theorem landAll_landed {fs : List Flight} {w : World} (distinct : (fs.map (·.ticket)).Nodup)
    (fresh : ∀ f ∈ fs, f.ticket ∉ w.landed.keys) :
    ∃ rs, (fs.foldl land w).landed = w.landed ++ rs ∧ rs.map (·.1) = fs.map (·.ticket) := by
  induction fs generalizing w with
  | nil => exact ⟨[], (List.append_nil _).symm, rfl⟩
  | cons f fs ih =>
    rw [List.map_cons, List.nodup_cons] at distinct
    have hlanded : (w.land f).landed = w.landed ++ [(f.ticket, (w.resultOf f).map (·.1))] := by
      rw [land_eq]
      exact Table.put_of_not_mem (fresh f List.mem_cons_self) _
    obtain ⟨rs, hrs, hkeys⟩ := ih distinct.2 (w := w.land f) fun g hg h => by
      rw [hlanded, Table.keys, List.map_append, List.mem_append] at h
      rcases h with h | h
      · exact fresh g (List.mem_cons_of_mem _ hg) h
      · have heq : g.ticket = f.ticket := List.mem_singleton.1 h
        exact distinct.1 (heq ▸ List.mem_map_of_mem hg)
    exact ⟨(f.ticket, _) :: rs, by rw [List.foldl_cons, hrs, hlanded, List.append_assoc]; rfl,
      by rw [List.map_cons, List.map_cons, hkeys]⟩

variable {start : World} {orders : List DeviceOrder} {es : List Motion}
  {w : World}

theorem InTurn.tickets_nodup (h : InTurn start orders es w) :
    (w.flights.map (·.ticket)).Nodup :=
  List.Nodup.map_on (fun _ hf _ hg => h.same_ticket hf hg) (List.Nodup.of_map _ h.alone)

/-- No two commands on their way are to one device. -/
theorem InTurn.to_device (h : InTurn start orders es w) (device : String) :
    w.flights.filter (·.device == device) = [] ∨
      ∃ f, w.flights.filter (·.device == device) = [f] := by
  match hto : w.flights.filter (·.device == device) with
  | [] => exact .inl hto
  | [f] => exact .inr ⟨f, hto⟩
  | f :: g :: r =>
    have hnodup : ((f :: g :: r).map (·.device)).Nodup :=
      hto ▸ h.alone.sublist (List.filter_sublist.map _)
    have hdevice : ∀ k ∈ f :: g :: r, k.device = device := fun k hk => by
      rw [← hto, List.mem_filter, beq_iff_eq] at hk
      exact hk.2
    have hfg : f.device = g.device :=
      (hdevice f (by simp)).trans (hdevice g (by simp)).symm
    simp [hfg] at hnodup

/-- The commands that come down in a length of time, in their order. -/
structure Descent (d : Duration) (w : World) (fs : List Flight) : Prop where
  due : fs.Perm (w.flights.filter fun f => decide (f.due ≤ w.elapsed + d))
  flights : (w.elapse d).flights = w.flights.filter fun f => !decide (f.due ≤ w.elapsed + d)
  landed : ∃ rs, (w.elapse d).landed = w.landed ++ rs ∧ rs.map (·.1) = fs.map (·.ticket)
  tickets : (w.elapse d).tickets = w.tickets
  writes : (w.elapse d).writes = (fs.map Motion.down).foldl Motion.note w.writes
  devices : ∀ device, (w.elapse d).store.device? device = (w.store.device? device).map fun row =>
    (fs.filter (·.device == device)).foldl (fun row f => f.upon row) row

namespace Descent

variable {d : Duration} {fs : List Flight}

theorem mem (h : Descent d w fs) {f : Flight} :
    f ∈ fs ↔ f ∈ w.flights ∧ f.due ≤ w.elapsed + d := by
  rw [h.due.mem_iff, List.mem_filter, decide_eq_true_eq]

theorem filter (h : Descent d w fs) (device : String) : (fs.filter (·.device == device)).Perm
    ((w.flights.filter (·.device == device)).filter fun f => decide (f.due ≤ w.elapsed + d)) := by
  rw [List.filter_comm]
  exact h.due.filter _

theorem sent (fs : List Flight) (es : List Motion) :
    (es ++ fs.map Motion.down).filterMap Motion.sent? = es.filterMap Motion.sent? := by
  rw [List.filterMap_append, List.filterMap_map]
  simp [Motion.sent?]

end Descent

theorem InTurn.descent (h : InTurn start orders es w) (d : Duration) :
    ∃ fs, Descent d w fs := by
  obtain ⟨fs, hperm, helapse⟩ := elapse_eq d w
  have hmem : ∀ f ∈ fs, f ∈ w.flights := fun f hf => (List.mem_filter.1 (hperm.mem_iff.1 hf)).1
  obtain ⟨s, l, t, hshape⟩ := landAll_shape fs (w.advanced d)
  refine ⟨fs, hperm, ?_, ?_, ?_, ?_, fun device => ?_⟩
  · rw [helapse, hshape]
    rfl
  · rw [helapse]
    refine landAll_landed ((hperm.map _).nodup_iff.2
      (h.tickets_nodup.sublist (List.filter_sublist.map _))) fun f hf hkey => ?_
    obtain ⟨p, hp, heq⟩ := List.mem_map.1 hkey
    exact (h.aloft f (hmem f hf)).2 p hp heq
  · rw [helapse, hshape]
    rfl
  · rw [helapse]
    exact landAll_writes fs _
  · rw [helapse]
    exact device?_landAll fs _ device

/-- What comes down while time passes is what was due. -/
theorem InTurn.motions_elapse (h : InTurn start orders es w) {d : Duration} {fs : List Flight}
    (hd : Descent d w fs) : motions w (w.elapse d) = fs.map .down := by
  obtain ⟨rs, hlanded, hkeys⟩ := hd.landed
  have hnone : (w.elapse d).flights.filter (fun f => decide (w.tickets ≤ f.ticket)) = [] := by
    rw [hd.flights]
    exact List.filter_eq_nil_iff.2 fun f hf => by
      simpa using h.ticket_lt (List.mem_filter.1 hf).1
  have hfound : rs.filterMap (fun p => (w.flights.find? (·.ticket == p.1)).map Motion.down)
      = (rs.map (·.1)).filterMap fun t => (w.flights.find? (·.ticket == t)).map Motion.down := by
    rw [List.filterMap_map]
    rfl
  rw [motions, hnone, hlanded, List.drop_left, hfound, hkeys, List.filterMap_map, List.map_nil,
    List.append_nil, ← List.filterMap_eq_map]
  refine List.filterMap_congr fun f hf => ?_
  rw [Function.comp_apply, h.find_ticket (hd.mem.1 hf).1]
  rfl

/-- The command that comes down to a device, if one does, has had its turn. -/
theorem InTurn.turns_elapse (h : InTurn start orders es w) {d : Duration} {fs : List Flight}
    (hd : Descent d w fs) (device : String) : ∃ past : List Flight,
      (es ++ fs.map Motion.down).filter (·.on device)
        = past.flatMap turn ++ ((w.elapse d).flights.filter (·.device == device)).map .up ∧
      (w.elapse d).store.device? device
        = (start.store.device? device).map fun row => past.foldl (fun row f => f.upon row) row := by
  obtain ⟨past, hpast, hrow⟩ := h.turns device
  have hdown := hd.filter device
  have hon : (es ++ fs.map Motion.down).filter (·.on device)
      = past.flatMap turn ++ (w.flights.filter (·.device == device)).map .up
        ++ (fs.filter (·.device == device)).map .down := by
    rw [List.filter_append, hpast, List.filter_map]
    rfl
  rw [hon, hd.flights, List.filter_comm, hd.devices device, hrow]
  rcases h.to_device device with hnone | ⟨f, hone⟩
  · rw [hnone, List.filter_nil, List.perm_nil] at hdown
    rw [hnone, hdown]
    exact ⟨past, by simp, by rw [Option.map_map]; rfl⟩
  · by_cases hdue : f.due ≤ w.elapsed + d
    · rw [hone, List.filter_cons_of_pos (by simpa using hdue), List.filter_nil,
        List.perm_singleton] at hdown
      rw [hone, hdown]
      refine ⟨past ++ [f], by simp [hdue, turn], ?_⟩
      rw [Option.map_map]
      refine congrArg (Option.map · _) (funext fun d => ?_)
      simp
    · rw [hone, List.filter_cons_of_neg (by simpa using hdue), List.filter_nil,
        List.perm_nil] at hdown
      rw [hone, hdown]
      exact ⟨past, by simp [hdue], by rw [Option.map_map]; rfl⟩

/-- While time passes commands come down, each to its own device. -/
theorem InTurn.elapse (h : InTurn start orders es w) (d : Duration) :
    InTurn start orders (es ++ motions w (w.elapse d)) (w.elapse d) := by
  obtain ⟨fs, hd⟩ := h.descent d
  obtain ⟨rs, hlanded, hkeys⟩ := hd.landed
  have hkey : ∀ p ∈ rs, ∃ g ∈ fs, g.ticket = p.1 := fun p hp =>
    List.mem_map.1 (hkeys ▸ List.mem_map_of_mem hp)
  rw [h.motions_elapse hd]
  exact {
    alone := by
      rw [hd.flights]
      exact h.alone.sublist (List.filter_sublist.map _)
    turns := h.turns_elapse hd
    noted := by rw [hd.writes, h.noted, List.foldl_append]
    sent := Descent.sent fs es ▸ h.sent
    numbered := Descent.sent fs es ▸ h.numbered
    fresh := by
      rw [Descent.sent, hd.tickets]
      exact h.fresh
    aloft := fun f hf => by
      rw [hd.flights, List.mem_filter] at hf
      refine ⟨Descent.sent fs es ▸ (h.aloft f hf.1).1, fun p hp hticket => ?_⟩
      rw [hlanded, List.mem_append] at hp
      rcases hp with hp | hp
      · exact (h.aloft f hf.1).2 p hp hticket
      · obtain ⟨g, hg, hgp⟩ := hkey p hp
        have hgf := h.same_ticket (hd.mem.1 hg).1 hf.1 (hgp.trans hticket)
        simpa [hgf ▸ (hd.mem.1 hg).2] using hf.2
    landed := fun p hp => by
      rw [hlanded, List.mem_append] at hp
      rw [hd.tickets]
      rcases hp with hp | hp
      · exact h.landed p hp
      · obtain ⟨g, hg, hgp⟩ := hkey p hp
        exact hgp ▸ h.ticket_lt (hd.mem.1 hg).1 }

/-! ## Commands that go up -/

variable {v : World}

/-- A command may go up to a device that no other is on its way to. -/
theorem InTurn.launch (h : InTurn start orders es v) {f : Flight}
    (free : ∀ g ∈ v.flights, g.device ≠ f.device) (hticket : f.ticket = v.tickets)
    (hflights : w.flights = v.flights ++ [f]) (hlanded : w.landed = v.landed)
    (htickets : w.tickets = v.tickets + 1) (hwrites : w.writes = v.writes.put f.device f.ticket)
    (hdevices : w.store.devices = v.store.devices) :
    InTurn start (orders ++ [f.order]) (es ++ motions v w) w := by
  have hmotions : motions v w = [.up f] := by
    have hold : v.flights.filter (fun g => decide (v.tickets ≤ g.ticket)) = [] :=
      List.filter_eq_nil_iff.2 fun g hg => by simpa using h.ticket_lt hg
    rw [motions, hlanded, List.drop_length, hflights, List.filter_append, hold]
    simp [hticket]
  have hsent : (es ++ motions v w).filterMap Motion.sent? = es.filterMap Motion.sent? ++ [f] := by
    rw [hmotions, List.filterMap_append]
    rfl
  have hlt : ∀ g ∈ es.filterMap Motion.sent? ++ [f], g.ticket < w.tickets := by
    intro g hg
    rw [htickets]
    rcases List.mem_append.1 hg with hg | hg
    · exact Nat.lt_succ_of_lt (h.fresh g hg)
    · rw [List.mem_singleton.1 hg, hticket]
      exact Nat.lt_succ_self _
  exact {
    alone := by
      rw [hflights, List.map_append, List.nodup_append]
      refine ⟨h.alone, by simp, fun a ha b hb heq => ?_⟩
      obtain ⟨g, hg, rfl⟩ := List.mem_map.1 ha
      exact free g hg (heq.trans (List.mem_singleton.1 hb))
    turns := fun device => by
      obtain ⟨past, hpast, hrow⟩ := h.turns device
      refine ⟨past, ?_, ?_⟩
      · rw [hmotions, hflights, List.filter_append, List.filter_append, hpast, List.map_append,
          List.append_assoc]
        by_cases hdevice : f.device = device <;> simp [hdevice]
      · rw [Store.device?, hdevices]
        exact hrow
    noted := by
      rw [hwrites, h.noted, hmotions, List.foldl_append]
      rfl
    sent := by
      rw [hsent, List.map_append]
      exact h.sent.append_right _
    numbered := by
      rw [hsent, List.map_append, List.pairwise_append]
      refine ⟨h.numbered, by simp, fun a ha b hb => ?_⟩
      obtain ⟨g, hg, rfl⟩ := List.mem_map.1 ha
      rw [List.mem_singleton.1 hb]
      exact Nat.lt_of_lt_of_eq (h.fresh g hg) hticket.symm
    fresh := hsent ▸ hlt
    aloft := fun g hg => by
      rw [hsent, hlanded]
      rcases List.mem_append.1 (hflights ▸ hg) with hg | hg
      · exact ⟨List.mem_append_left _ (h.aloft g hg).1, (h.aloft g hg).2⟩
      · obtain rfl := List.mem_singleton.1 hg
        exact ⟨List.mem_append_right _ (by simp),
          fun p hp heq => Nat.lt_irrefl _ (hticket ▸ heq ▸ h.landed p hp)⟩
    landed := fun p hp => by
      rw [htickets]
      exact Nat.lt_succ_of_lt (h.landed p (hlanded ▸ hp)) }

end World

/-! ## The last command of each device -/

namespace Flight

variable {f g : Flight}

/-- Only the own entry of a command is struck out. -/
theorem get?_strike (f : Flight) (t : Table String Nat) (device : String) :
    (f.strike t).get? device
      = if f.device = device ∧ t.get? device = some f.ticket then none else t.get? device := by
  unfold strike
  by_cases hdevice : f.device = device
  · subst hdevice
    by_cases hown : t.get? f.device = some f.ticket
    · rw [if_pos hown, Table.get?_erase, if_pos rfl, if_pos ⟨rfl, hown⟩]
    · rw [if_neg hown, if_neg fun h => hown h.2]
  · have hother : ¬ (f.device = device ∧ t.get? device = some f.ticket) := fun h => hdevice h.1
    rw [if_neg hother]
    by_cases hown : t.get? f.device = some f.ticket
    · rw [if_pos hown, Table.get?_erase, if_neg hdevice]
    · rw [if_neg hown]

/-- A command that is over may be struck out before the next one is entered or after it: the
table says the same. -/
theorem get?_strike_put (hticket : f.ticket ≠ g.ticket) (t : Table String Nat)
    (device : String) : (f.strike (t.put g.device g.ticket)).get? device
      = ((f.strike t).put g.device g.ticket).get? device := by
  rw [get?_strike, Table.get?_put, Table.get?_put, get?_strike]
  by_cases hdevice : g.device = device
  · have hother : ¬ (f.device = device ∧ some g.ticket = some f.ticket) := fun h =>
      hticket (Option.some.inj h.2).symm
    rw [if_pos hdevice, if_pos hdevice, if_neg hother]
  · rw [if_neg hdevice, if_neg hdevice]

end Flight

namespace Motion

/-- What becomes of the entry of one device. -/
def entry (n : Option Nat) : Motion → Option Nat
  | up f => some f.ticket
  | down f => if n = some f.ticket then none else n

theorem get?_note (t : Table String Nat) (m : Motion) (device : String) :
    (note t m).get? device = if m.on device then entry (t.get? device) m else t.get? device := by
  have hon : m.on device = true ↔ m.flight.device = device := beq_iff_eq
  cases m with
  | up f =>
    show (t.put f.device f.ticket).get? device = _
    rw [Table.get?_put]
    exact if_congr hon.symm rfl rfl
  | down f =>
    show (f.strike t).get? device = _
    rw [Flight.get?_strike]
    by_cases hdevice : f.device = device
    · rw [if_pos (hon.2 hdevice), ← hdevice]
      simp [entry]
    · rw [if_neg fun h => hdevice (hon.1 h), if_neg fun h => hdevice h.1]

/-- The entry of a device comes from the commands to it. -/
theorem get?_foldl_note (es : List Motion) (t : Table String Nat) (device : String) :
    (es.foldl note t).get? device = (es.filter (·.on device)).foldl entry (t.get? device) := by
  induction es generalizing t with
  | nil => rfl
  | cons m es ih =>
    rw [List.foldl_cons, ih, get?_note, List.filter_cons]
    split <;> rfl

theorem foldl_entry_turn (fs : List Flight) : (fs.flatMap turn).foldl entry none = none := by
  induction fs with
  | nil => rfl
  | cons f fs ih => simpa [turn, entry] using ih

theorem filterMap_sent?_turn (fs : List Flight) : (fs.flatMap turn).filterMap sent? = fs := by
  induction fs with
  | nil => rfl
  | cons f fs ih => simpa [turn, List.filterMap_cons] using ih

theorem filter_sent? (es : List Motion) (device : String) :
    (es.filterMap sent?).filter (·.device == device)
      = (es.filter (·.on device)).filterMap sent? := by
  induction es with
  | nil => rfl
  | cons m es ih =>
    cases m with
    | up f => by_cases hdevice : f.device = device <;> simp [hdevice, ih]
    | down f => by_cases hdevice : f.device = device <;> simp [List.filterMap_cons, hdevice, ih]

end Motion

namespace World

variable {start : World} {orders : List DeviceOrder} {es : List Motion}
  {w : World}

/-- The entry of a device comes from the one command that is on its way to it, whatever was
entered before. -/
theorem InTurn.entry (h : InTurn start orders es w) (t : Table String Nat) (device : String) :
    (∃ f, w.flights.filter (·.device == device) = [f] ∧
      (es.foldl Motion.note t).get? device = some f.ticket) ∨
    w.flights.filter (·.device == device) = [] := by
  obtain ⟨past, hpast, -⟩ := h.turns device
  rcases h.to_device device with hnone | ⟨f, hone⟩
  · exact .inr hnone
  · refine .inl ⟨f, hone, ?_⟩
    rw [Motion.get?_foldl_note, hpast, hone, List.foldl_append]
    rfl

/-- The entry of a device is the one command that is on its way to it. -/
theorem InTurn.last_entry (h : InTurn start orders es w) (device : String) :
    (es.foldl Motion.note []).get? device
      = (w.flights.find? (·.device == device)).map (·.ticket) := by
  rw [← List.head?_filter]
  rcases h.entry [] device with ⟨f, hone, hentry⟩ | hnone
  · rw [hentry, hone]
    rfl
  · obtain ⟨past, hpast, -⟩ := h.turns device
    rw [Motion.get?_foldl_note, hpast, hnone, List.foldl_append, Table.get?_nil,
      Motion.foldl_entry_turn]
    rfl

/-- Whoever waits for the last command to a device waits for the one that is on its way to
it. -/
theorem InTurn.pending (h : InTurn start orders es w) (device : String) :
    w.pending? device = w.flights.find? (·.device == device) := by
  unfold pending?
  rw [h.noted]
  rcases h.entry start.writes device with ⟨f, hone, hentry⟩ | hnone
  · have hmem : f ∈ w.flights ∧ (f.device == device) = true :=
      List.mem_filter.1 (hone ▸ List.mem_singleton_self f)
    rw [hentry, ← List.head?_filter, hone, Option.bind_some, List.head?_cons]
    rw [← List.head?_filter, ← List.filter_filter, hone]
    simp
  · have hnobody : ∀ f ∈ w.flights, (f.device == device) = false := fun f hf =>
      Bool.eq_false_iff.2 (List.filter_eq_nil_iff.1 hnone f hf)
    rw [List.find?_eq_none.2 fun f hf => by simp [hnobody f hf], Option.bind_eq_none_iff]
    exact fun n _ => List.find?_eq_none.2 fun f hf => by simp [hnobody f hf]

/-- A device that no command is on its way to is what the commands that were sent to it make
of it in the order in which they were sent. -/
theorem InTurn.settled (h : InTurn start orders es w) {device : String}
    (down : ∀ f ∈ w.flights, f.device ≠ device) :
    w.store.device? device = (start.store.device? device).map fun d =>
      ((es.filterMap Motion.sent?).filter (·.device == device)).foldl (fun d f => f.upon d) d := by
  obtain ⟨past, hpast, hrow⟩ := h.turns device
  have hnone : w.flights.filter (·.device == device) = [] :=
    List.filter_eq_nil_iff.2 fun f hf => by simpa using down f hf
  rw [hrow, Motion.filter_sent?, hpast, hnone, List.map_nil, List.append_nil,
    Motion.filterMap_sent?_turn]

end World

/-! ## Actions -/

section Actions

open Dispatch

variable {start : World} {orders : List DeviceOrder} {es : List Motion}
  {w : World}

/-- What neither sends commands nor changes devices keeps the turns. -/
theorem Plan.Along.inTurn {α : Type} {p : Activity α} (hp : Along World.Steady p)
    (h : InTurn start orders es w) :
    p.Always World.motions (InTurn start orders) (fun _ => InTurn start orders) es w :=
  hp.always InTurn.steady (fun d h => h.elapse d) h

theorem always_look {α β : Type} {f : World → β} {k : β → Activity α}
    {Q : α → List Motion → World → Prop} (h : InTurn start orders es w)
    (hk : (k (f w)).Always World.motions (InTurn start orders) Q es w) :
    (Plan.look f >>= k).Always World.motions (InTurn start orders) Q es w := by
  refine ⟨h, ?_⟩
  rw [show World.motions w (id w) = [] from motions_of_steady h (steady_refl w), List.append_nil]
  exact hk

/-- A wait for a device that no command is on its way to is none. -/
theorem always_awaitLast {Q : Unit → List Motion → World → Prop} {device : String}
    (h : InTurn start orders es w) (free : ∀ f ∈ w.flights, f.device ≠ device) (hQ : Q () es w)
    (n : Nat) : (awaitLast device n).Always World.motions (InTurn start orders) Q es w := by
  have hnone : w.pending? device = none := by
    rw [h.pending]
    exact List.find?_eq_none.2 fun f hf => by simpa using free f hf
  cases n with
  | zero => exact ⟨h, hQ⟩
  | succ n =>
    unfold awaitLast
    refine always_look h ?_
    rw [hnone]
    exact ⟨h, hQ⟩

/-- Whoever has waited for a device finds no command on its way to it. -/
theorem always_awaitDevice (device : String) (h : InTurn start orders es w) :
    (awaitDevice device).Always World.motions (InTurn start orders) (fun _ es w =>
      InTurn start orders es w ∧ ∀ f ∈ w.flights, f.device ≠ device) es w := by
  refine always_look h ?_
  cases hpending : w.pending? device with
  | none =>
    rw [h.pending] at hpending
    have hfree : ∀ f ∈ w.flights, f.device ≠ device := fun f hf => by
      simpa using List.find?_eq_none.1 hpending f hf
    exact always_awaitLast h hfree ⟨h, hfree⟩ _
  | some f =>
    obtain ⟨hmem, hdevice⟩ := mem_of_pending hpending
    obtain ⟨n, hn⟩ : ∃ n, w.flights.length = n + 1 :=
      Nat.exists_eq_add_one.2 (List.length_pos_of_mem hmem)
    rw [hn]
    unfold awaitLast
    refine always_look h ?_
    rw [hpending]
    -- the wait ends when the command comes down, and no other is on its way to the device
    obtain ⟨fs, hd⟩ := h.descent (f.due - w.elapsed)
    have hfree : ∀ g ∈ (w.elapse (f.due - w.elapsed)).flights, g.device ≠ device := by
      intro g hg hgd
      rw [hd.flights, List.mem_filter] at hg
      obtain rfl : g = f := List.inj_on_of_nodup_map h.alone hg.1 hmem (hgd.trans hdevice.symm)
      have hdue : g.due ≤ w.elapsed + (g.due - w.elapsed) :=
        Nat.sub_le_iff_le_add'.1 (Nat.le_refl _)
      simp [hdue] at hg
    have hlater := h.elapse (f.due - w.elapsed)
    exact ⟨h, fun t _ => h.elapse t, always_awaitLast hlater hfree ⟨hlater, hfree⟩ n⟩

/-- A command that is sent: where it goes, and what stays as it is. -/
theorem takeOff_launches (device command : String) (value : Option String) (w : World) :
    ∃ f : Flight, f.order = (device, command, value) ∧ f.ticket = w.tickets ∧
      (takeOff device command value w).2.flights = w.flights ++ [f] ∧
      (takeOff device command value w).2.landed = w.landed ∧
      (takeOff device command value w).2.tickets = w.tickets + 1 ∧
      (takeOff device command value w).2.writes = w.writes.put f.device f.ticket ∧
      (takeOff device command value w).2.store.devices = w.store.devices := by
  obtain ⟨t, ht⟩ := w.consult_failing .deviceCommand
  unfold takeOff
  rcases hc : w.consult .deviceCommand with ⟨fault, v⟩
  obtain rfl : v = w.failing t := by rw [hc] at ht; exact ht
  exact ⟨_, rfl, rfl, rfl, rfl, rfl, rfl, rfl⟩

/-- A command is sent at once; the rest is to wait for it and to queue the job that undoes it. -/
theorem control_sends (a : DeviceAction) (o : Occasion) : ∃ rest : World → Activity _,
    (control a o).run = .act (fun w =>
      (takeOff a.device a.command.name (a.value.map Setting.stored) w).2) rest ∧
    ∀ w, Plan.Along World.Steady (rest w) := by
  refine ⟨_, rfl, fun w => ?_⟩
  exact Work.Along.bind (.bind (.lift (.sleep _)) fun _ => .bind (.lift (.look steady_refl _))
    fun r => .ofExcept _) fun change => (along_undo ordinary_unmoved a o change).mono Unmoved.steady

theorem always_limited (a : DeviceAction) (o : Occasion) (seconds : Float)
    (h : InTurn start orders es w)
    (free : ∀ f ∈ w.flights, f.device ≠ a.device) :
    (limited seconds (control a o).run).Always World.motions
      (InTurn start (orders ++ (Action.device a).orders))
      (fun _ => InTurn start (orders ++ (Action.device a).orders)) es w := by
  have hmono : ∀ {es v}, InTurn start orders es v →
      InTurn start (orders ++ (Action.device a).orders) es v := fun h =>
    h.mono (List.sublist_append_left _ _)
  refine ⟨hmono h, fun t _ => hmono (h.elapse t), ?_⟩
  have h' := h.elapse 0
  cases limit? seconds with
  | none => exact ⟨hmono h', hmono h'⟩
  | some d =>
    obtain ⟨rest, hrun, hrest⟩ := control_sends a o
    refine Plan.Always.within (along_control working_atOnce.toDispatching a o) (Q := fun _ =>
      InTurn start (orders ++ (Action.device a).orders)) ?_ d
    rw [hrun]
    obtain ⟨f, horder, hticket, hflights, hlanded, htickets, hwrites, hdevices⟩ :=
      takeOff_launches a.device a.command.name (a.value.map Setting.stored) (w.elapse 0)
    have hdevice : f.device = a.device := congrArg Prod.fst horder
    -- none has gone up in the moment before it is sent
    have hfree : ∀ g ∈ (w.elapse 0).flights, g.device ≠ f.device := by
      obtain ⟨fs, hd⟩ := h.descent 0
      intro g hg
      rw [hdevice]
      exact free g (List.mem_filter.1 (hd.flights ▸ hg)).1
    have hsent := h'.launch hfree hticket hflights hlanded htickets hwrites hdevices
    rw [horder] at hsent
    exact ⟨hmono h', (hrest _).inTurn hsent⟩

/-- An action is tried. -/
theorem always_tryOne (i : Nat) (a : Action) (o : Occasion) (h : InTurn start orders es w) :
    (tryOne i a o).Always World.motions (InTurn start (orders ++ a.orders))
      (fun _ => InTurn start (orders ++ a.orders)) es w := by
  have hmono : ∀ {es v}, InTurn start orders es v → InTurn start (orders ++ a.orders) es v :=
    fun h => h.mono (List.sublist_append_left _ _)
  have hharmless : a.harmless = true → (tryOne i a o).Always World.motions
      (InTurn start (orders ++ a.orders)) (fun _ => InTurn start (orders ++ a.orders)) es w :=
    fun ha => ((along_tryOne_harmless ordinary_unmoved ha i o).mono Unmoved.steady).inTurn (hmono h)
  cases a with
  | device d =>
    refine Plan.always_bind ((always_awaitDevice d.device h).imp (fun _ _ => hmono)
      fun _ es v _ ⟨hv, free⟩ => always_look (hmono hv) (Plan.always_bind ?_))
    exact (always_limited d o _ hv free).imp (fun _ _ => id) fun _ _ _ hI _ => ⟨hI, hI⟩
  | notice a => exact hharmless rfl
  | webhook a => exact hharmless rfl
  | job a => exact hharmless rfl

end Actions

/-! ## Sequences of actions -/

/-- A step of a sequence: an action dispatched, a length of time that passes, or a change of
anything but devices and commands, such as the time limit, how long commands take, or what
fails. -/
inductive Stage where
  | act (index : Nat) (a : Action) (o : Occasion)
  | pause (d : Duration)
  | aside (f : World → World) (steady : ∀ w, World.Steady w (f w))

namespace Stage

/-- What happens in a step. -/
def plan : Stage → Activity Unit
  | act i a o => do
    let _ ← Dispatch.tryOne i a o
    pure ()
  | pause d => Plan.sleep d
  | aside f _ => Plan.modify f

/-- What a step asks of a device. -/
def orders : Stage → List DeviceOrder
  | act _ a _ => a.orders
  | _ => []

/-- Steps one after the other. -/
def planAll : List Stage → Activity Unit
  | [] => pure ()
  | x :: r => do
    x.plan
    planAll r

variable {start : World} {orders : List DeviceOrder} {es : List Motion}
  {w : World}

open World

theorem always_plan (x : Stage) (h : InTurn start orders es w) :
    x.plan.Always World.motions (InTurn start (orders ++ x.orders))
      (fun _ => InTurn start (orders ++ x.orders)) es w := by
  cases x with
  | act i a o =>
    exact Plan.always_bind ((always_tryOne i a o h).imp (fun _ _ => id) fun _ _ _ hI _ => ⟨hI, hI⟩)
  | pause d =>
    rw [show orders ++ (pause d).orders = orders from List.append_nil _]
    exact (Plan.Along.sleep d).inTurn h
  | aside f steady =>
    rw [show orders ++ (aside f steady).orders = orders from List.append_nil _]
    exact (Plan.Along.modify steady).inTurn h

theorem always_planAll (xs : List Stage) (h : InTurn start orders es w) :
    (planAll xs).Always World.motions (InTurn start (orders ++ xs.flatMap Stage.orders))
      (fun _ => InTurn start (orders ++ xs.flatMap Stage.orders)) es w := by
  induction xs generalizing orders es w with
  | nil =>
    rw [List.flatMap_nil, List.append_nil]
    exact ⟨h, h⟩
  | cons x xs ih =>
    rw [List.flatMap_cons, ← List.append_assoc]
    refine Plan.always_bind ((always_plan x h).imp
      (fun _ _ h => h.mono (List.sublist_append_left _ _)) fun _ _ _ _ hx => ih hx)

end Stage

/-- **Commands take turns.** Actions are dispatched one after the other, while settings,
delays and failures may change between them and any time may pass. At every moment at most
one command is on its way to a device; the commands to it come down one by one in the order
in which they were dispatched, each at most once, and it is what they have made of it. The
table of last commands, in which each is entered as it goes up and struck out as it comes down,
holds for each device the one that is on its way to it, and that one is waited for. -/
theorem commands_take_turns {w : World} (idle : w.flights = [])
    (fresh : ∀ p ∈ w.landed, p.1 < w.tickets) (xs : List Stage) :
    (Stage.planAll xs).Always World.motions
      (fun es v => World.InTurn w (xs.flatMap Stage.orders) es v ∧
        v.writes = es.foldl Motion.note w.writes ∧ ∀ device,
        ((es.foldl Motion.note []).get? device
            = (v.flights.find? (·.device == device)).map (·.ticket) ∧
          v.pending? device = v.flights.find? (·.device == device)) ∧
        ((∀ f ∈ v.flights, f.device ≠ device) → v.store.device? device
          = (w.store.device? device).map fun d =>
            ((es.filterMap Motion.sent?).filter (·.device == device)).foldl
              (fun d f => f.upon d) d))
      (fun _ => World.InTurn w (xs.flatMap Stage.orders)) [] w := by
  have hbegin : World.InTurn w [] [] w := {
    alone := by rw [idle]; exact .nil
    turns := fun device => ⟨[], by rw [idle]; rfl, by simp⟩
    noted := rfl
    sent := .slnil
    numbered := .nil
    fresh := fun _ hf => absurd hf List.not_mem_nil
    aloft := fun f hf => absurd (idle ▸ hf) List.not_mem_nil
    landed := fresh }
  exact (Stage.always_planAll xs hbegin).imp
    (fun _ _ h => ⟨h, h.noted, fun device =>
      ⟨⟨h.last_entry device, h.pending device⟩, h.settled⟩⟩) fun _ _ _ _ h => h

/-- A world in which the fan takes longer to come on than an action may take. -/
def World.sluggish : World :=
  { World.quiet 0 with
    settings := { (World.quiet 0).settings with actionTimeout := 0.15 }
    store := { devices := [{ id := "fan", name := "Fan" }] }
    delays := [("TURN_ON", 400000)] }

/-- The fan on, and then the other way round. -/
def Stage.switching : List Stage :=
  let o : Occasion := { ruleId := 1, ruleName := "Air", now := .ofInstant 0 }
  [.act 0 (.device ⟨"fan", .turnOn, none, none⟩) o,
    .act 1 (.device ⟨"fan", .toggle, none, none⟩) o]

/-- The first command is given up; the second waits for it all the same, and finds the fan
on. -/
theorem commands_take_turns_fan : ∃ es,
    World.InTurn World.sluggish [("fan", "TURN_ON", none), ("fan", "TOGGLE", none)] es
      ((Stage.planAll Stage.switching).run .sluggish).2 ∧
    ((Stage.planAll Stage.switching).run .sluggish).2.store.devices.map (·.status) = ["off"] := by
  obtain ⟨later, hlater⟩ := (commands_take_turns (w := .sluggish) rfl
    (fun _ hp => absurd hp List.not_mem_nil) Stage.switching).run
  exact ⟨_, hlater, by decide +kernel⟩

end Glasshouse
