/-
Glasshouse.Proofs.Dispatch.Timeline — timed commands to one device that overlap. The job that
undoes a timed command is fixed when the command is carried out: it leads back to the
status that the command found, whatever other commands do meanwhile. Once all jobs are
done, the device has the status that the command whose job came last found
(`Timeline.ends_found`). That is the status from before all commands where each of them
that begins while no other is running outlasts those that begin while it runs
(`Timeline.encloses`). Main statement: `timed_commands_lead_back`.

How the proof goes. What a timed command fixes is told by `TimedCommand.Begins`; a `Timeline`
is built from begins and ends, and `Enclosing` is kept by each of them (`Enclosing.begins`,
`Enclosing.ends`).

Side conditions of the main statement. The device is on or off at first, and the commands
are no setting of values: other statuses and values that were reset are not given back
(Dispatch.Revert). No two commands come at once, a job is carried out when it is due, and
nothing else commands the device.
-/
import Glasshouse.Proofs.Dispatch.TimedCommand

namespace Glasshouse

open Calendar Plan

/-! ## Timed commands -/

/-- A timed command as it was carried out. -/
structure TimedCommand where
  action : DeviceAction
  minutes : Nat
  occasion : Occasion
  /-- The status that the device had. -/
  found : String
  /-- The payload of the job that undoes the command. -/
  payload : Doc

namespace TimedCommand

/-- When a timed command is carried out. -/
def begun (t : TimedCommand) : Instant := t.occasion.now.instant

/-- When a timed command is to be undone. -/
def due (t : TimedCommand) : Instant := t.begun + t.minutes * minute

/-- A timed command to a device is tried, and it succeeds: it changes the status and queues its
job. No earlier command is still on its way to the device. -/
structure Begins (device : String) (t : TimedCommand) (v w : World) : Prop where
  target : t.action.device = device
  command : t.action.command ≠ .setValue
  duration : t.action.duration = some t.minutes
  found : v.status? device = some t.found
  done : ∃ i x change job, (Dispatch.tryOne i (.device t.action) t.occasion).run v = (x, w) ∧
    x.result = .ok (.device change (some job)) ∧
    ∃ j ∈ w.store.jobs, j.id = job ∧ j.payload = t.payload
  clear : v.NoFlightTo device

/-- The payload of a timed command was made from what the command found, `on` or `off`. -/
structure Awaited (device : String) (t : TimedCommand) : Prop where
  target : t.action.device = device
  command : t.action.command ≠ .setValue
  plain : t.found = "on" ∨ t.found = "off"
  revert : ∃ change r, change.previousStatus = t.found ∧
    Revert.after t.action change t.minutes t.occasion = .ok r ∧ t.payload = r.toDoc

variable {device : String} {t : TimedCommand} {v w : World}

/-- A timed command changes the device, and leaves the payload that was made from what it
found. -/
theorem Begins.change (h : t.Begins device v w) : ∃ d change r, v.store.device? device = some d ∧
    d.status = t.found ∧ change.previousStatus = t.found ∧
    Revert.after t.action change t.minutes t.occasion = .ok r ∧ t.payload = r.toDoc ∧
    w.store.device? device
      = some (d.apply t.action.command (t.action.value.map Setting.stored)) := by
  obtain ⟨i, x, change, job, hrun, hresult, j, hj, hid, hpayload⟩ := h.done
  obtain ⟨d, r, hd, hprevious, hrevert, hleft, hjobs⟩ :=
    Dispatch.tryOne_timed (h.target ▸ h.clear) hrun h.duration hresult
  rw [h.target] at hd hleft
  have hfound : d.status = t.found := by
    have hstatus := h.found
    rw [World.status?, hd] at hstatus
    exact Option.some.inj hstatus
  exact ⟨d, change, r, hd, hfound, hprevious.trans hfound, hrevert,
    hpayload.symm.trans (hjobs j hj hid), hleft⟩

/-- The payload of a timed command says when it is due. -/
theorem Begins.field?_due (h : t.Begins device v w) :
    ∃ m : Moment, t.payload.field? "due_at" = some (.str m.text) ∧ m.instant = t.due := by
  obtain ⟨d, change, r, -, -, -, hrevert, hpayload, -⟩ := h.change
  exact ⟨r.due, hpayload ▸ r.field?_due, (Revert.after_eq_ok hrevert).2.2.2⟩

theorem Begins.awaited (h : t.Begins device v w) (plain : t.found = "on" ∨ t.found = "off") :
    t.Awaited device := by
  obtain ⟨d, change, r, -, -, hfound, hrevert, hpayload, -⟩ := h.change
  exact ⟨h.target, h.command, plain, change, r, hfound, hrevert, hpayload⟩

/-- A timed command leaves a device that is on or off. -/
theorem Begins.leaves (h : t.Begins device v w) :
    ∃ s, w.status? device = some s ∧ (s = "on" ∨ s = "off") := by
  obtain ⟨d, change, r, -, hfound, -, -, -, hd⟩ := h.change
  refine ⟨_, by rw [World.status?, hd]; rfl, ?_⟩
  have hcommand := h.command
  cases hc : t.action.command with
  | setValue => exact absurd hc hcommand
  | turnOn => exact .inl rfl
  | turnOff | reset => exact .inr rfl
  | toggle =>
    by_cases hon : d.status = "on"
    · exact .inr (by simp [DeviceRow.apply, hon])
    · exact .inl (by simp [DeviceRow.apply, hon])

end TimedCommand

/-- A payload carried out; what cannot be carried out changes nothing. -/
def World.carriedOut (payload : Doc) (w : World) : World :=
  match w.store.carryOut payload with
  | some (.ok (_, s)) => { w with store := s }
  | _ => w

/-- The payload of a timed command leads back to what the command found. -/
theorem TimedCommand.Awaited.status {device : String} {t : TimedCommand} (h : t.Awaited device)
    {w : World} {s : String} (hs : w.status? device = some s) :
    (w.carriedOut t.payload).status? device = some t.found := by
  obtain ⟨change, r, hfound, hrevert, hpayload⟩ := h.revert
  obtain ⟨d, hd, -⟩ := Option.map_eq_some_iff.1 hs
  obtain ⟨change', hcarried⟩ := Store.carryOut_revert hrevert (h.target ▸ hd)
  unfold World.carriedOut
  rw [hpayload, hcarried]
  show ((w.store.applyCommand t.action.device _ _).device? device).map (·.status) = _
  rw [h.target, Store.device?_applyCommand_self hd, Option.map_some, undo,
    if_neg (by simpa using h.command), hfound]
  rcases h.plain with hon | hoff
  · rw [if_pos (by simp [hon]), hon]
    rfl
  · rw [if_neg (by simp [hoff]), hoff]
    rfl

/-! ## Timelines -/

/-- What happens to a device at some time: a timed command, or the job that undoes one. -/
inductive TimedEvent where
  | begins (t : TimedCommand)
  | ends (t : TimedCommand)

namespace TimedEvent

/-- When an event happens. -/
def time : TimedEvent → Instant
  | begins t => t.begun
  | ends t => t.due

/-- The order of events in time; no two commands come at once. -/
def Before : TimedEvent → TimedEvent → Prop
  | begins t, begins u => t.begun < u.begun
  | e, f => e.time ≤ f.time

theorem Before.le {e f : TimedEvent} (h : e.Before f) : e.time ≤ f.time := by
  cases e <;> cases f <;> first | exact h | exact Int.le_of_lt h

end TimedEvent

/-- Timed commands to a device and the jobs that undo them, until no job waits. Apart from
these events the device is left alone. -/
inductive Timeline (device : String) :
    World → List TimedCommand → List TimedEvent → World → Prop
  | settled (w : World) : Timeline device w [] [] w
  | begins {t : TimedCommand} {v w u : World} {waiting : List TimedCommand}
      {events : List TimedEvent} (begins : t.Begins device v w)
      (rest : Timeline device w (waiting ++ [t]) events u) :
      Timeline device v waiting (.begins t :: events) u
  | ends {t : TimedCommand} {v u : World} {before after : List TimedCommand}
      {events : List TimedEvent}
      (rest : Timeline device (v.carriedOut t.payload) (before ++ after) events u) :
      Timeline device v (before ++ t :: after) (.ends t :: events) u
  | aside {v w u : World} {waiting : List TimedCommand} {events : List TimedEvent}
      (alone : w.store.device? device = v.store.device? device)
      (rest : Timeline device w waiting events u) : Timeline device v waiting events u

namespace Timeline

variable {device : String} {v w : World} {waiting : List TimedCommand}
  {events : List TimedEvent}

theorem begins_of_mem (run : Timeline device v waiting events w) {t : TimedCommand}
    (ht : .begins t ∈ events) : ∃ v w, t.Begins device v w := by
  induction run with
  | settled w => cases ht
  | begins begins rest ih =>
    rcases List.mem_cons.1 ht with heq | ht
    · cases heq
      exact ⟨_, _, begins⟩
    · exact ih ht
  | ends rest ih => exact ih ((List.mem_cons.1 ht).resolve_left nofun)
  | aside alone rest ih => exact ih ht

/-- Every job that waits or comes to wait is done. -/
theorem ends_of_mem (run : Timeline device v waiting events w) {t : TimedCommand}
    (ht : t ∈ waiting ∨ .begins t ∈ events) : .ends t ∈ events := by
  induction run with
  | settled w =>
    rcases ht with ht | ht
    · cases ht
    · cases ht
  | begins begins rest ih =>
    refine List.mem_cons_of_mem _ (ih ?_)
    rcases ht with ht | ht
    · exact .inl (List.mem_append_left _ ht)
    · rcases List.mem_cons.1 ht with heq | ht
      · cases heq
        exact .inl (List.mem_append_right _ (List.mem_singleton.2 rfl))
      · exact .inr ht
  | @ends u v w before after events rest ih =>
    by_cases heq : t = u
    · exact heq ▸ List.mem_cons_self
    refine List.mem_cons_of_mem _ (ih (ht.imp (fun ht => ?_) fun ht => ?_))
    · rcases List.mem_append.1 ht with ht | ht
      · exact List.mem_append_left _ ht
      · exact List.mem_append_right _ ((List.mem_cons.1 ht).resolve_left heq)
    · exact (List.mem_cons.1 ht).resolve_left nofun
  | aside alone rest ih => exact ih ht

/-- In the end the status is the one that the command found whose job was done last. -/
theorem ends_found (run : Timeline device v waiting events w) {s : String}
    (status : v.status? device = some s) (plain : s = "on" ∨ s = "off")
    (awaited : ∀ t ∈ waiting, t.Awaited device) :
    (waiting = [] ∧ events = [] ∧ w.status? device = some s) ∨
      ∃ before t, events = before ++ [.ends t] ∧ w.status? device = some t.found := by
  induction run generalizing s with
  | settled w => exact .inl ⟨rfl, rfl, status⟩
  | @begins t v w u waiting events begins rest ih =>
    obtain rfl : t.found = s := Option.some.inj (begins.found.symm.trans status)
    obtain ⟨s', hs', plain'⟩ := begins.leaves
    rcases ih hs' plain' (by simpa [or_imp, forall_and] using ⟨awaited, begins.awaited plain⟩)
      with ⟨hnone, -⟩ | ⟨before, last, hevents, hlast⟩
    · simp at hnone
    · exact .inr ⟨.begins t :: before, last, by rw [hevents]; rfl, hlast⟩
  | @ends t v u before after events rest ih =>
    have ht := awaited t (List.mem_append_right _ List.mem_cons_self)
    rcases ih (ht.status status) ht.plain fun t h => awaited t (by
      rcases List.mem_append.1 h with h | h
      · exact List.mem_append_left _ h
      · exact List.mem_append_right _ (List.mem_cons_of_mem _ h))
      with ⟨-, hevents, hlast⟩ | ⟨earlier, last, hevents, hlast⟩
    · exact .inr ⟨[], t, by rw [hevents]; rfl, hlast⟩
    · exact .inr ⟨.ends t :: earlier, last, by rw [hevents]; rfl, hlast⟩
  | aside alone rest ih => exact ih (by rw [World.status?, alone]; exact status) plain awaited

end Timeline

/-! ## Stretches of overlapping commands -/

/-- No other timed command is running when this one begins. -/
def TimedCommand.Opens (events : List TimedEvent) (t : TimedCommand) : Prop :=
  ∀ u, .begins u ∈ events → u.begun < t.begun → u.due ≤ t.begun

/-- A timed command that begins while no other is running outlasts those that begin while it
runs. -/
def Enclosed (events : List TimedEvent) : Prop :=
  ∀ t u, .begins t ∈ events → .begins u ∈ events → t.Opens events → t.begun < u.begun →
    u.begun ≤ t.due → u.due < t.due

/-- Where a timeline stands between the events `past` and the others, as to a status `s` from
before: the first command that is still running has opened the stretch, and found `s`. -/
structure Enclosing (device s : String) (past all : List TimedEvent) (status : String)
    (waiting : List TimedCommand) : Prop where
  plain : status = "on" ∨ status = "off"
  awaited : ∀ t ∈ waiting, t.Awaited device
  begun : ∀ t ∈ waiting, .begins t ∈ past
  ended : ∀ t, .begins t ∈ past → t ∈ waiting ∨ .ends t ∈ past
  idle : waiting = [] → status = s
  first : ∀ t rest, waiting = t :: rest → t.found = s ∧ t.Opens all ∧ ∀ u ∈ rest, t.begun < u.begun

namespace Enclosing

variable {device s status : String} {past events : List TimedEvent} {waiting : List TimedCommand}

/-- A command that begins while no job waits opens a stretch. -/
theorem opens {t : TimedCommand}
    (h : Enclosing device s past (past ++ .begins t :: events) status [])
    (inOrder : (past ++ .begins t :: events).Pairwise TimedEvent.Before) :
    t.Opens (past ++ .begins t :: events) := by
  obtain ⟨-, hlater, hearlier⟩ := List.pairwise_append.1 inOrder
  intro u hu hbefore
  -- what began earlier has ended, and the rest begins later
  rcases List.mem_append.1 hu with hu | hu
  · have hends : TimedEvent.ends u ∈ past := (h.ended u hu).resolve_left List.not_mem_nil
    exact (hearlier _ hends _ List.mem_cons_self).le
  · rcases List.mem_cons.1 hu with heq | hu
    · cases heq
      exact absurd hbefore (Int.lt_irrefl _)
    · have hafter : t.begun < u.begun := (List.pairwise_cons.1 hlater).1 _ hu
      exact absurd (Int.lt_trans hbefore hafter) (Int.lt_irrefl _)

/-- The command that has opened a stretch is not undone before another that waits. -/
theorem not_ends {t u : TimedCommand} {rest : List TimedCommand}
    (h : Enclosing device s past (past ++ .ends t :: events) status (t :: u :: rest))
    (inOrder : (past ++ .ends t :: events).Pairwise TimedEvent.Before)
    (enclosed : Enclosed (past ++ .ends t :: events)) : .ends u ∉ events := by
  obtain ⟨-, hlater, hearlier⟩ := List.pairwise_append.1 inOrder
  obtain ⟨-, hopens, hothers⟩ := h.first t (u :: rest) rfl
  have hbegun := h.begun u (List.mem_cons_of_mem _ List.mem_cons_self)
  have hrunning : u.begun ≤ t.due := (hearlier _ hbegun _ List.mem_cons_self).le
  have hsooner := enclosed t u (List.mem_append_left _ (h.begun t List.mem_cons_self))
    (List.mem_append_left _ hbegun) hopens (hothers u List.mem_cons_self) hrunning
  intro hends
  exact absurd hsooner (Int.not_lt.2 ((List.pairwise_cons.1 hlater).1 _ hends).le)

/-- One more timed command begins. -/
theorem begins {t : TimedCommand} {v w : World}
    (h : Enclosing device s past (past ++ .begins t :: events) status waiting)
    (inOrder : (past ++ .begins t :: events).Pairwise TimedEvent.Before)
    (begins : t.Begins device v w) (found : t.found = status) {status' : String}
    (plain : status' = "on" ∨ status' = "off") :
    Enclosing device s (past ++ [.begins t]) (past ++ .begins t :: events) status'
      (waiting ++ [t]) := by
  have hearlier := (List.pairwise_append.1 inOrder).2.2
  have hmem : TimedEvent.begins t ∈ past ++ [.begins t] :=
    List.mem_append_right _ (List.mem_singleton.2 rfl)
  refine ⟨plain, fun u hu => ?_, fun u hu => ?_, fun u hu => ?_, by simp, fun a rest heq => ?_⟩
  · rcases List.mem_append.1 hu with hu | hu
    · exact h.awaited u hu
    · rw [List.mem_singleton.1 hu]
      exact begins.awaited (found ▸ h.plain)
  · rcases List.mem_append.1 hu with hu | hu
    · exact List.mem_append_left _ (h.begun u hu)
    · rwa [List.mem_singleton.1 hu]
  · rcases List.mem_append.1 hu with hu | hu
    · exact (h.ended u hu).imp (List.mem_append_left _) (List.mem_append_left _)
    · cases List.mem_singleton.1 hu
      exact .inl (List.mem_append_right _ List.mem_cons_self)
  · cases waiting with
    | nil =>
      cases heq
      exact ⟨found.trans (h.idle rfl), h.opens inOrder, by simp⟩
    | cons b others =>
      obtain ⟨rfl, rfl⟩ := List.cons.inj heq
      obtain ⟨hfound, hopens, hothers⟩ := h.first _ _ rfl
      refine ⟨hfound, hopens, fun u hu => ?_⟩
      rcases List.mem_append.1 hu with hu | hu
      · exact hothers u hu
      · rw [List.mem_singleton.1 hu]
        exact hearlier _ (h.begun b List.mem_cons_self) _ List.mem_cons_self

/-- The job of a timed command is done, and those that wait are done later. -/
theorem ends {t : TimedCommand} {before after : List TimedCommand}
    (h : Enclosing device s past (past ++ .ends t :: events) status (before ++ t :: after))
    (inOrder : (past ++ .ends t :: events).Pairwise TimedEvent.Before)
    (enclosed : Enclosed (past ++ .ends t :: events))
    (later : ∀ u ∈ before ++ after, .ends u ∈ events) :
    Enclosing device s (past ++ [.ends t]) (past ++ .ends t :: events) t.found
      (before ++ after) := by
  have hkept : ∀ u ∈ before ++ after, u ∈ before ++ t :: after := fun u hu =>
    (List.mem_append.1 hu).elim (List.mem_append_left _) fun hu =>
      List.mem_append_right _ (List.mem_cons_of_mem _ hu)
  have ht : t ∈ before ++ t :: after := List.mem_append_right _ List.mem_cons_self
  refine ⟨(h.awaited t ht).plain, fun u hu => h.awaited u (hkept u hu), fun u hu =>
    List.mem_append_left _ (h.begun u (hkept u hu)), fun u hu => ?_, fun hnone => ?_,
    fun a rest heq => ?_⟩
  · rcases List.mem_append.1 hu with hu | hu
    · rcases h.ended u hu with hwaits | hends
      · by_cases heq : u = t
        · exact .inr (List.mem_append_right _ (by simp [heq]))
        · refine .inl ?_
          rcases List.mem_append.1 hwaits with hwaits | hwaits
          · exact List.mem_append_left _ hwaits
          · exact List.mem_append_right _ ((List.mem_cons.1 hwaits).resolve_left heq)
      · exact .inr (List.mem_append_left _ hends)
    · cases List.mem_singleton.1 hu
  · obtain ⟨rfl, rfl⟩ := List.append_eq_nil_iff.1 hnone
    exact (h.first t [] rfl).1
  · cases before with
    | nil =>
      obtain rfl : after = a :: rest := heq
      exact absurd (later a List.mem_cons_self) (h.not_ends inOrder enclosed)
    | cons b others =>
      obtain ⟨rfl, rfl⟩ := List.cons.inj heq
      obtain ⟨hfound, hopens, hothers⟩ := h.first b (others ++ t :: after) rfl
      refine ⟨hfound, hopens, fun u hu => hothers u ?_⟩
      exact (List.mem_append.1 hu).elim (List.mem_append_left _) fun hu =>
        List.mem_append_right _ (List.mem_cons_of_mem _ hu)

end Enclosing

namespace Timeline

variable {device s : String} {v w : World} {waiting : List TimedCommand}
  {past events : List TimedEvent}

/-- Where each opener outlasts its stretch, the status in the end is the one from before. -/
theorem encloses (run : Timeline device v waiting events w) {status : String}
    (hstatus : v.status? device = some status)
    (h : Enclosing device s past (past ++ events) status waiting)
    (inOrder : (past ++ events).Pairwise TimedEvent.Before)
    (enclosed : Enclosed (past ++ events)) : w.status? device = some s := by
  induction run generalizing status past with
  | settled w => rw [hstatus, h.idle rfl]
  | @begins t v w u waiting events begins rest ih =>
    obtain ⟨status', hstatus', plain⟩ := begins.leaves
    have hnext := h.begins inOrder begins (Option.some.inj (begins.found.symm.trans hstatus)) plain
    rw [List.append_cons past _ events] at hnext inOrder enclosed
    exact ih hstatus' hnext inOrder enclosed
  | @ends t v u before after events rest ih =>
    have ht := h.awaited t (List.mem_append_right _ List.mem_cons_self)
    have hnext := h.ends inOrder enclosed fun u hu => rest.ends_of_mem (.inl hu)
    rw [List.append_cons past _ events] at hnext inOrder enclosed
    exact ih (ht.status hstatus) hnext inOrder enclosed
  | aside alone rest ih =>
    exact ih (by rw [World.status?, alone]; exact hstatus) h inOrder enclosed

end Timeline

/-- **Where timed commands lead back to.** A device is on or off, and timed commands to it, all
but those that set a value, are carried out at increasing times; each payload says when it is
due, and is carried out then. In the end the device has the status that the command found whose
payload was carried out last, which no other is due after; that is the status from before if and
only if that command found it. So it is where each command that begins while no other is running
outlasts those that begin while it runs. -/
theorem timed_commands_lead_back {device s : String} {v w : World} {events : List TimedEvent}
    (run : Timeline device v [] events w) (inOrder : events.Pairwise TimedEvent.Before)
    (status : v.status? device = some s) (plain : s = "on" ∨ s = "off") :
    (∀ t, .begins t ∈ events →
      ∃ m : Moment, t.payload.field? "due_at" = some (.str m.text) ∧ m.instant = t.due) ∧
    (events = [] ∨ ∃ before t, events = before ++ [.ends t] ∧
      (∀ u, .begins u ∈ events → u.due ≤ t.due) ∧ w.status? device = some t.found ∧
      (w.status? device = v.status? device ↔ t.found = s)) ∧
    (Enclosed events → w.status? device = v.status? device) := by
  refine ⟨fun t ht => ?_, ?_, fun enclosed => ?_⟩
  · obtain ⟨v, w, begins⟩ := run.begins_of_mem ht
    exact begins.field?_due
  · rcases run.ends_found status plain (by simp) with ⟨-, hnone, -⟩ | ⟨before, t, hevents, hlast⟩
    · exact .inl hnone
    · refine .inr ⟨before, t, hevents, fun u hu => ?_, hlast, ?_⟩
      · have hends := run.ends_of_mem (.inr hu)
        rw [hevents] at hends inOrder
        rcases List.mem_append.1 hends with hends | hends
        · exact ((List.pairwise_append.1 inOrder).2.2 _ hends _ (List.mem_singleton.2 rfl)).le
        · cases List.mem_singleton.1 hends
          exact Int.le_refl _
      · rw [hlast, status, Option.some.injEq]
  · rw [status]
    have hstart : Enclosing device s [] ([] ++ events) s [] :=
      ⟨plain, by simp, by simp, by simp, fun _ => rfl, by simp⟩
    exact run.encloses status hstart inOrder enclosed

/-- The fan switched on for ten minutes. -/
def DeviceAction.airing : DeviceAction := ⟨"fan", .turnOn, none, some 10⟩

/-- A rule that acts so many minutes after the beginning of the calendar. -/
def Occasion.after (minutes : Nat) : Occasion := ⟨1, "vent", .ofInstant (minutes * minute), none⟩

/-- A world with a fan that is off. -/
def World.withFan : World :=
  { World.quiet 0 with store := { devices := [{ id := "fan", name := "Fan" }] } }

/-- The world after the fan has been switched on for ten minutes. -/
def World.aired (w : World) (minutes : Nat) : World :=
  ((Dispatch.tryOne 0 (.device .airing) (.after minutes)).run w).2

/-- The fan can be switched on for ten minutes where the command succeeds. -/
theorem World.airs {v : World} (minutes : Nat) {found : String} (quiet : v.flights = [])
    (status : v.status? "fan" = some found)
    (done : (match (Dispatch.tryOne 0 (.device .airing) (.after minutes)).run v with
      | (⟨_, _, .ok (.device _ (some job))⟩, w) => w.store.jobs.any (·.id == job)
      | _ => false) = true) :
    ∃ t : TimedCommand, t.Begins "fan" v (v.aired minutes) ∧ t.found = found ∧
      t.begun = minutes * minute ∧ t.due = (minutes + 10) * minute := by
  unfold World.aired
  rcases hrun : (Dispatch.tryOne 0 (.device .airing) (.after minutes)).run v with ⟨x, w⟩
  rw [hrun] at done
  split at done
  · rename_i i kind change job u heq
    cases heq
    obtain ⟨j, hj, hid⟩ := List.any_eq_true.1 done
    have hbegun : (Occasion.after minutes).now.instant = minutes * minute := by
      simp [Occasion.after]
    refine ⟨⟨.airing, 10, .after minutes, found, j.payload⟩, ⟨rfl, nofun, rfl, status, ?_, ?_, ?_⟩,
      rfl, hbegun, ?_⟩
    · exact ⟨0, _, change, job, hrun, rfl, j, hj, beq_iff_eq.1 hid, rfl⟩
    · exact fun f hf => absurd (quiet ▸ hf) List.not_mem_nil
    · exact fun f hf => absurd (quiet ▸ hf) List.not_mem_nil
    · show (Occasion.after minutes).now.instant + (10 : Nat) * minute = _
      rw [hbegun, Int.add_mul]
      rfl
  · cases done

theorem World.withFan_off : World.withFan.status? "fan" = some "off" := rfl

/-- One timed command, and the job that undoes it. -/
theorem Timeline.single {device : String} {t : TimedCommand} {v w : World}
    (h : t.Begins device v w) :
    Timeline device v [] [.begins t, .ends t] (w.carriedOut t.payload) :=
  .begins h (@Timeline.ends _ t _ _ [] [] _ (.settled _))

theorem timed_commands_lead_back_fan : ∃ w events, Timeline "fan" .withFan [] events w ∧
    events ≠ [] ∧ (World.withFan.aired 0).status? "fan" = some "on" ∧
    w.status? "fan" = World.withFan.status? "fan" := by
  obtain ⟨t, ht, -, hbegun, hdue⟩ := World.airs 0 (v := .withFan) rfl
    World.withFan_off (by decide +kernel)
  have hinOrder : [TimedEvent.begins t, .ends t].Pairwise TimedEvent.Before := by
    rw [List.pairwise_pair]
    show t.begun ≤ t.due
    rw [hbegun, hdue]
    decide +kernel
  have hrun := Timeline.single ht
  have hback := (timed_commands_lead_back hrun hinOrder World.withFan_off (.inr rfl)).2.2
  refine ⟨_, _, hrun, List.cons_ne_nil _ _, by decide +kernel, hback ?_⟩
  intro a b ha hb _ hlt
  simp only [List.mem_cons, TimedEvent.begins.injEq, reduceCtorEq, List.not_mem_nil, or_false]
    at ha hb
  rw [ha, hb] at hlt
  exact absurd hlt (Int.lt_irrefl _)

/-- Two timed commands of which the first is undone first. -/
theorem Timeline.crossing {device : String} {t u : TimedCommand} {v w w' : World}
    (ht : t.Begins device v w) (hu : u.Begins device w w') :
    Timeline device v [] [.begins t, .begins u, .ends t, .ends u]
      ((w'.carriedOut t.payload).carriedOut u.payload) :=
  .begins ht (.begins hu (@Timeline.ends _ t _ _ [] [u] _ (@Timeline.ends _ u _ _ [] [] _
    (.settled _))))

/-- A fan that is off is switched on for ten minutes, and after five minutes again for ten
minutes. When both jobs are done, it is on. -/
theorem crossing_leaves_fan_on : ∃ w events, Timeline "fan" .withFan [] events w ∧
    events.Pairwise TimedEvent.Before ∧ World.withFan.status? "fan" = some "off" ∧
    w.status? "fan" = some "on" := by
  obtain ⟨t, ht, htfound, htbegun, htdue⟩ := World.airs 0 (v := .withFan) rfl
    World.withFan_off (by decide +kernel)
  have hon : (World.withFan.aired 0).status? "fan" = some "on" := by decide +kernel
  obtain ⟨u, hu, hufound, hubegun, hudue⟩ := World.airs 5 (by decide +kernel) hon
    (by decide +kernel)
  have hrun := Timeline.crossing ht hu
  refine ⟨_, _, hrun, ?_, World.withFan_off, ?_⟩
  · have htu : t.begun < u.begun := by
      rw [htbegun, hubegun]
      decide +kernel
    have hut : u.begun ≤ t.due := by
      rw [hubegun, htdue]
      decide +kernel
    have hends : t.due ≤ u.due := by
      rw [htdue, hudue]
      decide +kernel
    have hle := Int.le_of_lt htu
    have htime : t.begun ≤ t.due := Int.le_trans hle hut
    have hlast : t.begun ≤ u.due := Int.le_trans htime hends
    have hmiddle : u.begun ≤ u.due := Int.le_trans hut hends
    simp [TimedEvent.Before, TimedEvent.time, htu, hut, hends, htime, hlast, hmiddle]
  · rcases hrun.ends_found World.withFan_off (.inr rfl) (by simp) with
      ⟨-, hnone, -⟩ | ⟨before, last, hevents, hlast⟩
    · cases hnone
    · have hend := congrArg List.getLast? hevents
      rw [List.getLast?_append] at hend
      cases hend
      rw [hlast, hufound]

end Glasshouse
