/-
Glasshouse.Proofs.Dispatch.Revert — what the job that undoes a command leads back to. It asks
for one command, chosen by what the device was before: that gives back a value
which was set, or a status that was `on` or `off`. No command gives back another
status, and none the value that a reset took. Main statement:
`revert_leads_back_iff`.

Side conditions of the main statement. The command is carried out and its job can be
made. The job is carried out on the device as the command has left it; what becomes of
jobs that overlap with other commands is the matter of Dispatch.Timeline.
-/
import Glasshouse.Proofs.Dispatch.Flights
import Glasshouse.Proofs.Basic.Moment

namespace Glasshouse

open Calendar

/-! ## Devices -/

namespace DeviceRow

variable {d : DeviceRow} {c : Command}

/-- A device after a command and the one that undoes it. -/
def undone (d : DeviceRow) (c : Command) : DeviceRow :=
  { d with
    status := if c = .setValue ∨ d.status = "on" then d.status else "off"
    value := if c = .reset then none else d.value }

/-- Whether nothing is left of a command on a device once it is undone. -/
def Restorable (d : DeviceRow) (c : Command) : Prop :=
  (c = .setValue ∨ d.status = "on" ∨ d.status = "off") ∧ (c = .reset → d.value = none)

instance (d : DeviceRow) (c : Command) : Decidable (d.Restorable c) :=
  inferInstanceAs (Decidable (_ ∧ _))

theorem undone_eq_self_iff : d.undone c = d ↔ d.Restorable c := by
  obtain ⟨id, name, kind, status, value⟩ := d
  unfold undone Restorable
  simp only [DeviceRow.mk.injEq, true_and]
  refine and_congr ?_ ?_
  · by_cases h : c = .setValue ∨ status = "on"
    · simp only [h, if_true, true_iff]
      tauto
    · rw [if_neg h]
      tauto
  · by_cases h : c = .reset
    · simp [h, eq_comm]
    · simp [h]

/-- The command that undoes another is carried out after it. -/
theorem apply_undo (value : Option String) {change : DeviceChange}
    (hstatus : change.previousStatus = d.status) (hvalue : change.previousValue = d.value) :
    (d.apply c value).apply (undo c change).1 (undo c change).2 = d.undone c := by
  unfold undo undone
  rw [hstatus, hvalue]
  by_cases hon : d.status = "on"
  · cases c <;> simp [hon, apply]
  · cases c <;> simp [hon, apply]

end DeviceRow

/-! ## Commands by name -/

theorem Command.ofName?_name (c : Command) : ofName? c.name = some c := by
  cases c <;> rfl

namespace Store

variable {s t : Store} {id : String} {c : Command} {value : Option String}

theorem device?_applyCommand_self {d : DeviceRow} (h : s.device? id = some d) :
    (s.applyCommand id c value).device? id = some (d.apply c value) := by
  rw [device?_applyCommand, h, Option.map_some, if_pos (beq_self_eq_true _)]

theorem device?_applyCommand_of_ne {other : String} (h : other ≠ id) :
    (s.applyCommand id c value).device? other = s.device? other := by
  have hne : (id == other) = false := beq_eq_false_iff_ne.2 (Ne.symm h)
  simp [device?_applyCommand, hne]

/-- A command by its name succeeds on every device that there is. -/
theorem command_eq_ok {change : DeviceChange} : s.command id c.name value = .ok (change, t) ↔
      ∃ d, s.device? id = some d ∧ t = s.applyCommand id c value ∧
        change = ⟨id, (d.apply c value).status, (d.apply c value).value, d.status, d.value⟩ := by
  unfold command
  rw [c.ofName?_name]
  cases s.device? id with
  | none => simp
  | some d =>
    simp only [Except.ok.injEq, Prod.mk.injEq, Option.some.injEq, exists_eq_left']
    exact ⟨fun h => ⟨h.2.symm, h.1.symm⟩, fun h => ⟨h.2.symm, h.1.symm⟩⟩

end Store

/-! ## Payloads -/

/-- The command that a payload asks for: the device, the name of the command and the value. -/
def Doc.order? (payload : Doc) : Option (String × String × Option String) :=
  match payload.field? "device_id", payload.field? "action", payload.field? "value" with
  | some (.str id), some (.str name), some .null => some (id, name, none)
  | some (.str id), some (.str name), some (.str value) => some (id, name, some value)
  | _, _, _ => none

/-- What a payload asks for, carried out. -/
def Store.carryOut (payload : Doc) (s : Store) : Option (Except Fault (DeviceChange × Store)) :=
  payload.order?.map fun (id, name, value) => s.command id name value

namespace Revert

variable {r : Revert} {a : DeviceAction} {change : DeviceChange} {minutes : Nat} {o : Occasion}

theorem order?_toDoc (r : Revert) :
    r.toDoc.order? = some (r.device, r.command.name, r.value) := by
  obtain ⟨device, command, value, due, ruleId⟩ := r
  cases value <;> rfl

/-- What the payload of a job says about when it is due. -/
theorem field?_due (r : Revert) : r.toDoc.field? "due_at" = some (.str r.due.text) := rfl

/-- The job that undoes a command is for the device of the command, and due so many minutes
after it. -/
theorem after_eq_ok (h : Revert.after a change minutes o = .ok r) :
    r.device = a.device ∧ r.command = (undo a.command change).1 ∧
      r.value = (undo a.command change).2 ∧
      r.due.instant = o.now.instant + minutes * minute := by
  obtain ⟨span, hspan, h⟩ := bind_eq_ok.1 h
  obtain ⟨due, hdue, h⟩ := bind_eq_ok.1 h
  cases h
  refine ⟨rfl, rfl, rfl, ?_⟩
  obtain ⟨-, rfl⟩ := Moment.plus_eq_ok.1 hdue
  rw [Span.ofMinutes?_eq_ok hspan]
  show o.now.wall + _ - o.now.offset.getD 0 = o.now.wall - o.now.offset.getD 0 + _
  omega

end Revert

/-- What the payload of the job that undoes a command asks for is carried out on the device of
the command. -/
theorem Store.carryOut_revert {s : Store} {a : DeviceAction} {o : Occasion} {minutes : Nat}
    {change : DeviceChange} {r : Revert} (h : Revert.after a change minutes o = .ok r)
    {d : DeviceRow} (hd : s.device? a.device = some d) : ∃ change', s.carryOut r.toDoc =
      some (.ok (change', s.applyCommand a.device (undo a.command change).1
        (undo a.command change).2)) := by
  obtain ⟨hdevice, hcommand, hvalue, -⟩ := Revert.after_eq_ok h
  unfold carryOut
  rw [r.order?_toDoc, hdevice, hcommand, hvalue]
  exact ⟨_, congrArg some (Store.command_eq_ok.2 ⟨d, hd, rfl, rfl⟩)⟩

/-- **What undoing a command gives back.** The payload of the job that undoes a command can be
carried out on the device as the command has left it. The device then is as it was before the
command, but that a status other than `on` has become `off` unless the command set a value, and
that the value is gone if the command was a reset. So it is as it was if and only if the command
was to set a value, or the status was `on` or `off` and no value was reset. No other device has
changed. -/
theorem revert_leads_back_iff {s t : Store} {a : DeviceAction} {o : Occasion} {minutes : Nat}
    {change : DeviceChange} {r : Revert}
    (done : s.command a.device a.command.name (a.value.map Setting.stored) = .ok (change, t))
    (revert : Revert.after a change minutes o = .ok r) :
    ∃ d change' u, s.device? a.device = some d ∧ t.carryOut r.toDoc = some (.ok (change', u)) ∧
      u.device? a.device = some (d.undone a.command) ∧
      (u.device? a.device = s.device? a.device ↔ d.Restorable a.command) ∧
      ∀ id, id ≠ a.device → u.device? id = s.device? id := by
  obtain ⟨d, hd, rfl, rfl⟩ := Store.command_eq_ok.1 done
  have ht : (s.applyCommand a.device a.command (a.value.map Setting.stored)).device? a.device
      = some (d.apply a.command (a.value.map Setting.stored)) := Store.device?_applyCommand_self hd
  obtain ⟨change', hcarried⟩ := Store.carryOut_revert revert ht
  refine ⟨d, change', _, hd, hcarried, ?_, ?_, fun id hid => ?_⟩
  · rw [Store.device?_applyCommand_self ht, DeviceRow.apply_undo _ rfl rfl]
  · rw [Store.device?_applyCommand_self ht, DeviceRow.apply_undo _ rfl rfl, hd,
      Option.some.injEq, DeviceRow.undone_eq_self_iff]
  · rw [Store.device?_applyCommand_of_ne hid, Store.device?_applyCommand_of_ne hid]

/-- A fan that is on, and a valve that is off and set to a value. -/
def Store.fanAndValve : Store :=
  { devices := [
      ⟨"fan", "Fan", "relay", "on", none⟩, ⟨"valve", "Valve", "relay", "off", some "40"⟩] }

/-- The first rule, at the beginning of the calendar. -/
def Occasion.first : Occasion := ⟨1, "vent", .ofInstant 0, none⟩

theorem revert_leads_back_fan : ∃ change t r u change',
    Store.fanAndValve.command "fan" "TURN_OFF" none = .ok (change, t) ∧
    Revert.after ⟨"fan", .turnOff, none, some 10⟩ change 10 .first = .ok r ∧
    t.carryOut r.toDoc = some (.ok (change', u)) ∧
    (t.device? "fan").map (·.status) = some "off" ∧
    u.device? "fan" = Store.fanAndValve.device? "fan" := by
  obtain ⟨change, t, hdone, hoff⟩ : ∃ change t,
      Store.fanAndValve.command "fan" "TURN_OFF" none = .ok (change, t) ∧
      (t.device? "fan").map (·.status) = some "off" := ⟨_, _, rfl, rfl⟩
  obtain ⟨r, hr⟩ : ∃ r, Revert.after ⟨"fan", .turnOff, none, some 10⟩ change 10 .first = .ok r :=
    ⟨_, rfl⟩
  obtain ⟨d, change', u, hd, hcarried, -, hiff, -⟩ :=
    revert_leads_back_iff (a := ⟨"fan", .turnOff, none, some 10⟩) hdone hr
  cases hd
  exact ⟨change, t, r, u, change', hdone, hr, hcarried, hoff, hiff.2 (by decide)⟩

/-- A valve that is reset for ten minutes has lost its value afterwards. -/
theorem reset_value_not_given_back : ∃ change t r u change',
    Store.fanAndValve.command "valve" "RESET" none = .ok (change, t) ∧
    Revert.after ⟨"valve", .reset, none, some 10⟩ change 10 .first = .ok r ∧
    t.carryOut r.toDoc = some (.ok (change', u)) ∧
    (Store.fanAndValve.device? "valve").map (·.value) = some (some "40") ∧
    (u.device? "valve").map (·.value) = some none :=
  ⟨_, _, _, _, _, rfl, rfl, rfl, rfl, rfl⟩

end Glasshouse
