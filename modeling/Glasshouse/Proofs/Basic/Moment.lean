/-
Glasshouse.Proofs.Basic.Moment — arithmetic on readings of a clock. They stand for
instants, and differences and comparisons are those of the instants, unless one
of two readings has an offset and the other has none; no fault can come of
readings that have offsets.
-/
import Glasshouse.Calendar.Moment

namespace Glasshouse.Calendar

namespace Moment

/-- A reading with an offset. -/
def Aware (m : Moment) : Prop := m.offset.isSome = true

/-- A reading of universal time. -/
def Utc (m : Moment) : Prop := m.offset = some 0

instance (m : Moment) : Decidable m.Aware := inferInstanceAs (Decidable (_ = true))

instance (m : Moment) : Decidable m.Utc := inferInstanceAs (Decidable (_ = _))

/-- The instant that a reading stands for; one without offset is universal time. -/
def instant (m : Moment) : Int := m.wall - m.offset.getD 0

theorem Utc.aware {m : Moment} (h : m.Utc) : m.Aware := by
  unfold Aware
  rw [h]
  rfl

@[simp] theorem instant_ofInstant (i : Instant) : (ofInstant i).instant = i := by
  simp [instant, ofInstant]

theorem utc_ofInstant (i : Instant) : (ofInstant i).Utc := rfl

/-- A reading of universal time is determined by its instant. -/
theorem Utc.eq_ofInstant {m : Moment} (h : m.Utc) : m = ofInstant m.instant := by
  obtain ⟨wall, offset⟩ := m
  have ho : offset = some 0 := h
  simp [ofInstant, instant, ho]

/-- Both readings have an offset, or neither has. -/
def Alike (a b : Moment) : Prop := a.offset.isSome = b.offset.isSome

instance (a b : Moment) : Decidable (a.Alike b) := inferInstanceAs (Decidable (_ = _))

theorem Aware.alike {a b : Moment} (ha : a.Aware) (hb : b.Aware) : a.Alike b :=
  Eq.trans ha hb.symm

theorem minus_eq (a b : Moment) : a.minus b
    = if a.Alike b then .ok (a.instant - b.instant) else .error .mixedSubtraction := by
  rcases a with ⟨a, _ | x⟩ <;> rcases b with ⟨b, _ | y⟩ <;>
    first | rfl | simp [minus, Alike, instant]

theorem after_eq (a b : Moment) : a.after b
    = if a.Alike b then .ok (decide (b.instant < a.instant)) else .error .mixedComparison := by
  rcases a with ⟨a, _ | x⟩ <;> rcases b with ⟨b, _ | y⟩ <;>
    first | rfl | simp [after, Alike, instant]

theorem minus_of_aware {a b : Moment} (ha : a.Aware) (hb : b.Aware) :
    a.minus b = .ok (a.instant - b.instant) := by
  rw [minus_eq, if_pos (ha.alike hb)]

theorem after_of_aware {a b : Moment} (ha : a.Aware) (hb : b.Aware) :
    a.after b = .ok (decide (b.instant < a.instant)) := by
  rw [after_eq, if_pos (ha.alike hb)]

theorem plus_eq_ok {m l : Moment} {s : Span} :
    m.plus s = .ok l ↔ inCalendar (m.wall + s) = true ∧ l = { m with wall := m.wall + s } := by
  unfold plus
  by_cases h : inCalendar (m.wall + s) = true
  · rw [if_pos h, Except.ok.injEq]
    exact ⟨fun k => ⟨h, k.symm⟩, fun k => k.2.symm⟩
  · rw [if_neg h]
    exact iff_of_false (fun k => by cases k) fun k => h k.1

/-- A reading a span later is that much further from any other. -/
theorem minus_of_plus {a b c : Moment} {s since : Span} (h : a.plus s = .ok b)
    (k : a.minus c = .ok since) : b.minus c = .ok (since + s) := by
  obtain ⟨-, rfl⟩ := plus_eq_ok.1 h
  rw [minus_eq] at k ⊢
  split at k
  · rename_i alike
    cases k
    refine (if_pos alike).trans (congrArg Except.ok ?_)
    show a.wall + s - a.offset.getD 0 - c.instant = a.wall - a.offset.getD 0 - c.instant + s
    omega
  · cases k

theorem toInstant_eq_ok {m : Moment} {i : Instant} :
    m.toInstant = .ok i ↔ inCalendar m.instant = true ∧ m.instant = i := by
  show (if inCalendar m.instant = true then Except.ok m.instant else _) = _ ↔ _
  by_cases h : inCalendar m.instant = true
  · simp [h]
  · simp [h]

end Moment

/-- A span whose days can be counted. -/
def Span.Countable (s : Span) : Prop :=
  -999999999 ≤ s / dayLength ∧ s / dayLength ≤ 999999999

instance (s : Span) : Decidable s.Countable := inferInstanceAs (Decidable (_ ∧ _))

/-- So many days are counted where they are told apart from fewer and from more. -/
theorem counted_iff (days : Int) :
    ¬ (days < -999999999 ∨ 999999999 < days) ↔ -999999999 ≤ days ∧ days ≤ 999999999 := by
  omega

theorem Span.check_eq_ok {s t : Span} : s.check = .ok t ↔ s.Countable ∧ t = s := by
  unfold check Countable
  simp only [Bool.or_eq_true, decide_eq_true_eq]
  by_cases long : s / dayLength < -999999999 ∨ 999999999 < s / dayLength
  · rw [if_pos long]
    exact iff_of_false (fun h => by cases h) fun h => (counted_iff _).2 h.1 long
  · rw [if_neg long, Except.ok.injEq]
    exact ⟨fun h => ⟨(counted_iff _).1 long, h.symm⟩, fun h => h.2.symm⟩

/-- A span of minutes is what it comes to, if its days can be counted. -/
theorem Span.ofMinutes?_eq_ok_iff {n : Int} {s : Span} :
    Span.ofMinutes? n = .ok s ↔ Span.Countable (n * minute) ∧ s = n * minute := by
  have wide (days : Int) (h : -999999999 ≤ days ∧ days ≤ 999999999) :
      ¬ (days < -2147483648 ∨ 2147483647 < days) := by omega
  unfold ofMinutes? Countable
  simp only [Bool.or_eq_true, decide_eq_true_eq]
  by_cases long : n * minute / dayLength < -999999999 ∨ 999999999 < n * minute / dayLength
  · refine iff_of_false (fun h => ?_) fun h => (counted_iff _).2 h.1 long
    rw [if_pos long] at h
    split at h <;> cases h
  · have short := (counted_iff _).1 long
    rw [if_neg (wide _ short), if_neg long, Except.ok.injEq]
    exact ⟨fun h => ⟨short, h.symm⟩, fun h => h.2.symm⟩

/-- The length of a span of minutes that can be counted. -/
theorem Span.ofMinutes?_eq_ok {n : Int} {s : Span} (h : Span.ofMinutes? n = .ok s) :
    s = n * minute := (ofMinutes?_eq_ok_iff.1 h).2

end Glasshouse.Calendar
