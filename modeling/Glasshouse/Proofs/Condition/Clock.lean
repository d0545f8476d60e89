/-
Glasshouse.Proofs.Condition.Clock — windows of the clock. A window compares the time of
day with its two ends as texts. Where these are written in ASCII digits, the
texts stand in the order of the minutes that they write, and a leaf holds as
the arithmetic of the clock says. A digit of another script comes after all
ASCII digits, so that such an end is reached late: when the digit before it
changes. Main statement: `window_follows_clock`.

Side conditions of the main statement. The window is one that is accepted, as a leaf of a
document that is parsed. It is judged by a local time; which local time a moment has is the
matter of `Calendar.Zone`, whose table of zones is a short one. Digits are those of the
table in `Text`.
-/
import Glasshouse.Proofs.Condition.Semantics
import Glasshouse.Proofs.Condition.Tree

namespace Glasshouse

open Calendar

/-! ## Digits -/

namespace Text

/-- The value of a decimal digit of any script. Each range of digits begins with a zero. -/
def digitValue (c : Char) : Nat :=
  match digitRanges.find? fun r => r.1 ≤ c.toNat && c.toNat ≤ r.2 with
  | some r => (c.toNat - r.1) % 10
  | none => 0

theorem digitValue_lt (c : Char) : digitValue c < 10 := by
  unfold digitValue
  split
  · exact Nat.mod_lt _ (by decide)
  · decide

/-- A digit is one of ASCII, or comes after all of them. -/
theorem digit_cases {c : Char} (h : isDigit c = true) :
    c.toNat = 48 + digitValue c ∨ 128 ≤ c.toNat := by
  have hranges : ∀ r ∈ digitRanges, r = (48, 57) ∨ 128 ≤ r.1 := by decide
  obtain ⟨r, hr, hin⟩ := Ranges.contains_iff.1 h
  obtain ⟨q, hq⟩ : ∃ q, digitRanges.find? (fun r => r.1 ≤ c.toNat && c.toNat ≤ r.2) = some q :=
    Option.isSome_iff_exists.1 (List.find?_isSome.2 ⟨r, hr, by simpa using hin⟩)
  have hqin : q.1 ≤ c.toNat ∧ c.toNat ≤ q.2 := by simpa using List.find?_some hq
  rcases hranges q (List.mem_of_find?_eq_some hq) with rfl | hlarge
  · have hvalue : digitValue c = (c.toNat - 48) % 10 := by
      unfold digitValue
      rw [hq]
    omega
  · exact .inr (Nat.le_trans hlarge hqin.1)

theorem lt_iff_toNat (c d : Char) : c < d ↔ c.toNat < d.toNat := Iff.rfl

end Text

/-! ## Times as texts -/

open Text (digitValue)

/-- The minute of the day that a time `HH:MM` writes, in digits of any script. -/
def minuteWritten (s : String) : Nat :=
  match s.toList with
  | [h, i, _, m, n] => (digitValue h * 10 + digitValue i) * 60 + (digitValue m * 10 + digitValue n)
  | _ => 0

/-- Whether a text has no characters but those of ASCII. -/
def inAscii (s : String) : Bool := s.toList.all fun c => decide (c.toNat < 128)

/-- The first minute of the day whose text does not come before a time. A digit of another
script is passed when the digit before it changes. -/
def minuteReached (s : String) : Nat :=
  match s.toList with
  | [h, i, _, m, n] =>
    if 128 ≤ i.toNat then (digitValue h + 1) * 600
    else if 128 ≤ n.toNat then (digitValue h * 10 + digitValue i) * 60 + (digitValue m + 1) * 10
    else minuteWritten s
  | _ => 0

/-- What stands where in a time of day. -/
theorem chars_of_isTimeOfDay {cs : List Char} (h : isTimeOfDay cs = true) :
    ∃ h i m n, cs = [h, i, ':', m, n] ∧ h.toNat = 48 + digitValue h ∧
      m.toNat = 48 + digitValue m ∧ digitValue m ≤ 5 ∧
      (n.toNat = 48 + digitValue n ∨ 128 ≤ n.toNat) ∧
      (digitValue h ≤ 1 ∧ (i.toNat = 48 + digitValue i ∨ 128 ≤ i.toNat) ∨
        digitValue h = 2 ∧ i.toNat = 48 + digitValue i ∧ digitValue i ≤ 3) := by
  have hascii : ∀ {c d : Char}, '0' ≤ c → c ≤ d → d.toNat ≤ 57 →
      c.toNat = 48 + digitValue c ∧ c.toNat ≤ d.toNat := by
    intro c d hlow hhigh hd
    have hlow' : 48 ≤ c.toNat := hlow
    have hhigh' : c.toNat ≤ d.toNat := hhigh
    have hdigit : Text.isDigit c = true :=
      Text.Ranges.contains_iff.2 ⟨(48, 57), by simp [Text.digitRanges], hlow', by omega⟩
    rcases Text.digit_cases hdigit with hc | hc
    · exact ⟨hc, hhigh'⟩
    · omega
  unfold isTimeOfDay at h
  split at h
  · rename_i h' i m n
    simp only [Bool.and_eq_true, Bool.or_eq_true, beq_iff_eq, decide_eq_true_eq] at h
    obtain ⟨⟨⟨hhour, hm0⟩, hm5⟩, hn⟩ := h
    obtain ⟨hm, hm'⟩ := hascii hm0 hm5 (by decide)
    have hm5' : m.toNat ≤ 53 := hm'
    refine ⟨h', i, m, n, rfl, ?_, hm, by omega, Text.digit_cases hn, ?_⟩
    · rcases hhour with ⟨rfl | rfl, -⟩ | ⟨⟨rfl, -⟩, -⟩ <;> decide
    · rcases hhour with ⟨hh, hi⟩ | ⟨⟨rfl, hi0⟩, hi3⟩
      · refine .inl ⟨?_, Text.digit_cases hi⟩
        rcases hh with rfl | rfl <;> decide
      · obtain ⟨hi, hi'⟩ := hascii hi0 hi3 (by decide)
        have hi3' : i.toNat ≤ 51 := hi'
        exact .inr ⟨by decide, hi, by omega⟩
  · cases h

namespace Calendar.Moment

theorem minuteOfDay_lt (m : Moment) : m.minuteOfDay < 1440 := by
  have hnonneg : 0 ≤ m.wall % dayLength := Int.emod_nonneg _ (by decide)
  have hlt : m.wall % dayLength < 86400000000 := Int.emod_lt_of_pos _ (by decide)
  unfold minuteOfDay timeOfDay
  omega

/-- The clock shows hour and minute in two digits each. -/
theorem clockText_digits (clock : Moment) : ∃ a b c d, a < 10 ∧ b < 10 ∧ c < 6 ∧ d < 10 ∧
    clock.minuteOfDay = (a * 10 + b) * 60 + (c * 10 + d) ∧ clock.clockText.toList =
      [a.digitChar, b.digitChar, ':', c.digitChar, d.digitChar] := by
  have hpadded : ∀ n < 100, (padded 2 n).toList = [(n / 10).digitChar, (n % 10).digitChar] := by
    decide +kernel
  have hlt := clock.minuteOfDay_lt
  refine ⟨clock.minuteOfDay / 60 / 10, clock.minuteOfDay / 60 % 10, clock.minuteOfDay % 60 / 10,
    clock.minuteOfDay % 60 % 10, by omega, by omega, by omega, by omega, by omega, ?_⟩
  unfold clockText
  rw [String.toList_append, String.toList_append, hpadded _ (by omega), hpadded _ (by omega)]
  rfl

end Calendar.Moment

/-- A time is reached from a minute of the day on. -/
theorem le_clockText_iff {s : String} (h : isTimeOfDay s.toList = true) (clock : Moment) :
    s ≤ clock.clockText ↔ minuteReached s ≤ clock.minuteOfDay := by
  obtain ⟨h, i, m, n, hs, hh, hm, hm', hn, hi⟩ := chars_of_isTimeOfDay h
  obtain ⟨a, b, c, d, ha, hb, hc, hd, hclock, htext⟩ := clock.clockText_digits
  have hlt := clock.minuteOfDay_lt
  have hnv := Text.digitValue_lt n
  have hiv := Text.digitValue_lt i
  rw [← String.not_lt, String.lt_iff, htext]
  unfold minuteReached minuteWritten
  rw [hs]
  simp only [List.cons_lt_cons_iff, Text.lt_iff_toNat, ← Char.toNat_inj, List.not_lt_nil,
    Nat.lt_irrefl, true_and, false_or, and_false, or_false, Nat.toNat_digitChar_of_lt_ten ha,
    Nat.toNat_digitChar_of_lt_ten hb, Nat.toNat_digitChar_of_lt_ten (Nat.lt_trans hc (by decide)),
    Nat.toNat_digitChar_of_lt_ten hd]
  split
  · omega
  · split
    · omega
    · omega

/-- A time is written for a minute of the day, and reached then or later on that day. -/
theorem minuteWritten_le_reached {s : String} (h : isTimeOfDay s.toList = true) :
    minuteWritten s < 1440 ∧ minuteWritten s ≤ minuteReached s ∧
      minuteReached s ≤ minuteWritten s + 600 ∧ minuteReached s ≤ 1440 ∧
      (inAscii s = true ↔ minuteReached s = minuteWritten s) := by
  obtain ⟨h, i, m, n, hs, hh, hm, hm', hn, hi⟩ := chars_of_isTimeOfDay h
  have hnv := Text.digitValue_lt n
  have hiv := Text.digitValue_lt i
  unfold minuteReached minuteWritten inAscii
  rw [hs]
  simp only [List.all_cons, List.all_nil, Bool.and_true, Bool.and_eq_true, decide_eq_true_eq,
    show ':'.toNat = 58 from rfl]
  split
  · omega
  · split
    · omega
    · omega

/-- In ASCII digits, a time is what a clock shows at the minute that it writes. -/
theorem clockText_of_written {s : String} (h : isTimeOfDay s.toList = true)
    (ascii : inAscii s = true) {clock : Moment} (hclock : clock.minuteOfDay = minuteWritten s) :
    clock.clockText = s := by
  obtain ⟨h, i, m, n, hs, hh, hm, hm', hn, hi⟩ := chars_of_isTimeOfDay h
  obtain ⟨a, b, c, d, ha, hb, hc, hd, hminute, htext⟩ := clock.clockText_digits
  have hnv := Text.digitValue_lt n
  have hiv := Text.digitValue_lt i
  unfold minuteWritten at hclock
  unfold inAscii at ascii
  rw [hs] at hclock ascii
  simp only [List.all_cons, List.all_nil, Bool.and_true, Bool.and_eq_true,
    decide_eq_true_eq] at hclock ascii
  refine String.toList_inj.1 ?_
  rw [hs, htext]
  simp only [List.cons.injEq, ← Char.toNat_inj, and_true, true_and]
  rw [Nat.toNat_digitChar_of_lt_ten ha, Nat.toNat_digitChar_of_lt_ten hb,
    Nat.toNat_digitChar_of_lt_ten (Nat.lt_trans hc (by decide)), Nat.toNat_digitChar_of_lt_ten hd]
  omega

/-- A moment of a day of the week and a minute of the day. -/
def Calendar.Moment.atMinute (weekday minuteOfDay : Nat) : Moment :=
  ⟨(weekday + 6) * dayLength + minuteOfDay * minute, none⟩

theorem Calendar.Moment.weekday_atMinute {weekday k : Nat} (hday : weekday < 7) (hk : k < 1440) :
    (Moment.atMinute weekday k).weekday = weekday := by
  have hlength : dayLength = 86400000000 := rfl
  have hminute : minute = 60000000 := rfl
  unfold Moment.weekday atMinute
  simp only [hlength, hminute]
  omega

theorem Calendar.Moment.minuteOfDay_atMinute (weekday : Nat) {k : Nat} (hk : k < 1440) :
    (Moment.atMinute weekday k).minuteOfDay = k := by
  have hlength : dayLength = 86400000000 := rfl
  have hminute : minute = 60000000 := rfl
  unfold Moment.minuteOfDay Moment.timeOfDay atMinute
  simp only [hlength, hminute]
  omega

/-- A time that comes before another is reached before it. -/
theorem minuteReached_mono {s t : String} (hs : isTimeOfDay s.toList = true)
    (ht : isTimeOfDay t.toList = true) (h : s ≤ t) : minuteReached s ≤ minuteReached t := by
  obtain ⟨-, -, -, hday, -⟩ := minuteWritten_le_reached hs
  refine Nat.le_of_not_lt fun hlt => ?_
  -- a clock that reaches the later one reaches the earlier one
  have hclock := Moment.minuteOfDay_atMinute 0 (Nat.lt_of_lt_of_le hlt hday)
  have hreached := (le_clockText_iff ht _).2 (Nat.le_of_eq hclock.symm)
  have hsooner := (le_clockText_iff hs _).1 (String.le_trans h hreached)
  omega

/-! ## Windows -/

namespace TimeTest

variable {t : TimeTest}

/-- The length of a window in minutes; one that ends where it begins is a whole day. -/
def length (t : TimeTest) : Int :=
  let d := ((minuteWritten t.stop : Int) - minuteWritten t.start) % 1440
  if d = 0 then 1440 else d

/-- A minute of the day lies less than the length of the window behind its start. -/
def Covers (t : TimeTest) (k : Nat) : Prop := ((k : Int) - minuteWritten t.start) % 1440 < t.length

instance (t : TimeTest) (k : Nat) : Decidable (t.Covers k) := inferInstanceAs (Decidable (_ < _))

/-- The leaf holds exactly when the minute of the day lies in the window as clocks count,
and the day is one of its days. -/
def FollowsClock (t : TimeTest) : Prop :=
  ∀ now clock (ask : (q : Query) → q.Answer), ∃ e, (Leaf.time t).examine now clock ask = .ok e ∧
    (e.result = true ↔
      t.Covers clock.minuteOfDay ∧ ∀ days, t.days = some days → clock.weekday ∈ days)

/-- A minute of the day lies in the window as texts are compared. -/
def Admits (t : TimeTest) (k : Nat) : Prop :=
  if t.stop ≤ t.start then minuteReached t.start ≤ k ∨ k < minuteReached t.stop
  else minuteReached t.start ≤ k ∧ k < minuteReached t.stop

theorem contains_iff (h : (Leaf.time t).Legible) (clock : Moment) :
    t.contains clock.clockText = true ↔ t.Admits clock.minuteOfDay := by
  unfold contains wraps Admits
  rw [← le_clockText_iff h.1, ← Nat.not_le, ← le_clockText_iff h.2.1, String.not_le]
  by_cases hwraps : t.stop ≤ t.start
  · simp [hwraps]
  · simp [hwraps]

/-- A window in ASCII digits wraps if its end is written for no later minute than its start. -/
theorem stop_le_start_iff (h : (Leaf.time t).Legible) (hstart : inAscii t.start = true)
    (hstop : inAscii t.stop = true) :
    t.stop ≤ t.start ↔ minuteWritten t.stop ≤ minuteWritten t.start := by
  obtain ⟨hlt, -, -, -, heq⟩ := minuteWritten_le_reached h.1
  obtain ⟨-, -, -, -, heq'⟩ := minuteWritten_le_reached h.2.1
  have hclock := Moment.minuteOfDay_atMinute 0 hlt
  have hreached := le_clockText_iff h.2.1 (Moment.atMinute 0 (minuteWritten t.start))
  rwa [clockText_of_written h.1 hstart hclock, hclock, heq'.1 hstop] at hreached

/-- Whether the text of each end is reached at the minute that it writes, or a window of a
whole day is one as texts are compared. -/
def Regular (t : TimeTest) : Prop :=
  inAscii t.start = true ∧ inAscii t.stop = true ∨
    minuteWritten t.start = minuteWritten t.stop ∧ minuteReached t.start = minuteReached t.stop ∧
      t.stop ≤ t.start

theorem covers_of_regular (h : (Leaf.time t).Legible) (regular : t.Regular) (clock : Moment) :
    t.contains clock.clockText = true ↔ t.Covers clock.minuteOfDay := by
  obtain ⟨hs, hsr, -, hsday, hsa⟩ := minuteWritten_le_reached h.1
  obtain ⟨he, her, -, heday, hea⟩ := minuteWritten_le_reached h.2.1
  have hk := clock.minuteOfDay_lt
  rw [contains_iff h]
  unfold Admits Covers length
  rcases regular with ⟨hstart, hstop⟩ | ⟨hwritten, hreached, hwraps⟩
  · rw [hsa.1 hstart, hea.1 hstop]
    by_cases hwraps : t.stop ≤ t.start
    · rw [if_pos hwraps]
      have hle := (stop_le_start_iff h hstart hstop).1 hwraps
      dsimp only
      split <;> omega
    · rw [if_neg hwraps]
      have hle := mt (stop_le_start_iff h hstart hstop).2 hwraps
      dsimp only
      split <;> omega
  · rw [if_pos hwraps, hreached, hwritten]
    dsimp only
    rw [if_pos (by omega)]
    omega

/-- As texts are compared, a window is the one of the clock only where it is regular. -/
theorem regular_of_covers (h : (Leaf.time t).Legible)
    (covers : ∀ k < 1440, t.Admits k ↔ t.Covers k) : t.Regular := by
  obtain ⟨hs, hsr, hsl, hsday, hsa⟩ := minuteWritten_le_reached h.1
  obtain ⟨he, her, hel, heday, hea⟩ := minuteWritten_le_reached h.2.1
  have hle : t.stop ≤ t.start → minuteReached t.stop ≤ minuteReached t.start :=
    minuteReached_mono h.2.1 h.1
  have hge : ¬ t.stop ≤ t.start → minuteReached t.start ≤ minuteReached t.stop := fun hn =>
    minuteReached_mono h.1 h.2.1 ((String.le_total t.stop t.start).resolve_left hn)
  unfold Regular
  rw [hsa, hea]
  unfold Admits Covers length at covers
  generalize minuteWritten t.start = s at *
  generalize minuteWritten t.stop = e at *
  generalize minuteReached t.start = sr at *
  generalize minuteReached t.stop = er at *
  -- the minutes at which the window begins and ends, and the ends of the day, tell it apart
  have hstart := covers s hs
  have hstop := covers e he
  have hfirst := covers 0 (by decide)
  have hlast := covers 1439 (by decide)
  by_cases hse : s = e
  · subst hse
    have hlater : er = 1440 ∨ er < 1440 := by omega
    by_cases hwraps : t.stop ≤ t.start
    · refine .inr ⟨rfl, ?_, hwraps⟩
      have hle := hle hwraps
      rcases hlater with hday | hday
      · omega
      · have hend := covers er hday
        simp only [hwraps, if_true, Int.sub_self, Int.zero_emod] at hend
        omega
    · have hge := hge hwraps
      simp only [hwraps, if_false, Int.sub_self, Int.zero_emod, if_true] at hfirst hlast
      omega
  · have hlength : ¬ ((e : Int) - s) % 1440 = 0 := by omega
    left
    by_cases hwraps : t.stop ≤ t.start
    · have hle := hle hwraps
      simp only [hwraps, if_true, hlength, if_false] at hstart hstop hfirst hlast
      omega
    · have hge := hge hwraps
      simp only [hwraps, hlength, if_false] at hstart hstop hfirst hlast
      omega

/-- The window from the end of a window to its start. -/
def turned (t : TimeTest) : TimeTest := { t with start := t.stop, stop := t.start }

/-- A leaf holds when the time is in the window and the day is one of its days. -/
theorem result_time_iff (clock : Moment) :
    (Evidence.time t clock.clockText clock.weekday).result = true ↔
      t.contains clock.clockText = true ∧ ∀ days, t.days = some days → clock.weekday ∈ days := by
  rw [Evidence.result, Bool.and_eq_true, includesDay_iff]
  exact and_comm

/-- A leaf that can be read has no days at all, or some day of the week. -/
theorem exists_day (h : (Leaf.time t).Legible) (hdays : t.days ≠ some []) :
    ∃ weekday < 7, ∀ days, t.days = some days → weekday ∈ days := by
  cases hd : t.days with
  | none => exact ⟨0, by decide, fun _ h => by cases h⟩
  | some days =>
    cases days with
    | nil => exact absurd hd hdays
    | cons day days =>
      refine ⟨day, Nat.lt_succ_of_le ((h.2.2 _ hd).2 day List.mem_cons_self), ?_⟩
      rintro _ ⟨⟩
      exact List.mem_cons_self

theorem followsClock_iff (h : (Leaf.time t).Legible) :
    t.FollowsClock ↔ t.days = some [] ∨ t.Regular := by
  constructor
  · intro follows
    by_cases hdays : t.days = some []
    · exact .inl hdays
    refine .inr (regular_of_covers h fun k hk => ?_)
    -- on one of its days the leaf is decided by the minute
    obtain ⟨weekday, hweek, hday⟩ := exists_day h hdays
    obtain ⟨e, he, hfollows⟩ := follows (.ofInstant 0) (.atMinute weekday k) Query.nothing
    cases he
    rw [result_time_iff, contains_iff h, Moment.minuteOfDay_atMinute _ hk,
      Moment.weekday_atMinute hweek hk] at hfollows
    exact ⟨fun hin => (hfollows.1 ⟨hin, hday⟩).1, fun hin => (hfollows.2 ⟨hin, hday⟩).1⟩
  · intro cases now clock ask
    refine ⟨_, rfl, ?_⟩
    rw [result_time_iff]
    rcases cases with hdays | regular
    · exact ⟨fun hin => absurd (hin.2 [] hdays) List.not_mem_nil,
        fun hin => absurd (hin.2 [] hdays) List.not_mem_nil⟩
    · rw [covers_of_regular h regular]

end TimeTest

/-- **Windows follow the clock.** The two ends of a window that is accepted are minutes of a day,
read digit by digit. A leaf holds exactly when the minute lies in the window as clocks
count, and the day is one of its days, if both ends are written in ASCII digits. Otherwise it
does so only where it has no days at all, or where both ends are the same minute, late alike
and in an order that makes the window a whole day. In ASCII digits, the window from the end to
the start is open exactly when the window from the start to the end is not. -/
theorem window_follows_clock {d : Doc} {c : Condition} (accepted : Condition.parse d = .ok c)
    {t : TimeTest} (ht : .time t ∈ c.leaves) :
    minuteWritten t.start < 1440 ∧ minuteWritten t.stop < 1440 ∧
    (t.FollowsClock ↔ t.days = some [] ∨ t.Regular) ∧
    (inAscii t.start = true → inAscii t.stop = true →
      minuteWritten t.start ≠ minuteWritten t.stop → ∀ clock : Moment,
        (t.turned.contains clock.clockText = true ↔ ¬ t.contains clock.clockText = true)) := by
  have hlegible : (Leaf.time t).Legible := Condition.legible_of_parse accepted _ ht
  obtain ⟨hstart, -⟩ := minuteWritten_le_reached hlegible.1
  obtain ⟨hstop, -⟩ := minuteWritten_le_reached hlegible.2.1
  refine ⟨hstart, hstop, TimeTest.followsClock_iff hlegible, fun hs he hne clock => ?_⟩
  have hturned : (Leaf.time t.turned).Legible := ⟨hlegible.2.1, hlegible.1, hlegible.2.2⟩
  rw [TimeTest.covers_of_regular hlegible (.inl ⟨hs, he⟩),
    TimeTest.covers_of_regular hturned (.inl ⟨he, hs⟩)]
  have hk := clock.minuteOfDay_lt
  unfold TimeTest.Covers TimeTest.length
  show ((clock.minuteOfDay : Int) - minuteWritten t.stop) % 1440 <
    (let d := ((minuteWritten t.start : Int) - minuteWritten t.stop) % 1440
      if d = 0 then 1440 else d) ↔ _
  dsimp only
  rw [if_neg (by omega), if_neg (by omega)]
  omega

/-- A window from ten in the evening to six in the morning. -/
def TimeTest.night : TimeTest := ⟨"22:00", "06:00", none⟩

theorem window_follows_clock_night :
    Condition.parse (Leaf.time .night).toDoc = .ok (.leaf (.time .night)) ∧
      TimeTest.night.FollowsClock ∧ TimeTest.night.Covers 1320 ∧ ¬ TimeTest.night.Covers 360 := by
  have hparse : Condition.parse (Leaf.time .night).toDoc = .ok (.leaf (.time .night)) := rfl
  obtain ⟨-, -, hfollows, -⟩ := window_follows_clock hparse List.mem_cons_self
  exact ⟨hparse, hfollows.2 (.inr (.inl (by decide))), by decide +kernel, by decide +kernel⟩

/-- A window from half past twelve to one o'clock, whose start has a digit of another script. -/
def TimeTest.lunch : TimeTest := ⟨"1٢:30", "13:00", none⟩

/-- As texts, the start comes after the end, and the window is open at three in the morning. -/
theorem foreign_digit_opens_night :
    Condition.parse (Leaf.time .lunch).toDoc = .ok (.leaf (.time .lunch)) ∧
      minuteWritten TimeTest.lunch.start = 750 ∧ minuteWritten TimeTest.lunch.stop = 780 ∧
      (∃ e, (Leaf.time .lunch).examine (.ofInstant 0) (.atMinute 0 180) Query.nothing = .ok e ∧
        e.result = true) ∧ ¬ TimeTest.lunch.Covers 180 ∧ ¬ TimeTest.lunch.FollowsClock := by
  have hcovers : ¬ TimeTest.lunch.Covers 180 := by decide +kernel
  have hopen : (Evidence.time .lunch (Moment.atMinute 0 180).clockText
      (Moment.atMinute 0 180).weekday).result = true := by decide +kernel
  refine ⟨rfl, by decide +kernel, by decide +kernel, ⟨_, rfl, hopen⟩, hcovers, fun follows => ?_⟩
  obtain ⟨e, he, hfollows⟩ := follows (.ofInstant 0) (.atMinute 0 180) Query.nothing
  cases he
  have hcovered := (hfollows.1 hopen).1
  rw [Moment.minuteOfDay_atMinute _ (by decide)] at hcovered
  exact hcovers hcovered

end Glasshouse
