/-
Glasshouse.Proofs.Store.Windows — the questions about readings agree with each other.
The readings of a field stand in one line, by time and then by number
(`Store.line`): a window is a stretch of it, aggregates are made of a window, and
the latest reading is its end. Where no two readings of a field are of one time, the
line does not depend on the order in which they came. Main statement:
`windows_agree`.

Side conditions of the main statement. Readings can be stored (`Measurement.Storable`),
and both windows begin in the calendar. The aggregates that it speaks of are counts and
extremes; sums and averages, whose last digits depend on the database, are left to
`Store.combine`.
-/
import Glasshouse.Proofs.Basic.Doubles
import Glasshouse.Proofs.Condition.Semantics
import Mathlib.Data.List.Sort
import Mathlib.Order.Bounds.Defs

namespace Glasshouse

open Calendar

/-! ## The order of readings -/

namespace ReadingRow

/-- One reading is older than another, or of the same time and stored earlier. -/
def Before (a b : ReadingRow) : Prop :=
  a.recordedAt < b.recordedAt ∨ a.recordedAt = b.recordedAt ∧ a.id < b.id

theorem Before.asymm {a b : ReadingRow} (h : a.Before b) : ¬ b.Before a := by
  unfold Before Instant at *
  omega

end ReadingRow

namespace Store

theorem olderFirst_iff {a b : ReadingRow} : olderFirst a b = true
    ↔ a.recordedAt < b.recordedAt ∨ a.recordedAt = b.recordedAt ∧ a.id ≤ b.id := by
  simp [olderFirst]

theorem olderFirst_trans (a b c : ReadingRow) (h : olderFirst a b = true)
    (k : olderFirst b c = true) : olderFirst a c = true := by
  rw [olderFirst_iff] at *
  unfold Instant at *
  omega

theorem olderFirst_total (a b : ReadingRow) : (olderFirst a b || olderFirst b a) = true := by
  rw [Bool.or_eq_true, olderFirst_iff, olderFirst_iff]
  unfold Instant
  omega

/-- Rows in the order in which they were stored. -/
def Numbered (rows : List ReadingRow) : Prop := rows.Pairwise (·.id < ·.id)

variable {rows : List ReadingRow}

/-- Sorted rows of different numbers are in a strict order. -/
theorem Numbered.before (h : Numbered rows) :
    (rows.mergeSort olderFirst).Pairwise ReadingRow.Before := by
  have distinct : ((rows.mergeSort olderFirst).map (·.id)).Nodup := by
    rw [((List.mergeSort_perm rows olderFirst).map _).nodup_iff]
    exact List.pairwise_map.2 (h.imp fun hlt => Int.ne_of_lt hlt)
  have sorted := List.pairwise_mergeSort olderFirst_trans olderFirst_total rows
  refine sorted.imp₂ (fun a b hab hne => ?_) (List.pairwise_map.1 distinct)
  rw [olderFirst_iff] at hab
  unfold ReadingRow.Before Instant at *
  omega

/-- Any strict arrangement of rows is the one that sorting gives. -/
theorem Numbered.eq_mergeSort (h : Numbered rows) {arranged : List ReadingRow}
    (perm : arranged.Perm rows) (before : arranged.Pairwise ReadingRow.Before) :
    arranged = rows.mergeSort olderFirst :=
  (perm.trans (List.mergeSort_perm rows olderFirst).symm).eq_of_pairwise
    (fun _ _ _ _ hab hba => absurd hba hab.asymm) before h.before

/-- Sorting some of the rows is sorting all of them. -/
theorem Numbered.filter_mergeSort (h : Numbered rows) (p : ReadingRow → Bool) :
    (rows.mergeSort olderFirst).filter p = (rows.filter p).mergeSort olderFirst :=
  Numbered.eq_mergeSort (List.Pairwise.filter p h)
    ((List.mergeSort_perm rows olderFirst).filter p) (h.before.filter p)

theorem getLast?_eq_some_iff_of_before (h : rows.Pairwise ReadingRow.Before) {r : ReadingRow} :
    rows.getLast? = some r ↔ r ∈ rows ∧ ∀ q ∈ rows, q = r ∨ q.Before r := by
  constructor
  · intro hr
    obtain ⟨init, rfl⟩ := List.getLast?_eq_some_iff.1 hr
    refine ⟨by simp, fun q hq => ?_⟩
    rcases List.mem_append.1 hq with hq | hq
    · exact .inr ((List.pairwise_append.1 h).2.2 q hq r (List.mem_singleton_self r))
    · exact .inl (List.mem_singleton.1 hq)
  · rintro ⟨hr, newest⟩
    have hlast := List.getLast?_eq_some_getLast (List.ne_nil_of_mem hr)
    generalize rows.getLast (List.ne_nil_of_mem hr) = last at hlast
    obtain ⟨init, rfl⟩ := List.getLast?_eq_some_iff.1 hlast
    rcases List.mem_append.1 hr with hin | hin
    · -- what stands before the last is older than it
      have older := (List.pairwise_append.1 h).2.2 r hin last (List.mem_singleton_self last)
      rcases newest last (by simp) with rfl | k
      · exact hlast
      · exact absurd k older.asymm
    · rw [List.mem_singleton.1 hin]
      exact hlast

/-- In an ordered list what fulfils a condition that what follows it fulfils too is an end
of the list. -/
theorem filter_suffix_of_pairwise {α : Type} {R : α → α → Prop} {p : α → Bool} {as : List α}
    (h : as.Pairwise R) (up : ∀ a ∈ as, ∀ b ∈ as, R a b → p a = true → p b = true) :
    as.filter p <:+ as := by
  induction h with
  | nil => exact List.nil_suffix
  | @cons a as before h ih =>
    cases hp : p a with
    | true =>
      have all : ∀ b ∈ a :: as, p b = true := by
        intro b hb
        rcases List.mem_cons.1 hb with rfl | hb'
        · exact hp
        · exact up a (List.mem_cons_self ..) b hb (before b hb') hp
      exact ⟨[], List.filter_eq_self.2 all⟩
    | false =>
      rw [List.filter_cons_of_neg (by simp [hp])]
      have rest := ih fun b hb c hc =>
        up b (List.mem_cons_of_mem _ hb) c (List.mem_cons_of_mem _ hc)
      exact rest.trans (List.suffix_cons a as)

/-! ## Minimum and maximum -/

/-- Choosing among numbers one after the other by a key gives one with the least key. -/
theorem foldl_choose {β : Type} [LinearOrder β] (key : Float → β)
    (choose : Float → Float → Float)
    (chosen : ∀ x y, x.isNaN = false → y.isNaN = false →
      choose x y = if key y < key x then y else x)
    {x : Float} {xs : List Float} (numbers : ∀ y ∈ x :: xs, y.isNaN = false) :
    xs.foldl choose x ∈ x :: xs ∧ ∀ y ∈ x :: xs, key (xs.foldl choose x) ≤ key y := by
  induction xs generalizing x with
  | nil => simp
  | cons y ys ih =>
    have hx := numbers x (by simp)
    have hy := numbers y (by simp)
    have hys : ∀ z ∈ ys, z.isNaN = false := fun z hz => numbers z (by simp [hz])
    rw [List.foldl_cons, chosen x y hx hy]
    split
    next hlt =>
      obtain ⟨mem, least⟩ := ih (List.forall_mem_cons.2 ⟨hy, hys⟩)
      refine ⟨List.mem_cons_of_mem x mem, fun z hz => ?_⟩
      rcases List.mem_cons.1 hz with rfl | hz
      · exact (least y (List.mem_cons_self ..)).trans hlt.le
      · exact least z hz
    next hge =>
      obtain ⟨mem, least⟩ := ih (List.forall_mem_cons.2 ⟨hx, hys⟩)
      refine ⟨by rcases List.mem_cons.1 mem with h | h <;> simp [h], fun z hz => ?_⟩
      rcases List.mem_cons.1 hz with rfl | hz
      · exact least z (List.mem_cons_self ..)
      · rcases List.mem_cons.1 hz with rfl | hz
        · exact (least x (List.mem_cons_self ..)).trans (not_lt.1 hge)
        · exact least z (List.mem_cons_of_mem _ hz)

theorem foldl_smaller {x : Float} {xs : List Float} (numbers : ∀ y ∈ x :: xs, y.isNaN = false) :
    xs.foldl smaller x ∈ x :: xs ∧ ∀ y ∈ x :: xs, xs.foldl smaller x ≤ y := by
  obtain ⟨mem, least⟩ := foldl_choose Number.rank smaller
    (fun x y hx hy => by simp only [smaller, Number.lt_iff_rank hy hx]) numbers
  exact ⟨mem, fun y hy =>
    (Number.le_iff_rank (numbers _ mem) (numbers y hy)).2 (least y hy)⟩

theorem foldl_greater {x : Float} {xs : List Float} (numbers : ∀ y ∈ x :: xs, y.isNaN = false) :
    xs.foldl greater x ∈ x :: xs ∧ ∀ y ∈ x :: xs, y ≤ xs.foldl greater x := by
  obtain ⟨mem, least⟩ := foldl_choose (fun x => OrderDual.toDual (Number.rank x)) greater
    (fun x y hx hy => by
      simp only [greater, Number.lt_iff_rank hx hy, OrderDual.toDual_lt_toDual]) numbers
  exact ⟨mem, fun y hy =>
    (Number.le_iff_rank (numbers y hy) (numbers _ mem)).2 (least y hy)⟩

/-! ## Lines -/

/-- A reading of a field. -/
def Of (sensor field : String) (r : ReadingRow) : Prop := r.sensor = sensor ∧ r.field = field

instance (sensor field : String) (r : ReadingRow) : Decidable (Of sensor field r) :=
  inferInstanceAs (Decidable (_ ∧ _))

/-- A reading from so many minutes ago to now. -/
def During (now : Moment) (minutes : Int) (r : ReadingRow) : Prop :=
  now.instant - minutes * minute ≤ r.recordedAt ∧ r.recordedAt ≤ now.instant

instance (now : Moment) (minutes : Int) (r : ReadingRow) : Decidable (During now minutes r) :=
  inferInstanceAs (Decidable (_ ∧ _))

/-- The readings of a field in their order. -/
def line (s : Store) (sensor field : String) : List ReadingRow :=
  (s.readingsOf sensor field).mergeSort olderFirst

variable {s : Store} {sensor field : String} {now : Moment}

theorem readingsOf_eq : s.readingsOf sensor field = s.readings.filter (Of sensor field ·) := by
  refine List.filter_congr fun r _ => ?_
  show (decide (r.sensor = sensor) && decide (r.field = field)) = _
  exact (Bool.decide_and ..).symm

theorem line_perm : (s.line sensor field).Perm (s.readings.filter (Of sensor field ·)) :=
  readingsOf_eq (s := s) ▸ List.mergeSort_perm ..

theorem mem_line {r : ReadingRow} :
    r ∈ s.line sensor field ↔ r ∈ s.readings ∧ Of sensor field r := by
  rw [line_perm.mem_iff, List.mem_filter, decide_eq_true_iff]

theorem numbered_readingsOf (h : Numbered s.readings) : Numbered (s.readingsOf sensor field) :=
  List.Pairwise.filter _ h

theorem line_before (h : Numbered s.readings) :
    (s.line sensor field).Pairwise ReadingRow.Before :=
  (numbered_readingsOf h).before

/-- A window is a part of the line. -/
theorem recent_eq (h : Numbered s.readings) (minutes : Int) :
    s.recent sensor field minutes now
      = ((s.line sensor field).filter (During now minutes ·)).map (·.value) := by
  rw [recent, line, (numbered_readingsOf h).filter_mergeSort]
  refine congrArg (fun rows => (rows.mergeSort olderFirst).map (·.value))
    (List.filter_congr fun r _ => ?_)
  exact (Bool.decide_and ..).symm

/-- The reading of a field that is after all others of it. -/
def Newest (s : Store) (sensor field : String) (r : ReadingRow) : Prop :=
  r ∈ s.readings ∧ Of sensor field r ∧ ∀ q ∈ s.readings, Of sensor field q → q = r ∨ q.Before r

/-- The latest reading is the end of the line. -/
theorem latest_eq_some_iff (h : Numbered s.readings) {r : ReadingRow} :
    s.latest sensor field = some r ↔ s.Newest sensor field r := by
  show (s.line sensor field).getLast? = some r ↔ _
  rw [getLast?_eq_some_iff_of_before (line_before h), Newest, mem_line, and_assoc]
  simp only [mem_line, and_imp]

/-- The shorter of two windows is an end of the longer one. -/
theorem recent_suffix (h : Numbered s.readings) {w₁ w₂ : Int} (shorter : w₁ ≤ w₂) :
    s.recent sensor field w₁ now <:+ s.recent sensor field w₂ now := by
  have within (r : ReadingRow) (hr : During now w₁ r) : During now w₂ r := by
    refine ⟨le_trans ?_ hr.1, hr.2⟩
    have := Int.mul_le_mul_of_nonneg_right shorter (show (0 : Int) ≤ minute by decide)
    omega
  have part : (s.line sensor field).filter (During now w₁ ·)
      = ((s.line sensor field).filter (During now w₂ ·)).filter (During now w₁ ·) := by
    rw [List.filter_filter]
    refine List.filter_congr fun r _ => ?_
    by_cases hr : During now w₁ r
    · simp [hr, within r hr]
    · simp [hr]
  rw [recent_eq h, recent_eq h, part]
  refine (filter_suffix_of_pairwise ((line_before h).filter _)
    fun a _ b hb hab hin => ?_).map _
  have ends := of_decide_eq_true (List.mem_filter.1 hb).2
  have begins := of_decide_eq_true hin
  have later : a.recordedAt ≤ b.recordedAt := by
    unfold ReadingRow.Before Instant at *
    omega
  exact decide_eq_true ⟨le_trans begins.1 later, ends.2⟩

/-! ## Answers -/

/-- What the questions about a window say, of which the values are these. -/
structure Window (s : Store) (sensor field : String) (now : Moment) (minutes : Int)
    (values : List Float) : Prop where
  history : s.history sensor field minutes now = .ok values
  /-- They are the values of the readings of the window, by time and then by number. -/
  rows : ∃ rows : List ReadingRow, values = rows.map (·.value)
    ∧ rows.Perm (s.readings.filter fun r => Of sensor field r ∧ During now minutes r)
    ∧ rows.Pairwise ReadingRow.Before
  none_iff (fn : Aggregation) : s.aggregate sensor field minutes fn now = .ok none ↔ values = []
  count : values ≠ [] →
    s.aggregate sensor field minutes .count now = .ok (some (Float.ofNat values.length))
  min : values ≠ [] → ∃ x ∈ values,
    s.aggregate sensor field minutes .min now = .ok (some x) ∧ ∀ y ∈ values, x ≤ y
  max : values ≠ [] → ∃ x ∈ values,
    s.aggregate sensor field minutes .max now = .ok (some x) ∧ ∀ y ∈ values, y ≤ x
  latest (r : ReadingRow) : s.Newest sensor field r → During now minutes r →
    values.getLast? = some r.value

/-- What an aggregation makes of at least one value is its aggregate, if it is a number. -/
theorem aggregate_of_recent {minutes : Int} {fn : Aggregation} {x : Float} {xs : List Float}
    (inside : ∃ p, window now minutes = .ok p) (h : s.recent sensor field minutes now = x :: xs)
    (number : (combine fn x xs).isNaN = false) :
    s.aggregate sensor field minutes fn now = .ok (some (combine fn x xs)) := by
  rw [aggregate_of_window sensor field fn inside, h]
  simp only [number, Bool.false_eq_true, if_false]

theorem aggregate_eq_none_iff {minutes : Int} (inside : ∃ p, window now minutes = .ok p)
    (fn : Aggregation) : s.aggregate sensor field minutes fn now = .ok none
      ↔ s.recent sensor field minutes now = [] := by
  rw [aggregate_of_window sensor field fn inside]
  cases s.recent sensor field minutes now with
  | nil => simp
  | cons x xs =>
    simp only [reduceCtorEq, iff_false]
    split <;> simp

theorem window_perm (minutes : Int) : ((s.line sensor field).filter (During now minutes ·)).Perm
    (s.readings.filter fun r => Of sensor field r ∧ During now minutes r) := by
  have part : ((s.line sensor field).filter (During now minutes ·)).Perm
      ((s.readings.filter (Of sensor field ·)).filter (During now minutes ·)) :=
    line_perm.filter _
  rw [List.filter_filter] at part
  refine part.trans (List.Perm.of_eq (List.filter_congr fun r _ => ?_))
  rw [Bool.decide_and, Bool.and_comm]

theorem isNaN_of_mem_recent (h : Numbered s.readings)
    (numbers : ∀ r ∈ s.readings, r.value.isNaN = false) (minutes : Int) :
    ∀ x ∈ s.recent sensor field minutes now, x.isNaN = false := by
  intro x hx
  rw [recent_eq h] at hx
  obtain ⟨r, hr, rfl⟩ := List.mem_map.1 hx
  exact numbers r (mem_line.1 (List.mem_filter.1 hr).1).1

/-- The latest reading is the last of a window that it lies in. -/
theorem getLast?_recent (h : Numbered s.readings) {minutes : Int} {r : ReadingRow}
    (newest : s.Newest sensor field r) (during : During now minutes r) :
    (s.recent sensor field minutes now).getLast? = some r.value := by
  have last : (s.line sensor field).getLast? = some r := (latest_eq_some_iff h).2 newest
  obtain ⟨older, hline⟩ := List.getLast?_eq_some_iff.1 last
  rw [recent_eq h, hline, List.filter_append]
  simp [during]

theorem window_recent (h : Numbered s.readings) (numbers : ∀ r ∈ s.readings, r.value.isNaN = false)
    {minutes : Int} (inside : ∃ p, window now minutes = .ok p) :
    s.Window sensor field now minutes (s.recent sensor field minutes now) where
  history := history_of_window sensor field inside
  rows := ⟨_, recent_eq h minutes, window_perm minutes, (line_before h).filter _⟩
  none_iff := aggregate_eq_none_iff inside
  count := by
    intro nonempty
    obtain ⟨x, xs, hxs⟩ := List.exists_cons_of_ne_nil nonempty
    have number : (combine .count x xs).isNaN = false := by
      rw [combine]
      exact Number.isNaN_ofNat _
    rw [aggregate_of_recent inside hxs number, hxs, combine, List.length_cons]
  min := by
    intro nonempty
    obtain ⟨x, xs, hxs⟩ := List.exists_cons_of_ne_nil nonempty
    have values : ∀ y ∈ s.recent sensor field minutes now, y.isNaN = false :=
      isNaN_of_mem_recent h numbers minutes
    rw [hxs] at values ⊢
    obtain ⟨mem, least⟩ := foldl_smaller values
    exact ⟨_, mem, aggregate_of_recent inside hxs (values _ mem), least⟩
  max := by
    intro nonempty
    obtain ⟨x, xs, hxs⟩ := List.exists_cons_of_ne_nil nonempty
    have values : ∀ y ∈ s.recent sensor field minutes now, y.isNaN = false :=
      isNaN_of_mem_recent h numbers minutes
    rw [hxs] at values ⊢
    obtain ⟨mem, greatest⟩ := foldl_greater values
    exact ⟨_, mem, aggregate_of_recent inside hxs (values _ mem), greatest⟩
  latest := fun _ => getLast?_recent h

/-- A sensor was seen last at the greatest of the times of the latest readings of its
fields. -/
theorem lastSeen_eq_some_iff (h : Numbered s.readings) {i : Instant} :
    s.lastSeen sensor = some i
      ↔ IsGreatest {t | ∃ field r, s.latest sensor field = some r ∧ r.recordedAt = t} i := by
  have mem {t : Instant} : t ∈ (s.readings.filter fun r => r.sensor == sensor).map (·.recordedAt)
      ↔ ∃ r ∈ s.readings, r.sensor = sensor ∧ r.recordedAt = t := by
    simp [and_assoc]
  have latest (r : ReadingRow) (hr : r ∈ s.readings) (hs : r.sensor = sensor) :
      ∃ q, s.latest sensor r.field = some q ∧ r.recordedAt ≤ q.recordedAt := by
    have hline : r ∈ s.line sensor r.field := mem_line.2 ⟨hr, hs, rfl⟩
    have hq := List.getLast?_eq_some_getLast (List.ne_nil_of_mem hline)
    refine ⟨_, hq, ?_⟩
    rcases ((latest_eq_some_iff h).1 hq).2.2 r hr ⟨hs, rfl⟩ with hrq | hrq
    · exact le_of_eq (congrArg (·.recordedAt) hrq)
    · unfold ReadingRow.Before Instant at *
      omega
  rw [lastSeen, List.max?_eq_some_iff]
  simp only [mem]
  constructor
  · rintro ⟨⟨r, hr, hs, rfl⟩, greatest⟩
    obtain ⟨q, hq, hrq⟩ := latest r hr hs
    have newest := (latest_eq_some_iff h).1 hq
    have hqr := greatest q.recordedAt ⟨q, newest.1, newest.2.1.1, rfl⟩
    refine ⟨⟨_, q, hq, le_antisymm hqr hrq⟩, ?_⟩
    rintro _ ⟨field, p, hp, rfl⟩
    have newest := (latest_eq_some_iff h).1 hp
    exact greatest _ ⟨p, newest.1, newest.2.1.1, rfl⟩
  · rintro ⟨⟨field, q, hq, rfl⟩, greatest⟩
    have newest := (latest_eq_some_iff h).1 hq
    refine ⟨⟨q, newest.1, newest.2.1.1, rfl⟩, ?_⟩
    rintro _ ⟨r, hr, hs, rfl⟩
    obtain ⟨p, hp, hrp⟩ := latest r hr hs
    exact hrp.trans (greatest ⟨_, p, hp, rfl⟩)

end Store

/-! ## Measurements -/

/-- A value that is to be stored. -/
structure Measurement where
  sensor : String
  field : String
  value : Float
  time : Moment

namespace Measurement

/-- A number at a time of the calendar. -/
def Storable (m : Measurement) : Prop :=
  m.value.isNaN = false ∧ inCalendar m.time.instant = true

instance (m : Measurement) : Decidable m.Storable := inferInstanceAs (Decidable (_ ∧ _))

/-- The row of a measurement. -/
def row (m : Measurement) (id : Int) : ReadingRow :=
  ⟨id, m.sensor, m.field, if m.value == 0.0 then 0.0 else m.value, m.time.instant⟩

theorem Storable.row_isNaN {m : Measurement} (h : m.Storable) (id : Int) :
    (m.row id).value.isNaN = false := by
  unfold row
  dsimp only
  split
  · decide
  · exact h.1

end Measurement

namespace Store

/-- Measurements stored one after the other. -/
def enter (s : Store) (ms : List Measurement) : Except Fault Store :=
  ms.foldlM (fun s m => do
    let (_, s) ← s.addReading m.sensor m.field m.value m.time
    .ok s) s

theorem addReading_eq (s : Store) {m : Measurement} (h : m.Storable) :
    s.addReading m.sensor m.field m.value m.time
      = let row := m.row (nextId (s.readings.map (·.id)))
        .ok (row, { s with readings := s.readings ++ [row] }) := by
  have htime : instantOf m.time = .ok m.time.instant := Moment.toInstant_eq_ok.2 ⟨h.2, rfl⟩
  unfold addReading
  rw [htime]
  simp only [bind, Except.bind, h.1]
  rfl

/-- Every measurement becomes a row, in their order. -/
theorem enter_eq (s : Store) {ms : List Measurement} (storable : ∀ m ∈ ms, m.Storable)
    (h : Numbered s.readings) :
    ∃ rows, s.enter ms = .ok { s with readings := s.readings ++ rows }
      ∧ List.Forall₂ (fun m r => r = m.row r.id) ms rows ∧ Numbered (s.readings ++ rows) := by
  induction ms generalizing s with
  | nil => exact ⟨[], by simp [enter]; rfl, .nil, by simpa using h⟩
  | cons m ms ih =>
    have hm := addReading_eq s (storable m (List.mem_cons_self ..))
    generalize hid : nextId (s.readings.map (·.id)) = id at hm
    have numbered : Numbered (s.readings ++ [m.row id]) := by
      refine List.pairwise_append.2 ⟨h, List.pairwise_singleton .., fun r hr q hq => ?_⟩
      rw [List.mem_singleton.1 hq]
      exact hid ▸ lt_nextId (List.mem_map_of_mem hr)
    obtain ⟨rows, hrows, kept, hnumbered⟩ :=
      ih { s with readings := s.readings ++ [m.row id] }
        (fun m hm => storable m (List.mem_cons_of_mem _ hm)) numbered
    simp only [List.append_assoc, List.singleton_append] at hrows hnumbered
    refine ⟨m.row id :: rows, ?_, .cons rfl kept, hnumbered⟩
    unfold enter at hrows ⊢
    rw [List.foldlM_cons, hm]
    exact hrows

/-! ## Any order of coming -/

variable {s : Store} {sensor field : String} {now : Moment}

/-- A row apart from its number. -/
def unnumbered (r : ReadingRow) : ReadingRow := { r with id := 0 }

/-- The times and values of a field in the order of its readings. -/
def points (s : Store) (sensor field : String) : List (Instant × Float) :=
  (s.line sensor field).map fun r => (r.recordedAt, r.value)

/-- The measurements of a field come at different times. -/
def Apart (ms : List Measurement) (sensor field : String) : Prop :=
  ((ms.filter fun m => m.sensor = sensor ∧ m.field = field).map (·.time.instant)).Nodup

theorem map_unnumbered {ms : List Measurement} {rows : List ReadingRow}
    (h : List.Forall₂ (fun m r => r = m.row r.id) ms rows) :
    rows.map unnumbered = ms.map (·.row 0) := by
  induction h with
  | nil => rfl
  | cons hr _ ih =>
    rw [List.map_cons, List.map_cons, ih, hr]
    rfl

theorem isNaN_of_kept {ms : List Measurement} {rows : List ReadingRow}
    (h : List.Forall₂ (fun m r => r = m.row r.id) ms rows) (storable : ∀ m ∈ ms, m.Storable) :
    ∀ r ∈ rows, r.value.isNaN = false := by
  induction h with
  | nil => exact fun r hr => absurd hr List.not_mem_nil
  | @cons m r ms rows hr _ ih =>
    intro q hq
    rcases List.mem_cons.1 hq with rfl | hq
    · rw [hr]
      exact (storable m (List.mem_cons_self ..)).row_isNaN _
    · exact ih (fun m hm => storable m (List.mem_cons_of_mem _ hm)) q hq

theorem points_perm : (s.points sensor field).Perm
    (((s.readings.map unnumbered).filter (Of sensor field ·)).map
      fun r => (r.recordedAt, r.value)) := by
  rw [List.filter_map, List.map_map]
  exact line_perm.map _

theorem points_apart {ms : List Measurement}
    (h : List.Forall₂ (fun m r => r = m.row r.id) ms s.readings) (apart : Apart ms sensor field) :
    ((s.points sensor field).map (·.1)).Nodup := by
  rw [(points_perm.map _).nodup_iff, map_unnumbered h, List.filter_map, List.map_map, List.map_map]
  exact apart

theorem points_sorted (h : Numbered s.readings)
    (apart : ((s.points sensor field).map (·.1)).Nodup) :
    (s.points sensor field).Pairwise fun p q => p.1 < q.1 := by
  have distinct := List.pairwise_map.1 (List.pairwise_map.1 apart)
  refine List.pairwise_map.2 ((line_before h).imp₂ (fun a b hab hne => ?_) distinct)
  exact hab.resolve_right fun hsame => hne hsame.1

theorem recent_points (h : Numbered s.readings) (minutes : Int) :
    s.recent sensor field minutes now = ((s.points sensor field).filter fun p =>
      decide (now.instant - minutes * minute ≤ p.1 ∧ p.1 ≤ now.instant)).map (·.2) := by
  rw [recent_eq h, points, List.filter_map, List.map_map]
  rfl

/-- Stores that say the same about a field of a sensor. -/
structure SameAnswers (s t : Store) (sensor field : String) : Prop where
  history (now : Moment) (minutes : Int) :
    s.history sensor field minutes now = t.history sensor field minutes now
  aggregate (now : Moment) (minutes : Int) (fn : Aggregation) :
    s.aggregate sensor field minutes fn now = t.aggregate sensor field minutes fn now
  latest : (s.latest sensor field).map (fun r => (r.recordedAt, r.value))
    = (t.latest sensor field).map fun r => (r.recordedAt, r.value)
  lastSeen : s.lastSeen sensor = t.lastSeen sensor

theorem sameAnswers {t : Store} (hs : Numbered s.readings) (ht : Numbered t.readings)
    (same : (s.readings.map unnumbered).Perm (t.readings.map unnumbered))
    (apart : ((s.points sensor field).map (·.1)).Nodup) : SameAnswers s t sensor field := by
  have perm : (s.points sensor field).Perm (t.points sensor field) :=
    points_perm.trans (((same.filter _).map _).trans points_perm.symm)
  have points : s.points sensor field = t.points sensor field :=
    perm.eq_of_pairwise (fun p q _ _ hpq hqp => absurd hqp (Int.lt_asymm hpq))
      (points_sorted hs apart) (points_sorted ht ((perm.map _).nodup_iff.1 apart))
  have recent (now : Moment) (minutes : Int) :
      s.recent sensor field minutes now = t.recent sensor field minutes now := by
    rw [recent_points hs, recent_points ht, points]
  refine ⟨fun now minutes => ?_, fun now minutes fn => ?_, ?_, ?_⟩
  · cases hw : window now minutes with
    | error e =>
      unfold history
      rw [hw]
      rfl
    | ok p =>
      rw [history_of_window _ _ ⟨p, hw⟩, history_of_window _ _ ⟨p, hw⟩, recent]
  · cases hw : window now minutes with
    | error e =>
      unfold aggregate
      rw [hw]
      rfl
    | ok p =>
      rw [aggregate_of_window _ _ _ ⟨p, hw⟩, aggregate_of_window _ _ _ ⟨p, hw⟩, recent]
  · show (s.line sensor field).getLast?.map _ = (t.line sensor field).getLast?.map _
    rw [← List.getLast?_map, ← List.getLast?_map]
    exact congrArg List.getLast? points
  · have times : ((s.readings.filter fun r => r.sensor == sensor).map (·.recordedAt)).Perm
        ((t.readings.filter fun r => r.sensor == sensor).map (·.recordedAt)) := by
      have := (same.filter fun r => r.sensor == sensor).map (·.recordedAt)
      rwa [List.filter_map, List.map_map, List.filter_map, List.map_map] at this
    refine Option.ext fun i => ?_
    simp only [lastSeen, List.max?_eq_some_iff, times.mem_iff]

/-- The questions about readings agree, in whatever order the readings came: the values of a
window are those from so many minutes ago to now, in order, and its aggregates are made of
them; a shorter window is an end of a longer one; the latest reading is the last of a window
that it lies in; and a sensor was seen last at the greatest of the times of its latest
readings. Readings of a field at different times may come in any order. -/
theorem windows_agree (base : Store) (ms : List Measurement) (storable : ∀ m ∈ ms, m.Storable)
    (sensor field : String) (now : Moment) {w₁ w₂ : Int} (shorter : w₁ ≤ w₂)
    (inside₁ : ∃ p, window now w₁ = .ok p) (inside₂ : ∃ p, window now w₂ = .ok p) :
    ∃ s, enter { base with readings := [] } ms = .ok s
      ∧ (List.Forall₂ (fun m r => r = m.row r.id) ms s.readings ∧ Numbered s.readings)
      ∧ (∃ short long, s.Window sensor field now w₁ short ∧ s.Window sensor field now w₂ long
        ∧ short <:+ long)
      ∧ (∀ r, s.latest sensor field = some r ↔ s.Newest sensor field r)
      ∧ (∀ i, s.lastSeen sensor = some i
        ↔ IsGreatest {t | ∃ field r, s.latest sensor field = some r ∧ r.recordedAt = t} i)
      ∧ (Apart ms sensor field → ∀ ms', ms'.Perm ms →
        ∃ s', enter { base with readings := [] } ms' = .ok s' ∧ SameAnswers s s' sensor field) := by
  have entered {ns : List Measurement} (h : ∀ m ∈ ns, m.Storable) :
      ∃ s, enter { base with readings := [] } ns = .ok s
        ∧ List.Forall₂ (fun m r => r = m.row r.id) ns s.readings ∧ Numbered s.readings := by
    obtain ⟨rows, hrows, kept, numbered⟩ := enter_eq { base with readings := [] } h .nil
    exact ⟨_, hrows, kept, numbered⟩
  obtain ⟨s, hs, kept, numbered⟩ := entered storable
  have numbers := isNaN_of_kept kept storable
  refine ⟨s, hs, ⟨kept, numbered⟩,
    ⟨_, _, window_recent numbered numbers inside₁, window_recent numbered numbers inside₂,
      recent_suffix numbered shorter⟩,
    fun r => latest_eq_some_iff numbered, fun i => lastSeen_eq_some_iff numbered,
    fun apart ms' perm => ?_⟩
  obtain ⟨s', hs', kept', numbered'⟩ := entered fun m hm => storable m (perm.mem_iff.1 hm)
  refine ⟨s', hs', sameAnswers numbered numbered' ?_ (points_apart kept apart)⟩
  rw [map_unnumbered kept, map_unnumbered kept']
  exact perm.symm.map _

/-- Readings of a probe, of which two are of one time and the last is of the future. -/
def probed : List Measurement :=
  [⟨"probe", "t", 21.5, ⟨600 * minute, some 0⟩⟩, ⟨"probe", "t", 20.0, ⟨600 * minute, some 0⟩⟩,
    ⟨"probe", "t", -0.0, ⟨630 * minute, none⟩⟩, ⟨"probe", "t", 9.0, ⟨700 * minute, some minute⟩⟩]

/-- At eleven o'clock half an hour begins with the third reading and an hour with the first
two. -/
theorem windows_agree_probed :
    (∀ m ∈ probed, m.Storable) ∧ (30 : Int) ≤ 60
      ∧ (∃ p, window ⟨660 * minute, some 0⟩ 30 = .ok p)
      ∧ (∃ p, window ⟨660 * minute, some 0⟩ 60 = .ok p)
      ∧ ∃ s, enter {} probed = .ok s
        ∧ (List.Forall₂ (fun m r => r = m.row r.id) probed s.readings ∧ Numbered s.readings)
        ∧ ∃ short long, s.Window "probe" "t" ⟨660 * minute, some 0⟩ 30 short
          ∧ s.Window "probe" "t" ⟨660 * minute, some 0⟩ 60 long ∧ short <:+ long := by
  have storable : ∀ m ∈ probed, m.Storable := by decide +kernel
  have half : ∃ p, window ⟨660 * minute, some 0⟩ 30 = .ok p := ⟨_, rfl⟩
  have hour : ∃ p, window ⟨660 * minute, some 0⟩ 60 = .ok p := ⟨_, rfl⟩
  obtain ⟨s, hs, kept, windows, -⟩ :=
    windows_agree {} probed storable "probe" "t" ⟨660 * minute, some 0⟩ (by decide) half hour
  exact ⟨storable, by decide, half, hour, s, hs, kept, windows⟩

end Store

end Glasshouse
