/-
Glasshouse.Proofs.Condition.Tree — condition trees and their canonical documents. What
the reader yields is legible: no text is empty, no window is, no slope is
negative, weekdays are a week's. The canonical document of a legible tree is
read as that tree. Main statements: `Condition.legible_of_read`,
`Condition.read_toDoc`.
-/
import Glasshouse.Condition.Writer
import Glasshouse.Proofs.Condition.Weekday

namespace Glasshouse

open Schema

/-! ## Names -/

theorem Comparison.read_name (c : Comparison) : Comparison.read (.str c.name) = .ok c := by
  cases c <;> rfl

theorem Logic.read_name (c : Logic) : Logic.read (.str c.name) = .ok c := by
  cases c <;> rfl

theorem Aggregation.read_name (c : Aggregation) : Aggregation.read (.str c.name) = .ok c := by
  cases c <;> rfl

theorem Trend.read_name (c : Trend) : Trend.read (.str c.name) = .ok c := by
  cases c <;> rfl

theorem readTimeOfDay_eq_ok {d : Doc} {s : String} (h : readTimeOfDay d = .ok s) :
    isTimeOfDay s.toList = true := by
  obtain ⟨t, -, h⟩ := Checked.andThen_eq_ok.1 h
  split at h
  · rename_i ht
    cases h
    exact ht
  · cases h

theorem readTimeOfDay_str {s : String} (h : isTimeOfDay s.toList = true) :
    readTimeOfDay (.str s) = .ok s :=
  if_pos h

/-! ## Leaves -/

/-- A leaf as it can be read: its texts are not empty, its windows are not, its slope is
not negative, its times are times of day and its weekdays are a week's. -/
def Leaf.Legible : Leaf → Prop
  | .sensor t => t.sensor ≠ "" ∧ t.field ≠ ""
  | .device t => t.device ≠ "" ∧ t.expected ≠ ""
  | .time t => isTimeOfDay t.start.toList = true ∧ isTimeOfDay t.stop.toList = true
      ∧ ∀ ns, t.days = some ns → IsWeek ns
  | .history t => t.sensor ≠ "" ∧ t.field ≠ "" ∧ 0 < t.window
  | .trend t => t.sensor ≠ "" ∧ t.field ≠ "" ∧ 0 < t.window ∧ t.slope ≥ 0.0
  | .heartbeat t => t.sensor ≠ "" ∧ 0 < t.timeout

section Readers

variable {o : Fields}

theorem SensorTest.legible_of_read {t : SensorTest} (h : SensorTest.read o = .ok t) :
    (Leaf.sensor t).Legible := by
  simp only [SensorTest.read, Checked.fmap_eq_ok, Checked.seq_eq_ok, Checked.seqLeft_eq_ok] at h
  obtain ⟨⟨_, _, ⟨_, _, ⟨_, _, ⟨_, _, ⟨_, hsensor, rfl⟩, hfield, rfl⟩, -, rfl⟩, -, rfl⟩, -, rfl⟩,
    -⟩ := h
  exact ⟨filled_of_required hsensor, filled_of_required hfield⟩

theorem DeviceTest.legible_of_read {t : DeviceTest} (h : DeviceTest.read o = .ok t) :
    (Leaf.device t).Legible := by
  simp only [DeviceTest.read, Checked.fmap_eq_ok, Checked.seq_eq_ok, Checked.seqLeft_eq_ok] at h
  obtain ⟨⟨_, _, ⟨_, hdevice, rfl⟩, hexpected, rfl⟩, -⟩ := h
  exact ⟨filled_of_required hdevice, filled_of_required hexpected⟩

theorem TimeTest.legible_of_read {t : TimeTest} (h : TimeTest.read o = .ok t) :
    (Leaf.time t).Legible := by
  simp only [TimeTest.read, Checked.fmap_eq_ok, Checked.seq_eq_ok, Checked.seqLeft_eq_ok] at h
  obtain ⟨⟨_, days, ⟨_, _, ⟨_, hstart, rfl⟩, hstop, rfl⟩, hdays, rfl⟩, -⟩ := h
  obtain ⟨_, -, hstart⟩ := read_of_required hstart
  obtain ⟨_, -, hstop⟩ := read_of_required hstop
  refine ⟨readTimeOfDay_eq_ok hstart, readTimeOfDay_eq_ok hstop, ?_⟩
  rintro ns (rfl : days = some ns)
  rcases read_of_optional hdays with hnone | ⟨_, -, hdays⟩
  · cases hnone
  · exact isWeek_of_readDays hdays

theorem HistoryTest.legible_of_read {t : HistoryTest} (h : HistoryTest.read o = .ok t) :
    (Leaf.history t).Legible := by
  simp only [HistoryTest.read, Checked.fmap_eq_ok, Checked.seq_eq_ok, Checked.seqLeft_eq_ok] at h
  obtain ⟨⟨_, _, ⟨_, _, ⟨_, _, ⟨_, _, ⟨_, _, ⟨_, hsensor, rfl⟩, hfield, rfl⟩, -, rfl⟩, hwindow, rfl⟩,
    -, rfl⟩, -, rfl⟩, -⟩ := h
  obtain ⟨_, -, hwindow⟩ := read_of_required hwindow
  exact ⟨filled_of_required hsensor, filled_of_required hfield, pos_of_positive hwindow⟩

theorem TrendTest.legible_of_read {t : TrendTest} (h : TrendTest.read o = .ok t) :
    (Leaf.trend t).Legible := by
  simp only [TrendTest.read, Checked.fmap_eq_ok, Checked.seq_eq_ok, Checked.seqLeft_eq_ok] at h
  obtain ⟨⟨_, slope, ⟨_, _, ⟨_, _, ⟨_, _, ⟨_, hsensor, rfl⟩, hfield, rfl⟩, -, rfl⟩, hwindow, rfl⟩,
    hslope, rfl⟩, -⟩ := h
  obtain ⟨_, -, hwindow⟩ := read_of_required hwindow
  refine ⟨filled_of_required hsensor, filled_of_required hfield, pos_of_positive hwindow, ?_⟩
  rcases read_of_optional hslope with rfl | ⟨_, -, hslope⟩
  · show (0.01 : Float) ≥ 0.0
    decide +kernel
  · exact nonNegative_eq_ok hslope

theorem HeartbeatTest.legible_of_read {t : HeartbeatTest} (h : HeartbeatTest.read o = .ok t) :
    (Leaf.heartbeat t).Legible := by
  simp only [HeartbeatTest.read, Checked.fmap_eq_ok, Checked.seq_eq_ok, Checked.seqLeft_eq_ok] at h
  obtain ⟨⟨_, _, ⟨_, hsensor, rfl⟩, htimeout, rfl⟩, -⟩ := h
  obtain ⟨_, -, htimeout⟩ := read_of_required htimeout
  exact ⟨filled_of_required hsensor, pos_of_positive htimeout⟩

/-- What a reader of leaves yields is legible. -/
theorem Leaf.legible_of_read {name : String} {read : Fields → Checked Leaf}
    (hname : leafReaders.lookup name = some read) {l : Leaf} (h : read o = .ok l) :
    l.Legible := by
  have hmem := mem_of_lookup hname
  simp only [leafReaders, List.mem_cons, List.not_mem_nil, or_false, Prod.mk.injEq] at hmem
  rcases hmem with ⟨rfl, rfl⟩ | ⟨rfl, rfl⟩ | ⟨rfl, rfl⟩ | ⟨rfl, rfl⟩ | ⟨rfl, rfl⟩ | ⟨rfl, rfl⟩
  all_goals
    obtain ⟨t, ht, rfl⟩ := Checked.fmap_eq_ok.1 h
  · exact SensorTest.legible_of_read ht
  · exact DeviceTest.legible_of_read ht
  · exact TimeTest.legible_of_read ht
  · exact HistoryTest.legible_of_read ht
  · exact TrendTest.legible_of_read ht
  · exact HeartbeatTest.legible_of_read ht

end Readers

/-! ## Canonical documents of leaves -/

/-- The fields of the canonical document of a leaf. -/
def Leaf.fields (l : Leaf) : Fields :=
  match l.toDoc with
  | .obj o => o
  | _ => []

theorem Leaf.toDoc_eq (l : Leaf) : l.toDoc = .obj l.fields := by
  cases l <;> rfl

theorem SensorTest.read_fields {t : SensorTest} (h : (Leaf.sensor t).Legible) :
    SensorTest.read (Leaf.sensor t).fields = .ok t := by
  unfold SensorTest.read
  rw [required_of_find rfl (filledText_str h.1), required_of_find rfl (filledText_str h.2),
    required_of_find rfl t.comparison.read_name, required_of_find rfl (double_num t.value),
    optional_of_find rfl (natural_nat t.maxAge)]
  rfl

theorem DeviceTest.read_fields {t : DeviceTest} (h : (Leaf.device t).Legible) :
    DeviceTest.read (Leaf.device t).fields = .ok t := by
  unfold DeviceTest.read
  rw [required_of_find rfl (filledText_str h.1), required_of_find rfl (filledText_str h.2)]
  rfl

theorem TimeTest.read_fields {t : TimeTest} (h : (Leaf.time t).Legible) :
    TimeTest.read (Leaf.time t).fields = .ok t := by
  have hdays : readDays (.ofOption (.ofList .nat) t.days) = .ok t.days := by
    cases ht : t.days with
    | none => rfl
    | some ns => exact readDays_ofList (h.2.2 ns ht)
  unfold TimeTest.read
  rw [required_of_find rfl (readTimeOfDay_str h.1), required_of_find rfl (readTimeOfDay_str h.2.1),
    optional_of_find rfl hdays]
  rfl

theorem HistoryTest.read_fields {t : HistoryTest} (h : (Leaf.history t).Legible) :
    HistoryTest.read (Leaf.history t).fields = .ok t := by
  unfold HistoryTest.read
  rw [required_of_find rfl (filledText_str h.1), required_of_find rfl (filledText_str h.2.1),
    required_of_find rfl t.aggregation.read_name, required_of_find rfl (positive_nat h.2.2),
    required_of_find rfl t.comparison.read_name, required_of_find rfl (double_num t.threshold)]
  rfl

theorem TrendTest.read_fields {t : TrendTest} (h : (Leaf.trend t).Legible) :
    TrendTest.read (Leaf.trend t).fields = .ok t := by
  unfold TrendTest.read
  rw [required_of_find rfl (filledText_str h.1), required_of_find rfl (filledText_str h.2.1),
    required_of_find rfl t.trend.read_name, required_of_find rfl (positive_nat h.2.2.1),
    optional_of_find rfl (nonNegative_num h.2.2.2)]
  rfl

theorem HeartbeatTest.read_fields {t : HeartbeatTest} (h : (Leaf.heartbeat t).Legible) :
    HeartbeatTest.read (Leaf.heartbeat t).fields = .ok t := by
  unfold HeartbeatTest.read
  rw [required_of_find rfl (filledText_str h.1), required_of_find rfl (positive_nat h.2)]
  rfl

/-- The canonical document of a legible leaf is read as that leaf. -/
theorem Leaf.read_toDoc {l : Leaf} (h : l.Legible) : Condition.read l.toDoc = .ok (.leaf l) := by
  have under : ∀ {α : Type} {f : α → Leaf} {x : Checked α} {a : α} {k : String}, x = .ok a →
      (Condition.leaf <$> (f <$> x)).under (.key k) = .ok (.leaf (f a)) := by
    rintro α f x a k rfl
    rfl
  rw [l.toDoc_eq]
  cases l with
  | sensor t => exact under (SensorTest.read_fields h)
  | device t => exact under (DeviceTest.read_fields h)
  | time t => exact under (TimeTest.read_fields h)
  | history t => exact under (HistoryTest.read_fields h)
  | trend t => exact under (TrendTest.read_fields h)
  | heartbeat t => exact under (HeartbeatTest.read_fields h)

/-! ## Trees -/

namespace Condition

/-- A tree as it can be read: its leaves are legible. -/
def Legible (c : Condition) : Prop :=
  ∀ l ∈ c.leaves, l.Legible

theorem legible_leaf {l : Leaf} : (leaf l).Legible ↔ l.Legible := by
  simp [Legible, leaves]

theorem legible_all {cs : List Condition} : (all cs).Legible ↔ ∀ c ∈ cs, c.Legible := by
  simp only [Legible, leaves, leavesOf_eq_flatMap, List.mem_flatMap]
  exact ⟨fun h c hc l hl => h l ⟨c, hc, hl⟩, fun h l ⟨c, hc, hl⟩ => h c hc l hl⟩

theorem legible_any {cs : List Condition} : (any cs).Legible ↔ ∀ c ∈ cs, c.Legible :=
  legible_all

theorem legible_negation {c : Condition} : (negation c).Legible ↔ c.Legible := Iff.rfl

theorem legible_group {op : Logic} {cs : List Condition} {c : Condition} (h : ∀ c ∈ cs, c.Legible)
    (hc : group? op cs = some c) : c.Legible := by
  unfold group? at hc
  split at hc
  · cases hc
    exact legible_all.2 h
  · cases hc
    exact legible_any.2 h
  · cases hc
    exact legible_negation.2 (h _ (List.mem_singleton.2 rfl))
  · cases hc

theorem readList_eq_ok {i : Nat} {ds : List Doc} {cs : List Condition} :
    readList i ds = .ok cs ↔ List.Forall₂ (fun d c => read d = .ok c) ds cs := by
  have heq : readList i ds = Checked.each read i ds := by
    induction ds generalizing i with
    | nil => rfl
    | cons d ds ih => simp only [readList, Checked.each, ih]
  rw [heq, Checked.each_eq_ok]

/-- Nothing that stands where nodes should is read as one. -/
theorem notNodes_eq_ok {i : Nat} {ds : List Doc} {cs : List Condition}
    (h : notNodes i ds = .ok cs) : cs = [] := by
  cases ds with
  | nil =>
    cases h
    rfl
  | cons d ds =>
    obtain ⟨_, _, h, -⟩ := Checked.seq_eq_ok.1 h
    obtain ⟨_, h, -⟩ := Checked.fmap_eq_ok.1 h
    cases h

/-- Children that are read come from a list of nodes, or there are none. -/
theorem readChildren_eq_ok {d : Doc} {cs : List Condition} (h : readChildren d = .ok cs) :
    cs = [] ∨ ∃ xs, d = .list xs ∧ List.Forall₂ (fun d c => read d = .ok c) xs cs := by
  cases d with
  | list xs => exact .inr ⟨xs, rfl, readList_eq_ok.1 h⟩
  | obj o => exact .inl (notNodes_eq_ok h)
  | set xs => exact .inl (notNodes_eq_ok h)
  | atom a =>
    unfold readChildren at h
    split at h
    · exact .inl (notNodes_eq_ok h)
    · cases h

/-- A table that is read is a group of its children, or a leaf. -/
theorem readTable_eq_ok {o : Fields} {children : Checked (List Condition)} {c : Condition}
    (h : readTable o children = .ok c) :
    (∃ op cs, children = .ok cs ∧ group? op cs = some c)
      ∨ ∃ name read l, leafReaders.lookup name = some read ∧ read o = .ok l ∧ c = leaf l := by
  unfold readTable at h
  split at h
  · cases h
  · obtain ⟨⟨op, cs⟩, h, hc⟩ := Checked.andThen_eq_ok.1 (Checked.under_eq_ok.1 h)
    obtain ⟨h, -⟩ := Checked.seqLeft_eq_ok.1 h
    obtain ⟨_, _, h, hcs, hpair⟩ := Checked.seq_eq_ok.1 h
    obtain ⟨_, -, rfl⟩ := Checked.fmap_eq_ok.1 h
    cases hpair
    cases hg : group? op cs with
    | none => simp [hg, Checked.ofOption, Checked.flaw] at hc
    | some g =>
      simp only [hg, Checked.ofOption, Checked.ok.injEq] at hc
      exact .inl ⟨op, cs, Checked.under_eq_ok.1 hcs, hc ▸ hg⟩
  · split at h
    · rename_i read hread
      obtain ⟨l, hl, rfl⟩ := Checked.fmap_eq_ok.1 (Checked.under_eq_ok.1 h)
      exact .inr ⟨_, read, l, hread, hl, rfl⟩
    · cases h

theorem readAtom_ne_ok (a : Atom) (c : Condition) : readAtom a ≠ .ok c := by
  cases a <;> nofun

/-- What the reader of nodes yields is legible. -/
theorem legible_of_read {d : Doc} {c : Condition} (h : read d = .ok c) : c.Legible := by
  match d with
  | .atom a => exact absurd h (readAtom_ne_ok a c)
  | .set xs => cases h
  | .list xs =>
    obtain ⟨cs, hcs, rfl⟩ := Checked.map_eq_ok.1 h
    have hread := readList_eq_ok.1 (Checked.under_eq_ok.1 (Checked.under_eq_ok.1 hcs))
    refine legible_all.2 fun c hc => ?_
    obtain ⟨d, hd, hread⟩ := exists_of_mem_right hread hc
    exact legible_of_read hread
  | .obj o =>
    rw [read, childrenIn_readFields] at h
    rcases readTable_eq_ok h with ⟨op, cs, hcs, hgroup⟩ | ⟨name, read, l, hname, hl, rfl⟩
    · refine legible_group (fun c hc => ?_) hgroup
      cases hv : childrenOf? o with
      | none =>
        rw [hv] at hcs
        cases hcs
        cases hc
      | some v =>
        rw [hv] at hcs
        rcases readChildren_eq_ok hcs with rfl | ⟨xs, rfl, hread⟩
        · cases hc
        · obtain ⟨d, hd, hread⟩ := exists_of_mem_right hread hc
          exact legible_of_read hread
    · exact legible_leaf.2 (Leaf.legible_of_read hname hl)
termination_by sizeOf d
decreasing_by
  · have hlt := List.sizeOf_lt_of_mem hd
    simp only [Doc.list.sizeOf_spec]
    omega
  · have hlt := List.sizeOf_lt_of_mem hd
    have hsize := sizeOf_childrenOf hv
    simp only [Doc.list.sizeOf_spec] at hsize
    omega

/-- The document of a group is read as that group, if those of its children are read as
its children. -/
theorem read_groupDoc {op : Logic} {ds : List Doc} {cs : List Condition} {c : Condition}
    (h : List.Forall₂ (fun d c => read d = .ok c) ds cs) (hc : group? op cs = some c) :
    read (groupDoc op ds) = .ok c := by
  have hchildren : readChildren (.list ds) = .ok cs := readList_eq_ok.2 h
  have hread : readTable [(.str "type", .str "group"), (.str "operator", .str op.name),
      (.str "children", .list ds)] (.ok cs) = .ok c := by
    show (readGroup _ (.ok cs)).under _ = _
    rw [Checked.under_eq_ok]
    refine Checked.andThen_eq_ok.2 ⟨(op, cs), ?_, by simp only [hc]; rfl⟩
    rw [optional_of_find rfl op.read_name]
    rfl
  rw [groupDoc, Doc.record, read, childrenIn_readFields]
  show readTable _ (readChildren (.list ds)) = _
  rw [hchildren]
  exact hread

mutual

/-- The canonical document of a legible tree is read as that tree. -/
theorem read_toDoc {c : Condition} (h : c.Legible) : read c.toDoc = .ok c := by
  match c with
  | all cs => exact read_groupDoc (read_toDocs (legible_all.1 h)) rfl
  | any cs => exact read_groupDoc (read_toDocs (legible_any.1 h)) rfl
  | negation c => exact read_groupDoc (.cons (read_toDoc (legible_negation.1 h)) .nil) rfl
  | leaf l => exact Leaf.read_toDoc (legible_leaf.1 h)

theorem read_toDocs {cs : List Condition} (h : ∀ c ∈ cs, c.Legible) :
    List.Forall₂ (fun d c => read d = .ok c) (toDocs cs) cs := by
  match cs with
  | [] => exact .nil
  | c :: cs =>
    exact .cons (read_toDoc (h c (List.mem_cons_self ..)))
      (read_toDocs fun d hd => h d (List.mem_cons_of_mem _ hd))

end

/-- What a document is parsed as is legible. -/
theorem legible_of_parse {d : Doc} {c : Condition} (h : parse d = .ok c) : c.Legible := by
  have haccept : ∀ d, parse.accept (read d) = .ok c → c.Legible := by
    intro d h
    cases hr : read d with
    | ok e =>
      rw [hr] at h
      cases h
      exact legible_of_read hr
    | flawed is => rw [hr] at h; cases h
    | broken f => rw [hr] at h; cases h
  unfold parse at h
  split at h
  · split at h
    · exact haccept _ h
    · cases h
  · exact haccept _ h

/-- What a document is parsed as has a canonical document that is parsed as the same. -/
theorem parse_toDoc {d : Doc} {c : Condition} (h : parse d = .ok c) : parse c.toDoc = .ok c := by
  have htable : ∃ o, c.toDoc = .obj o := by
    cases c with
    | leaf l => exact ⟨_, l.toDoc_eq⟩
    | all | any | negation => exact ⟨_, rfl⟩
  obtain ⟨o, ho⟩ := htable
  have hread := read_toDoc (legible_of_parse h)
  rw [ho] at hread ⊢
  show parse.accept (read (.obj o)) = _
  rw [hread]
  rfl

end Condition

end Glasshouse
