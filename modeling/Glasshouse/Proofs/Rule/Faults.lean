/-
Glasshouse.Proofs.Rule.Faults — the stored rules whose reading ends in a fault
instead of a refusal. Reading asks for the members of children, weekdays and
media, and for the order of weekdays, before it asks for their kinds; a value
that has no members, or no order with numbers, is a fault there, and so is a
node that nests without end. Nothing else in a document is. Main statement:
`RuleRow.faulty_toRule`.
-/
import Glasshouse.Proofs.Store.Rows

namespace Glasshouse

open Schema

/-! ## Readings that end in a fault -/

namespace Checked

variable {α β : Type}

/-- A reading that was ended by a fault. -/
def Raises (x : Checked α) : Prop := ∃ e, x = .broken e

@[simp] theorem not_raises_ok (a : α) : ¬ (ok a).Raises := by
  rintro ⟨e, h⟩
  cases h

@[simp] theorem not_raises_flawed (is : List Issue) : ¬ (flawed is : Checked α).Raises := by
  rintro ⟨e, h⟩
  cases h

@[simp] theorem not_raises_flaw (c : Cause) : ¬ (flaw c : Checked α).Raises := not_raises_flawed _

@[simp] theorem raises_broken (e : Fault) : (broken e : Checked α).Raises := ⟨e, rfl⟩

@[simp] theorem not_raises_ofOption (c : Cause) (o : Option α) : ¬ (ofOption c o).Raises := by
  cases o with
  | none => exact not_raises_flaw c
  | some a => exact not_raises_ok a

@[simp] theorem raises_map (f : α → β) (x : Checked α) : (x.map f).Raises ↔ x.Raises := by
  cases x <;> simp [Checked.map]

@[simp] theorem raises_fmap (f : α → β) (x : Checked α) : (f <$> x).Raises ↔ x.Raises :=
  raises_map f x

@[simp] theorem raises_seq (f : Checked (α → β)) (x : Checked α) :
    (f <*> x).Raises ↔ f.Raises ∨ x.Raises := by
  show ((f.both x).map _).Raises ↔ _
  rw [raises_map]
  cases f <;> cases x <;> simp [both]

@[simp] theorem raises_seqLeft (x : Checked α) (y : Checked β) :
    (x <* y).Raises ↔ x.Raises ∨ y.Raises := by
  show (Function.const _ <$> x <*> y).Raises ↔ _
  rw [raises_seq, raises_fmap]

@[simp] theorem raises_under (s : Step) (x : Checked α) : (x.under s).Raises ↔ x.Raises := by
  cases x <;> simp [under]

/-- A further question can only raise a fault about a value that is there. -/
theorem raises_andThen (x : Checked α) (f : α → Checked β) :
    (x.andThen f).Raises ↔ x.Raises ∨ ∃ a, x = ok a ∧ (f a).Raises := by
  cases x <;> simp [andThen]

theorem not_raises_andThen {x : Checked α} {f : α → Checked β} (hx : ¬ x.Raises)
    (hf : ∀ a, ¬ (f a).Raises) : ¬ (x.andThen f).Raises := by
  rw [raises_andThen]
  rintro (h | ⟨a, _, h⟩)
  · exact hx h
  · exact hf a h

@[simp] theorem raises_each (f : α → Checked β) (i : Nat) (as : List α) :
    (each f i as).Raises ↔ ∃ a ∈ as, (f a).Raises := by
  induction as generalizing i with
  | nil => simp [each]
  | cons a as ih => simp [each, ih]

end Checked

namespace Schema

open Checked

variable {α : Type}

/-- A field raises a fault if its value does. -/
@[simp] theorem raises_required (o : Fields) (f : FieldName) (read : Doc → Checked α) :
    (required o f read).Raises ↔ ∃ p, f.find? o = some p ∧ (read p.2).Raises := by
  unfold required
  split
  · rename_i k v hf
    simp [hf]
  · rename_i hf
    simp [hf]

@[simp] theorem raises_optional (o : Fields) (f : FieldName) (a : α) (read : Doc → Checked α) :
    (optional o f a read).Raises ↔ ∃ p, f.find? o = some p ∧ (read p.2).Raises := by
  unfold optional
  split
  · rename_i k v hf
    simp [hf]
  · rename_i hf
    simp [hf]

@[simp] theorem not_raises_noOthers (o : Fields) (fs : List FieldName) :
    ¬ (noOthers o fs).Raises := by
  unfold noOthers
  dsimp only
  split <;> simp

@[simp] theorem not_raises_text (d : Doc) : ¬ (text d).Raises := by
  unfold text
  split <;> simp

@[simp] theorem not_raises_filledText (d : Doc) : ¬ (filledText d).Raises := by
  refine not_raises_andThen (not_raises_text d) fun s => ?_
  split <;> simp

@[simp] theorem not_raises_boundedText (n : Nat) (d : Doc) : ¬ (boundedText n d).Raises := by
  refine not_raises_andThen (not_raises_text d) fun s => ?_
  split
  · simp
  · split <;> simp

@[simp] theorem not_raises_integer (d : Doc) : ¬ (integer d).Raises := by
  unfold integer
  split
  case h_3 x =>
    split
    · simp
    · split
      · simp
      · split <;> simp
  all_goals simp

@[simp] theorem not_raises_natural (d : Doc) : ¬ (natural d).Raises := by
  refine not_raises_andThen (not_raises_integer d) fun n => ?_
  split <;> simp

@[simp] theorem not_raises_positive (d : Doc) : ¬ (positive d).Raises := by
  refine not_raises_andThen (not_raises_integer d) fun n => ?_
  split <;> simp

@[simp] theorem not_raises_double (d : Doc) : ¬ (double d).Raises := by
  unfold double
  split <;> simp

@[simp] theorem not_raises_nonNegative (d : Doc) : ¬ (nonNegative d).Raises := by
  refine not_raises_andThen (not_raises_double d) fun x => ?_
  split <;> simp

@[simp] theorem not_raises_truth (d : Doc) : ¬ (truth d).Raises := by
  unfold truth
  split
  case h_2 n =>
    split
    · simp
    · split <;> simp
  case h_3 x =>
    split
    · simp
    · split <;> simp
  case h_4 s =>
    dsimp only
    split
    · simp
    · split <;> simp
  all_goals simp

@[simp] theorem not_raises_oneOf (c : List String → Cause) (ns : List (String × α)) (d : Doc) :
    ¬ (oneOf c ns d).Raises := by
  unfold oneOf
  split <;> simp

/-- A value that may be `null` raises a fault only where it is not. -/
theorem not_raises_nullable {f : Doc → Checked α} (hf : ∀ d, ¬ (f d).Raises) (d : Doc) :
    ¬ (nullable f d).Raises := by
  unfold nullable
  split
  · simp
  · simpa using hf d

theorem not_raises_entries {f : Doc → Checked α} (hf : ∀ d, ¬ (f d).Raises) (o : Fields) :
    ¬ (entries f o).Raises := by
  induction o with
  | nil => simp [entries]
  | cons p o ih =>
    obtain ⟨k, v⟩ := p
    simp [entries, textKey, hf, ih]

@[simp] theorem not_raises_table (d : Doc) : ¬ (table d).Raises := by
  unfold table
  split
  · simpa using not_raises_entries not_raises_ok _
  · simp

@[simp] theorem not_raises_textTable (d : Doc) : ¬ (textTable d).Raises := by
  unfold textTable
  split
  · exact not_raises_entries not_raises_text _
  · simp

end Schema

/-- A value whose members cannot be asked for. -/
def Doc.Unmembered (d : Doc) : Prop := ∃ e, d.members = .error e

/-! ## Weekdays -/

@[simp] theorem not_raises_nameDays (ds : List Doc) : ¬ (nameDays ds).Raises := by
  fun_induction nameDays ds with
  | case1 => simp
  | case2 s r _ => simp
  | case3 s r n _ ih => simpa using ih
  | case4 d r _ ih => simpa using ih

/-- The check of days ends in a fault at a value without order, if all days before it
lie in the week. -/
theorem raises_checkDays (ds : List Doc) : (checkDays ds).Raises ↔
    ∃ pre d post, ds = pre ++ d :: post ∧ (∀ c ∈ pre, isWeekNumber c = .ok true)
      ∧ ∃ e, isWeekNumber d = .error e := by
  induction ds with
  | nil => simp [checkDays]
  | cons d ds ih =>
    unfold checkDays
    cases hd : isWeekNumber d with
    | error e =>
      refine ⟨fun _ => ⟨[], d, ds, rfl, by simp, e, hd⟩, fun _ => Checked.raises_broken e⟩
    | ok b =>
      cases b with
      | false =>
        refine ⟨fun h => absurd h (Checked.not_raises_flaw _), ?_⟩
        rintro ⟨pre, c, post, h, hpre, e, hc⟩
        cases pre with
        | nil =>
          obtain ⟨rfl, _⟩ := List.cons.inj h
          rw [hd] at hc
          cases hc
        | cons p pre =>
          obtain ⟨rfl, _⟩ := List.cons.inj h
          have hp := hpre d (List.mem_cons_self ..)
          rw [hd] at hp
          cases hp
      | true =>
        show (checkDays ds).Raises ↔ _
        rw [ih]
        constructor
        · rintro ⟨pre, c, post, rfl, hpre, hc⟩
          refine ⟨d :: pre, c, post, rfl, fun x hx => ?_, hc⟩
          rcases List.mem_cons.1 hx with rfl | hx
          · exact hd
          · exact hpre x hx
        · rintro ⟨pre, c, post, h, hpre, hc⟩
          cases pre with
          | nil =>
            obtain ⟨rfl, _⟩ := List.cons.inj h
            obtain ⟨e, he⟩ := hc
            rw [hd] at he
            cases he
          | cons p pre =>
            obtain ⟨_, rfl⟩ := List.cons.inj h
            exact ⟨pre, c, post, rfl, fun x hx => hpre x (List.mem_cons_of_mem _ hx), hc⟩

/-- Weekdays whose reading ends in a fault: a value other than `null` without members, or
one with a member that has no order with numbers, where every name is that of a weekday
and all members before it lie in the week. -/
def DaysRaise (d : Doc) : Prop :=
  d ≠ .null ∧ (d.Unmembered ∨ ∃ ms pre c post, d.members = .ok ms
    ∧ nameDays ms = .ok (pre ++ c :: post) ∧ (∀ b ∈ pre, isWeekNumber b = .ok true)
    ∧ ∃ e, isWeekNumber c = .error e)

theorem raises_readDays (d : Doc) : (readDays d).Raises ↔ DaysRaise d := by
  unfold readDays DaysRaise
  split
  · simp
  · rename_i hnull
    unfold Doc.Unmembered
    cases hm : d.members with
    | error e => simpa using hnull
    | ok ms =>
      simp only [Checked.raises_andThen, not_raises_nameDays, raises_checkDays, Checked.raises_map,
        Checked.raises_each, not_raises_integer]
      constructor
      · rintro (h | ⟨ds, hn, ⟨pre, c, post, rfl, hpre, hc⟩ | ⟨_, _, _, _, h⟩⟩)
        · exact h.elim
        · exact ⟨fun h => hnull h, .inr ⟨ms, pre, c, post, rfl, hn, hpre, hc⟩⟩
        · exact h.elim
      · rintro ⟨_, ⟨e, he⟩ | ⟨ms', pre, c, post, hms, hn, hpre, hc⟩⟩
        · cases he
        · cases hms
          exact .inr ⟨_, hn, .inl ⟨pre, c, post, rfl, hpre, hc⟩⟩

/-! ## Leaves -/

@[simp] theorem not_raises_readTimeOfDay (d : Doc) : ¬ (readTimeOfDay d).Raises := by
  refine Checked.not_raises_andThen (not_raises_text d) fun s => ?_
  split <;> simp

@[simp] theorem not_raises_readComparison (d : Doc) : ¬ (Comparison.read d).Raises :=
  not_raises_oneOf _ _ _

@[simp] theorem not_raises_readLogic (d : Doc) : ¬ (Logic.read d).Raises := not_raises_oneOf _ _ _

@[simp] theorem not_raises_readAggregation (d : Doc) : ¬ (Aggregation.read d).Raises :=
  not_raises_oneOf _ _ _

@[simp] theorem not_raises_readTrend (d : Doc) : ¬ (Trend.read d).Raises := not_raises_oneOf _ _ _

theorem mem_of_lookup {α : Type} {xs : List (String × α)} {k : String} {a : α}
    (h : xs.lookup k = some a) : (k, a) ∈ xs := by
  obtain ⟨l, r, rfl, _⟩ := List.lookup_eq_some_iff.1 h
  exact List.mem_append_right _ (List.mem_cons_self ..)

/-- Of the leaves only a test of the local time raises faults, by its weekdays. -/
theorem raises_leaf {name : String} {read : Fields → Checked Leaf}
    (h : leafReaders.lookup name = some read) (o : Fields) : (read o).Raises ↔
      name = "time" ∧ ∃ p, Key.daysOfWeek.find? o = some p ∧ DaysRaise p.2 := by
  have hmem := mem_of_lookup h
  simp only [leafReaders, List.mem_cons, List.not_mem_nil, or_false, Prod.mk.injEq] at hmem
  rcases hmem with ⟨rfl, rfl⟩ | ⟨rfl, rfl⟩ | ⟨rfl, rfl⟩ | ⟨rfl, rfl⟩ | ⟨rfl, rfl⟩ | ⟨rfl, rfl⟩
  · simp [SensorTest.read]
  · simp [DeviceTest.read]
  · simp [TimeTest.read, raises_readDays]
  · simp [HistoryTest.read]
  · simp [TrendTest.read]
  · simp [HeartbeatTest.read]

/-! ## Nodes -/

namespace Condition

/-- The children of a group as its table has them. -/
def childrenOf? (o : Fields) : Option Doc :=
  (Fields.get? "rules" o).orElse fun _ => Fields.get? "children" o

/-- The nodes whose reading ends in a fault. -/
inductive Raises : Doc → Prop
  /-- A node that nests without end. -/
  | endless : Raises (.atom .endless)
  /-- A list with such a node. -/
  | item {xs : List Doc} {d : Doc} (mem : d ∈ xs) (raises : Raises d) : Raises (.list xs)
  /-- A group with such a child. -/
  | child {o : Fields} {xs : List Doc} {d : Doc} (group : nodeTag? o = some (.str "group"))
      (children : childrenOf? o = some (.list xs)) (mem : d ∈ xs) (raises : Raises d) :
      Raises (.obj o)
  /-- A group whose children have no members. -/
  | childless {o : Fields} {d : Doc} (group : nodeTag? o = some (.str "group"))
      (children : childrenOf? o = some d) (unmembered : d.Unmembered) : Raises (.obj o)
  /-- A test of the local time with such weekdays. -/
  | days {o : Fields} {tag : Doc} {p : String × Doc} (tagged : nodeTag? o = some tag)
      (time : tag.text = "time") (days : Key.daysOfWeek.find? o = some p) (raises : DaysRaise p.2) :
      Raises (.obj o)

theorem raises_readList (i : Nat) (ds : List Doc) :
    (readList i ds).Raises ↔ ∃ d ∈ ds, (read d).Raises := by
  induction ds generalizing i with
  | nil => simp [readList]
  | cons d ds ih => simp [readList, ih]

@[simp] theorem not_raises_notNodes (i : Nat) (ds : List Doc) : ¬ (notNodes i ds).Raises := by
  induction ds generalizing i with
  | nil => simp [notNodes]
  | cons d ds ih => simp [notNodes, ih]

theorem raises_readChildren (d : Doc) : (readChildren d).Raises ↔
    (∃ xs, d = .list xs ∧ ∃ c ∈ xs, (read c).Raises) ∨ d.Unmembered := by
  unfold Doc.Unmembered
  cases d with
  | list xs => simp [readChildren, raises_readList, Doc.members]
  | obj o => simp [readChildren, Doc.members]
  | set xs => simp [readChildren, Doc.members]
  | atom a =>
    unfold readChildren
    split
    · rename_i ms hm
      simp [hm]
    · rename_i e hm
      simp [hm]

/-- The children among the readings of a table's fields are the reading of the field
that holds them. -/
theorem childrenIn_readFields (o : Fields) : childrenIn (readFields o)
    = ((childrenOf? o).map readChildren).getD (.ok []) := by
  have hnamed : ∀ k, ((readFields o).find? fun p => p.1.isText k).map (·.2)
      = (Fields.get? k o).map readChildren := by
    intro k
    induction o with
    | nil => rfl
    | cons f o ih =>
      obtain ⟨a, v⟩ := f
      rw [readFields, List.find?_cons, Fields.get?_cons]
      by_cases ha : a.isText k = true
      · simp [ha]
      · simpa [ha] using ih
  unfold childrenIn childrenOf?
  simp only [hnamed]
  cases Fields.get? "rules" o <;> rfl

/-- The reading of the field that holds the children. -/
theorem raises_childrenIn (o : Fields) : (childrenIn (readFields o)).Raises ↔
    ∃ d, childrenOf? o = some d ∧ (readChildren d).Raises := by
  rw [childrenIn_readFields]
  cases childrenOf? o <;> simp

theorem raises_readGroup (o : Fields) (children : Checked (List Condition)) :
    (readGroup o children).Raises ↔ children.Raises := by
  unfold readGroup
  simp [Checked.raises_andThen]

theorem raises_readTable (o : Fields) (children : Checked (List Condition)) :
    (readTable o children).Raises ↔
      (nodeTag? o = some (.str "group") ∧ children.Raises)
        ∨ ∃ tag, nodeTag? o = some tag ∧ tag.text = "time"
          ∧ ∃ p, Key.daysOfWeek.find? o = some p ∧ DaysRaise p.2 := by
  unfold readTable
  split
  · rename_i h
    simp [h]
  · rename_i h
    rw [Checked.raises_under, raises_readGroup]
    refine ⟨fun hc => .inl ⟨h, hc⟩, ?_⟩
    rintro (⟨_, hc⟩ | ⟨tag, htag, htime, _⟩)
    · exact hc
    · rw [h] at htag
      cases htag
      exact absurd htime (by decide)
  · rename_i tag hgroup h
    have hnot : nodeTag? o ≠ some (.str "group") := fun hg => hgroup (Option.some.inj (h ▸ hg))
    have htag : ∀ t, nodeTag? o = some t → t = tag := fun t ht => Option.some.inj (ht.symm.trans h)
    split
    · rename_i read hread
      rw [Checked.raises_under, Checked.raises_fmap, raises_leaf hread]
      constructor
      · rintro ⟨htime, hdays⟩
        exact .inr ⟨tag, h, htime, hdays⟩
      · rintro (⟨hg, _⟩ | ⟨t, ht, htime, hdays⟩)
        · exact absurd hg hnot
        · rw [htag t ht] at htime
          exact ⟨htime, hdays⟩
    · rename_i hread
      refine ⟨fun hr => absurd hr (Checked.not_raises_flaw _), ?_⟩
      rintro (⟨hg, _⟩ | ⟨t, ht, htime, _⟩)
      · exact absurd hg hnot
      · rw [htag t ht] at htime
        rw [htime] at hread
        cases hread

theorem mem_of_get? {k : String} {o : Fields} {d : Doc} (h : Fields.get? k o = some d) :
    ∃ a, (a, d) ∈ o := by
  induction o with
  | nil => cases h
  | cons f o ih =>
    obtain ⟨a, v⟩ := f
    rw [Fields.get?_cons] at h
    split at h
    · cases h
      exact ⟨a, List.mem_cons_self ..⟩
    · obtain ⟨b, hb⟩ := ih h
      exact ⟨b, List.mem_cons_of_mem _ hb⟩

/-- The children of a group are smaller than its table. -/
theorem sizeOf_childrenOf {o : Fields} {d : Doc} (h : childrenOf? o = some d) :
    sizeOf d < sizeOf (Doc.obj o) := by
  obtain ⟨a, hmem⟩ : ∃ a, (a, d) ∈ o := by
    unfold childrenOf? at h
    cases hr : Fields.get? "rules" o with
    | none =>
      rw [hr] at h
      exact mem_of_get? h
    | some v =>
      rw [hr] at h
      cases h
      exact mem_of_get? hr
  have hlt := List.sizeOf_lt_of_mem hmem
  simp only [Prod.mk.sizeOf_spec, Doc.obj.sizeOf_spec] at hlt ⊢
  omega

/-- A scalar is no node; only nesting without end is a fault. -/
theorem raises_read_atom (a : Atom) : (read (.atom a)).Raises ↔ a = .endless := by
  cases a <;> simp [read, readAtom]

/-- Where the reading of a node ends in a fault, the node is one of these. -/
theorem raises_of_read {d : Doc} (h : (read d).Raises) : Raises d := by
  match d with
  | .atom a =>
    obtain rfl := (raises_read_atom a).1 h
    exact .endless
  | .set xs => exact absurd h (by simp [read])
  | .list xs =>
    simp only [read, Checked.raises_map, Checked.raises_under, raises_readList] at h
    obtain ⟨c, hc, hraises⟩ := h
    exact .item hc (raises_of_read hraises)
  | .obj o =>
    rw [read, raises_readTable, raises_childrenIn] at h
    rcases h with ⟨hgroup, v, hv, hraises⟩ | ⟨tag, htag, htime, p, hp, hdays⟩
    · rcases (raises_readChildren v).1 hraises with ⟨xs, rfl, c, hc, hraises⟩ | hnone
      · exact .child hgroup hv hc (raises_of_read hraises)
      · exact .childless hgroup hv hnone
    · exact .days htag htime hp hdays
termination_by sizeOf d
decreasing_by
  · have hlt := List.sizeOf_lt_of_mem hc
    simp only [Doc.list.sizeOf_spec]
    omega
  · have hlt := List.sizeOf_lt_of_mem hc
    have hsize := sizeOf_childrenOf hv
    simp only [Doc.list.sizeOf_spec] at hsize
    omega

/-- The reading of a node ends in a fault exactly for these nodes. -/
theorem raises_read (d : Doc) : (read d).Raises ↔ Raises d := by
  refine ⟨raises_of_read, fun h => ?_⟩
  induction h with
  | endless => exact (raises_read_atom _).2 rfl
  | item mem _ ih =>
    simp only [read, Checked.raises_map, Checked.raises_under, raises_readList]
    exact ⟨_, mem, ih⟩
  | child group children mem _ ih =>
    rw [read, raises_readTable, raises_childrenIn]
    exact .inl ⟨group, _, children, (raises_readChildren _).2 (.inl ⟨_, rfl, _, mem, ih⟩)⟩
  | childless group children unmembered =>
    rw [read, raises_readTable, raises_childrenIn]
    exact .inl ⟨group, _, children, (raises_readChildren _).2 (.inr unmembered)⟩
  | days tagged time days raises =>
    rw [read, raises_readTable]
    exact .inr ⟨_, tagged, time, _, days, raises⟩

end Condition

/-! ## Actions -/

theorem raises_readMedia (d : Doc) : (readMedia d).Raises ↔ d.Unmembered := by
  unfold readMedia Doc.Unmembered
  have hmedium : ∀ c, ¬ (Medium.read c).Raises := not_raises_oneOf _ _
  split
  · rename_i s
    simp [hmedium, Doc.members]
  · cases hm : d.members with
    | error e => simp
    | ok ms => simp [hmedium]

@[simp] theorem not_raises_readSetting (d : Doc) : ¬ (Setting.read d).Raises := by
  unfold Setting.read
  split
  · simp
  · simp
  · split
    · simp
    · simp

@[simp] theorem not_raises_readUrl (d : Doc) : ¬ (readUrl d).Raises := by
  unfold readUrl
  split
  · split
    · simp
    · split <;> simp
  · simp

theorem raises_noticeAction (o : Fields) : (NoticeAction.read o).Raises ↔
    ∃ p, Key.channels.find? o = some p ∧ p.2.Unmembered := by
  have htitle : ∀ d, ¬ (nullable text d).Raises := not_raises_nullable not_raises_text
  have hurgency : ∀ d, ¬ (Urgency.read d).Raises := not_raises_oneOf _ _
  simp [NoticeAction.read, raises_readMedia, htitle, hurgency]

theorem not_raises_deviceAction (o : Fields) : ¬ (DeviceAction.read o).Raises := by
  have hcommand : ∀ d, ¬ (Command.read d).Raises := fun d => not_raises_oneOf _ _ _
  have hvalue : ∀ d, ¬ (nullable Setting.read d).Raises := not_raises_nullable not_raises_readSetting
  have hduration : ∀ d, ¬ (nullable positive d).Raises := not_raises_nullable not_raises_positive
  refine Checked.not_raises_andThen ?_ fun a => ?_
  · simp [hcommand, hvalue, hduration]
  · split <;> simp

theorem not_raises_webhookAction (o : Fields) : ¬ (WebhookAction.read o).Raises := by
  have hmethod : ∀ d, ¬ (Method.read d).Raises := fun d => not_raises_oneOf _ _ _
  have hpayload : ∀ d, ¬ (nullable table d).Raises := not_raises_nullable not_raises_table
  simp [WebhookAction.read, hmethod, hpayload]

theorem not_raises_jobAction (o : Fields) : ¬ (JobAction.read o).Raises := by
  have hrank : ∀ d, ¬ (JobRank.read d).Raises := not_raises_oneOf _ _
  simp [JobAction.read, hrank]

namespace Action

/-- The actions whose reading ends in a fault: notices with media that have no members. -/
def Raises (d : Doc) : Prop :=
  ∃ o tag p, d = .obj o ∧ Fields.get? "type" o = some tag
    ∧ (onText kindName tag).text = "notification" ∧ Key.channels.find? o = some p
    ∧ p.2.Unmembered

theorem raises_reader {kind : String} {read : Fields → Checked Action}
    (h : readers.lookup kind = some read) (o : Fields) : (read o).Raises ↔
      kind = "notification" ∧ ∃ p, Key.channels.find? o = some p ∧ p.2.Unmembered := by
  have hmem := mem_of_lookup h
  simp only [readers, List.mem_cons, List.not_mem_nil, or_false, Prod.mk.injEq] at hmem
  rcases hmem with ⟨rfl, rfl⟩ | ⟨rfl, rfl⟩ | ⟨rfl, rfl⟩ | ⟨rfl, rfl⟩
  · simp [raises_noticeAction]
  · simp [not_raises_deviceAction]
  · simp [not_raises_webhookAction]
  · simp [not_raises_jobAction]

theorem raises_read (d : Doc) : (read d).Raises ↔ Raises d := by
  unfold read Raises
  split
  · rename_i o
    split
    · rename_i htag
      simp [htag]
    · rename_i tag htag
      dsimp only
      split
      · rename_i read hread
        rw [Checked.raises_under, raises_reader hread]
        constructor
        · rintro ⟨hkind, p, hp, hmedia⟩
          exact ⟨o, tag, p, rfl, htag, hkind, hp, hmedia⟩
        · rintro ⟨o', tag', p, ho, htag', hkind, hp, hmedia⟩
          cases ho
          rw [htag] at htag'
          cases htag'
          exact ⟨hkind, p, hp, hmedia⟩
      · rename_i hread
        refine ⟨fun hr => absurd hr (Checked.not_raises_flaw _), ?_⟩
        rintro ⟨o', tag', p, ho, htag', hkind, _, _⟩
        cases ho
        rw [htag] at htag'
        cases htag'
        rw [hkind] at hread
        cases hread
  · rename_i hobj
    refine ⟨fun hr => absurd hr (Checked.not_raises_flaw _), ?_⟩
    rintro ⟨o, _, _, rfl, _⟩
    exact absurd rfl (hobj o)

end Action

/-! ## Rows -/

/-- A reading that ended in a fault instead of a refusal. -/
def Faulty {α : Type} (x : Except Refusal α) : Prop := ∃ f, x = .error (.fault f)

instance {α : Type} : (x : Except Refusal α) → Decidable (Faulty x)
  | .ok _ => isFalse nofun
  | .error (.rejected _) => isFalse nofun
  | .error (.fault f) => isTrue ⟨f, rfl⟩

theorem faulty_bind {α β : Type} (x : Except Refusal α) (f : α → Except Refusal β) :
    Faulty (x >>= f) ↔ Faulty x ∨ ∃ a, x = .ok a ∧ Faulty (f a) := by
  unfold Faulty
  cases x with
  | error e =>
    show (∃ g, Except.error e = _) ↔ _
    simp
  | ok a =>
    show (∃ g, f a = _) ↔ _
    simp

/-- What a column holds: the document itself, or what it says as a JSON text. -/
def Doc.Column (d c : Doc) : Prop := d = c ∨ ∃ s, d = .str s ∧ Json.read s = .ok c

theorem Condition.not_raises_str (s : String) : ¬ Condition.Raises (.str s) := by
  rintro ⟨⟩

theorem Condition.faulty_accept (x : Checked Condition) :
    Faulty (Condition.parse.accept x) ↔ x.Raises := by
  unfold Faulty
  cases x <;> simp [Condition.parse.accept]

/-- Conditions end in a fault where the node that their column holds does. -/
theorem Condition.faulty_parse (d : Doc) :
    Faulty (Condition.parse d) ↔ ∃ c, d.Column c ∧ Condition.Raises c := by
  unfold Condition.parse
  split
  · rename_i s
    have hcolumn : (∃ c, (Doc.str s).Column c ∧ Condition.Raises c) ↔
        ∃ c, Json.read s = .ok c ∧ Condition.Raises c := by
      constructor
      · rintro ⟨c, rfl | ⟨t, ht, hread⟩, hc⟩
        · exact absurd hc (Condition.not_raises_str s)
        · cases ht
          exact ⟨c, hread, hc⟩
      · rintro ⟨c, hread, hc⟩
        exact ⟨c, .inr ⟨s, rfl, hread⟩, hc⟩
    rw [hcolumn]
    split
    · rename_i c hread
      rw [Condition.faulty_accept, Condition.raises_read]
      simp [hread]
    · rename_i f hread
      simp [Faulty, hread]
  · rename_i hstr
    rw [Condition.faulty_accept, Condition.raises_read]
    refine ⟨fun h => ⟨d, .inl rfl, h⟩, ?_⟩
    rintro ⟨c, rfl | ⟨s, hs, _⟩, hc⟩
    · exact hc
    · exact absurd hs (hstr s)

theorem Action.faulty_accept (d : Doc) : Faulty (Action.parse.accept d) ↔
    ∃ xs, d = .list xs ∧ ∃ a ∈ xs, Action.Raises a := by
  unfold Action.parse.accept
  split
  · rename_i xs
    have heach := Checked.raises_each Action.read 0 xs
    simp only [Action.raises_read] at heach
    cases hx : Checked.each Action.read 0 xs with
    | ok as =>
      rw [hx] at heach
      simp [Faulty, ← heach]
    | flawed is =>
      rw [hx] at heach
      simp [Faulty, ← heach]
    | broken e =>
      rw [hx] at heach
      simp [Faulty, ← heach]
  · rename_i hlist
    constructor
    · rintro ⟨f, hf⟩
      cases hf
    · rintro ⟨xs, rfl, _⟩
      exact absurd rfl (hlist xs)

/-- Actions end in a fault where some action of the list that their column holds does. -/
theorem Action.faulty_parse (d : Doc) : Faulty (Action.parse d) ↔
    ∃ xs, d.Column (.list xs) ∧ ∃ a ∈ xs, Action.Raises a := by
  unfold Action.parse
  split
  · constructor
    · rintro ⟨f, hf⟩
      cases hf
    · rintro ⟨xs, hc | ⟨s, hs, _⟩, _⟩
      · cases hc
      · cases hs
  · rename_i s
    split
    · rename_i c hread
      rw [Action.faulty_accept]
      constructor
      · rintro ⟨xs, rfl, hraises⟩
        exact ⟨xs, .inr ⟨s, rfl, hread⟩, hraises⟩
      · rintro ⟨xs, hc | ⟨t, ht, hread'⟩, hraises⟩
        · cases hc
        · cases ht
          rw [hread] at hread'
          cases hread'
          exact ⟨xs, rfl, hraises⟩
    · rename_i f hread
      constructor
      · rintro ⟨g, hg⟩
        cases hg
      · rintro ⟨xs, hc | ⟨t, ht, hread'⟩, _⟩
        · cases hc
        · cases ht
          rw [hread] at hread'
          cases hread'
  · rename_i hnull hstr
    rw [Action.faulty_accept]
    constructor
    · rintro ⟨xs, rfl, hraises⟩
      exact ⟨xs, .inl rfl, hraises⟩
    · rintro ⟨xs, rfl | ⟨s, hs, _⟩, hraises⟩
      · exact ⟨xs, rfl, hraises⟩
      · exact absurd hs (hstr s)

namespace Definition

theorem faulty_accept {α : Type} (wrap : List Issue → Rejection) (x : Checked α) :
    Faulty (accept wrap x) ↔ x.Raises := by
  unfold Faulty
  cases x <;> simp [accept]

/-- The tables whose reading as a definition ends in a fault: by their conditions, or by
their actions where the conditions are missing or can be read. -/
def FieldsRaise (o : Fields) : Prop :=
  (∃ v, Fields.get? "conditions" o = some v ∧ ∃ c, v.Column c ∧ Condition.Raises c)
    ∨ (∀ v, Fields.get? "conditions" o = some v → ∃ c, Condition.parse v = .ok c)
      ∧ ∃ v, Fields.get? "actions" o = some v
        ∧ ∃ xs, v.Column (.list xs) ∧ ∃ a ∈ xs, Action.Raises a

theorem faulty_readConditions (o : Fields) : Faulty (readConditions o) ↔
    ∃ v, Fields.get? "conditions" o = some v ∧ ∃ c, v.Column c ∧ Condition.Raises c := by
  unfold readConditions
  split
  · rename_i h
    simp [Faulty, h]
  · rename_i v h
    rw [h]
    simp only [Option.some.injEq, exists_eq_left', ← Condition.faulty_parse]
    cases Condition.parse v <;> simp [Faulty, Except.map]

/-- Conditions that are not refused are missing or can be read, and hold no fault. -/
theorem readConditions_eq_ok_iff (o : Fields) :
    ((∃ x, readConditions o = .ok x) ↔
        ∀ v, Fields.get? "conditions" o = some v → ∃ c, Condition.parse v = .ok c)
      ∧ ∀ x, readConditions o = .ok x → ¬ x.Raises := by
  unfold readConditions
  split
  · rename_i h
    refine ⟨by simp [h], ?_⟩
    rintro x ⟨⟩
    simp
  · rename_i v h
    simp only [h, Option.some.injEq, forall_eq']
    cases Condition.parse v <;> simp [Except.map]

theorem faulty_readActions (o : Fields) : Faulty (readActions o) ↔
    ∃ v, Fields.get? "actions" o = some v
      ∧ ∃ xs, v.Column (.list xs) ∧ ∃ a ∈ xs, Action.Raises a := by
  unfold readActions
  split
  · rename_i h
    simp [Faulty, h]
  · rename_i v h
    simp only [h, Option.some.injEq, exists_eq_left', ← Action.faulty_parse]

/-- The reading of a definition ends in a fault exactly for these tables; what is left of
it otherwise holds no fault. -/
theorem faulty_readFields (o : Fields) :
    (Faulty (readFields o) ↔ FieldsRaise o) ∧ ∀ x, readFields o = .ok x → ¬ x.Raises := by
  have hdescription : ∀ d, ¬ (nullable text d).Raises := not_raises_nullable not_raises_text
  have hok : ∀ x : Checked Definition, ¬ Faulty (.ok x) := by
    rintro x ⟨f, hf⟩
    cases hf
  unfold readFields
  constructor
  · simp only [faulty_bind, hok, and_false, exists_false, or_false]
    rw [FieldsRaise, ← faulty_readConditions, ← faulty_readActions,
      ← (readConditions_eq_ok_iff o).1, exists_and_right]
  · intro x hx
    obtain ⟨c, hc, hx⟩ := bind_eq_ok.1 hx
    obtain ⟨as, _, hx⟩ := bind_eq_ok.1 hx
    cases hx
    simp [hdescription, (readConditions_eq_ok_iff o).2 c hc]

end Definition

/-- The rows whose reading ends in a fault: by their conditions, or by their actions
where the conditions can be read. -/
def RuleRow.Raises (r : RuleRow) : Prop :=
  (∃ c, r.conditions.Column c ∧ Condition.Raises c)
    ∨ (∃ c, Condition.parse r.conditions = .ok c)
      ∧ ∃ xs, r.actions.Column (.list xs) ∧ ∃ a ∈ xs, Action.Raises a

theorem RuleRow.readConditions_fields (r : RuleRow) :
    Definition.readConditions r.fields = (Condition.parse r.conditions).map .ok := rfl

theorem RuleRow.readActions_fields (r : RuleRow) :
    Definition.readActions r.fields = Action.parse r.actions := rfl

/-- The definition of a row ends in a fault by its conditions or its actions; what is
left of it holds no fault. -/
theorem RuleRow.faulty_readFields (r : RuleRow) :
    (Faulty (Definition.readFields r.fields) ↔ r.Raises)
      ∧ ∀ x, Definition.readFields r.fields = .ok x → ¬ x.Raises := by
  have hconditions : Fields.get? "conditions" r.fields = some r.conditions := rfl
  have hactions : Fields.get? "actions" r.fields = some r.actions := rfl
  obtain ⟨hfields, hcalm⟩ := Definition.faulty_readFields r.fields
  refine ⟨?_, hcalm⟩
  rw [hfields, Definition.FieldsRaise, RuleRow.Raises]
  simp only [hconditions, hactions, Option.some.injEq, exists_eq_left', forall_eq']

/-- A stored rule ends in a fault exactly for these rows. -/
theorem RuleRow.faulty_toRule (r : RuleRow) : Faulty r.toRule ↔ r.Raises := by
  obtain ⟨hfields, hcalm⟩ := r.faulty_readFields
  have hread : Faulty (Rule.read r.fields ((r.lastTriggered.map fun i => ⟨i, none⟩).map
      Calendar.Moment.assumeUtc)) ↔ r.Raises := by
    unfold Rule.read
    rw [faulty_bind, hfields]
    refine or_iff_left ?_
    rintro ⟨x, hx, hfaulty⟩
    rw [Definition.faulty_accept] at hfaulty
    simp [hcalm x hx] at hfaulty
  unfold RuleRow.toRule Rule.ofRecord
  rw [← hread]
  unfold Faulty
  split
  · rename_i q hq
    simp only [hq, reduceCtorEq]
  · rename_i e he
    rw [he]
    cases e <;> simp [Refusal.within]

instance (r : RuleRow) : Decidable r.Raises := decidable_of_iff _ r.faulty_toRule

end Glasshouse
