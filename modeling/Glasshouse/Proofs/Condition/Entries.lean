/-
Glasshouse.Proofs.Condition.Entries — what of a snapshot its document shows. The answer to
a question stands in the part of its kind, under a key that joins the names in
the question by dots. A key tells its function and its window, but not where the
name of the sensor ends and that of the field begins; of questions that differ
in nothing else, the document shows the last. Main statement:
`document_lossless_iff`, for every tree, every zone and any answers.
-/
import Glasshouse.Proofs.Doc.Json
import Glasshouse.Proofs.Condition.Snapshot
import Glasshouse.Condition.Writer
import Glasshouse.Condition.Reader
import Mathlib.Data.List.Nodup

namespace Glasshouse

open Calendar

/-! ## Names joined by dots -/

namespace Text

/-- What stands behind the last dot, and what before it. -/
theorem last_dot_inj {a b x y : String} (hx : '.' ∉ x.toList) (hy : '.' ∉ y.toList)
    (h : a ++ "." ++ x = b ++ "." ++ y) : a = b ∧ x = y := by
  have hchars : a.toList ++ '.' :: x.toList = b.toList ++ '.' :: y.toList := by
    simpa using congrArg String.toList h
  refine (and_congr String.toList_inj String.toList_inj).1 ?_
  rcases List.append_eq_append_iff.1 hchars with ⟨c, hb, hc⟩ | ⟨c, ha, hc⟩
  · cases c with
    | nil => exact ⟨by simpa using hb.symm, (List.cons.inj hc).2⟩
    | cons d c => exact absurd (by simp [(List.cons.inj hc).2]) hx
  · cases c with
    | nil => exact ⟨by simpa using ha, (List.cons.inj hc).2.symm⟩
    | cons d c => exact absurd (by simp [(List.cons.inj hc).2]) hy

/-- What stands before the first dot, and what behind it. -/
theorem first_dot_inj {a b x y : String} (ha : '.' ∉ a.toList) (hb : '.' ∉ b.toList)
    (h : a ++ "." ++ x = b ++ "." ++ y) : a = b ∧ x = y := by
  have hchars : a.toList ++ '.' :: x.toList = b.toList ++ '.' :: y.toList := by
    simpa using congrArg String.toList h
  refine (and_congr String.toList_inj String.toList_inj).1 ?_
  rcases List.append_eq_append_iff.1 hchars with ⟨c, hc, hxy⟩ | ⟨c, hc, hxy⟩
  · cases c with
    | nil => exact ⟨by simpa using hc.symm, (List.cons.inj hxy).2⟩
    | cons d c => exact absurd (by rw [hc, (List.cons.inj hxy).1]; simp) hb
  · cases c with
    | nil => exact ⟨by simpa using hc, (List.cons.inj hxy).2.symm⟩
    | cons d c => exact absurd (by rw [hc, (List.cons.inj hxy).1]; simp) ha

end Text

theorem Aggregation.dot_not_mem_name (fn : Aggregation) : '.' ∉ fn.name.toList := by
  cases fn <;> decide

theorem Aggregation.name_injective : Function.Injective Aggregation.name := by
  intro fn gn h
  cases fn <;> cases gn <;> first | rfl | exact absurd h (by decide)

theorem Snapshot.dot_not_mem_windowText (n : Nat) : '.' ∉ (windowText n).toList := by
  unfold windowText
  rw [String.toList_append, show (toString n).toList = Nat.toDigits 10 n from Nat.toList_repr]
  intro h
  rcases List.mem_append.1 h with h | h
  · exact absurd (Nat.isDigit_of_mem_toDigits (by omega) (by omega) h) (by decide)
  · exact absurd h (by decide)

theorem Snapshot.windowText_injective : Function.Injective windowText := by
  intro m n h
  have hdigits : Nat.toDigits 10 m = Nat.toDigits 10 n := by
    have hchars := congrArg String.toList h
    unfold windowText at hchars
    rw [String.toList_append, String.toList_append, List.append_left_inj] at hchars
    rwa [← Nat.toList_repr, ← Nat.toList_repr]
  calc
    m = Nat.ofDigitChars 10 (Nat.toDigits 10 m) 0 := Nat.ofDigitChars_ten_toDigits.symm
    _ = Nat.ofDigitChars 10 (Nat.toDigits 10 n) 0 := by rw [hdigits]
    _ = n := Nat.ofDigitChars_ten_toDigits

/-! ## Parts and keys -/

/-- A part of the document of a snapshot. -/
inductive Snapshot.Part where
  | sensors | devices | aggregates | histories | lastSeen
  deriving DecidableEq

namespace Snapshot.Part

/-- The name of a part. -/
def name : Part → String
  | sensors => "sensors"
  | devices => "devices"
  | aggregates => "aggregates"
  | histories => "histories"
  | lastSeen => "last_seen"

/-- What a part writes of an answer, if it writes answers of the kind. -/
def entry : Part → Answered → Option (String × Doc)
  | sensors => Snapshot.latestEntry
  | devices => Snapshot.deviceEntry
  | aggregates => Snapshot.aggregateEntry
  | histories => Snapshot.historyEntry
  | lastSeen => Snapshot.lastSeenEntry

end Snapshot.Part

namespace Query

/-- The part in which the answer to a question stands. -/
def part : Query → Snapshot.Part
  | latest .. => .sensors
  | device _ => .devices
  | aggregate .. => .aggregates
  | history .. => .histories
  | lastSeen _ => .lastSeen

/-- The key of a question in its part. -/
def key : Query → String
  | latest sensor field => sensor ++ "." ++ field
  | device id => id
  | aggregate sensor field fn window =>
    sensor ++ "." ++ field ++ "." ++ fn.name ++ "." ++ Snapshot.windowText window
  | history sensor field window => sensor ++ "." ++ field ++ "." ++ Snapshot.windowText window
  | lastSeen sensor => sensor

/-- Questions of one kind that are the same, but for where the name of the sensor ends and
that of the field begins. -/
def Alike : Query → Query → Prop
  | latest s f, latest t g => s ++ "." ++ f = t ++ "." ++ g
  | device i, device j => i = j
  | aggregate s f fn v, aggregate t g gn w => s ++ "." ++ f = t ++ "." ++ g ∧ fn = gn ∧ v = w
  | history s f v, history t g w => s ++ "." ++ f = t ++ "." ++ g ∧ v = w
  | lastSeen s, lastSeen t => s = t
  | _, _ => False

/-- The names of the sensor and of the field that a question is about, if it names both. -/
def names? : Query → Option (String × String)
  | latest s f | aggregate s f _ _ | history s f _ => some (s, f)
  | device _ | lastSeen _ => none

/-- Questions have one key in one part just where they are alike. -/
theorem alike_iff {p q : Query} : p.Alike q ↔ p.part = q.part ∧ p.key = q.key := by
  cases p with
  | latest s f => cases q <;> simp [Alike, part, key]
  | device i => cases q <;> simp [Alike, part, key]
  | lastSeen s => cases q <;> simp [Alike, part, key]
  | aggregate s f fn v =>
    cases q with
    | aggregate t g gn w =>
      refine ⟨fun ⟨hnames, hfn, hwindow⟩ => ⟨rfl, by rw [key, key, hnames, hfn, hwindow]⟩, ?_⟩
      rintro ⟨-, hkey⟩
      obtain ⟨hkey, hwindow⟩ := Text.last_dot_inj (Snapshot.dot_not_mem_windowText v)
        (Snapshot.dot_not_mem_windowText w) hkey
      obtain ⟨hnames, hfn⟩ := Text.last_dot_inj fn.dot_not_mem_name gn.dot_not_mem_name hkey
      exact ⟨hnames, Aggregation.name_injective hfn, Snapshot.windowText_injective hwindow⟩
    | _ => simp [Alike, part]
  | history s f v =>
    cases q with
    | history t g w =>
      refine ⟨fun ⟨hnames, hwindow⟩ => ⟨rfl, by rw [key, key, hnames, hwindow]⟩, ?_⟩
      rintro ⟨-, hkey⟩
      obtain ⟨hnames, hwindow⟩ := Text.last_dot_inj (Snapshot.dot_not_mem_windowText v)
        (Snapshot.dot_not_mem_windowText w) hkey
      exact ⟨hnames, Snapshot.windowText_injective hwindow⟩
    | _ => simp [Alike, part]

/-- Alike questions are the same one, unless both names have a dot in one of them. -/
theorem eq_of_alike {p q : Query} (h : p.Alike q)
    (plain : (∀ n, p.names? = some n ∨ q.names? = some n → '.' ∉ n.1.toList) ∨
      ∀ n, p.names? = some n ∨ q.names? = some n → '.' ∉ n.2.toList) : p = q := by
  have hnames : ∀ {s f t g : String}, p.names? = some (s, f) → q.names? = some (t, g) →
      s ++ "." ++ f = t ++ "." ++ g → s = t ∧ f = g := by
    intro s f t g hp hq heq
    rcases plain with plain | plain
    · exact Text.first_dot_inj (plain _ (.inl hp)) (plain _ (.inr hq)) heq
    · exact Text.last_dot_inj (plain _ (.inl hp)) (plain _ (.inr hq)) heq
  cases p with
  | latest s f =>
    cases q with
    | latest t g =>
      obtain ⟨rfl, rfl⟩ := hnames rfl rfl h
      rfl
    | _ => cases h
  | aggregate s f fn v =>
    cases q with
    | aggregate t g gn w =>
      obtain ⟨heq, rfl, rfl⟩ := h
      obtain ⟨rfl, rfl⟩ := hnames rfl rfl heq
      rfl
    | _ => cases h
  | history s f v =>
    cases q with
    | history t g w =>
      obtain ⟨heq, rfl⟩ := h
      obtain ⟨rfl, rfl⟩ := hnames rfl rfl heq
      rfl
    | _ => cases h
  | device i =>
    cases q with
    | device j => exact congrArg device h
    | _ => cases h
  | lastSeen s =>
    cases q with
    | lastSeen t => exact congrArg lastSeen h
    | _ => cases h

end Query

namespace Snapshot

/-- What a part writes of an answer of its kind stands under the key of the question. -/
theorem exists_entry (a : Answered) : ∃ d, a.1.part.entry a = some (a.1.key, d) := by
  rcases a with ⟨q, r⟩
  cases q <;> exact ⟨_, rfl⟩

/-- A part writes no answers of other kinds. -/
theorem entry_eq_none {part : Part} {a : Answered} (h : a.1.part ≠ part) :
    part.entry a = none := by
  rcases a with ⟨q, r⟩
  cases part <;> cases q <;> first | rfl | exact absurd rfl h

/-- The questions of a part that a snapshot has answers to. -/
def asked (s : Snapshot) (part : Part) : List Query :=
  (s.answers.map Sigma.fst).filter fun q => q.part = part

/-- What a part is made of. -/
def entries (s : Snapshot) (part : Part) : List (String × Doc) :=
  s.answers.filterMap part.entry

/-- The latest values that there are, by the key of the question. -/
def readings (s : Snapshot) : List (String × Float) :=
  s.answers.filterMap fun
    | ⟨.latest sensor field, some r⟩ => some ((Query.latest sensor field).key, r.value)
    | _ => none

/-- The keys of a part are those of its questions. -/
theorem entries_keys (s : Snapshot) (part : Part) :
    (s.entries part).map (·.1) = (s.asked part).map Query.key := by
  unfold entries asked
  induction s.answers with
  | nil => rfl
  | cons a r ih =>
    by_cases h : a.1.part = part
    · subst h
      obtain ⟨d, hd⟩ := exists_entry a
      rw [List.filterMap_cons_some hd, List.map_cons, List.map_cons,
        List.filter_cons_of_pos (by simp), List.map_cons, ih]
    · rw [List.filterMap_cons_none (entry_eq_none h), List.map_cons,
        List.filter_cons_of_neg (by simpa using h), ih]

theorem length_entries (s : Snapshot) (part : Part) :
    (s.entries part).length = (s.asked part).length := by
  simpa using congrArg List.length (s.entries_keys part)

/-- The document has a table of every part. -/
theorem toDoc_field (s : Snapshot) (part : Part) : s.toDoc.field? part.name =
    some (.obj (Fields.ofPairs (Fields.ofTexts (s.entries part)))) := by
  have hpart : s.part part.entry = .obj (Fields.ofPairs (Fields.ofTexts (s.entries part))) := by
    unfold Snapshot.part entries Fields.ofTexts
    rw [List.map_filterMap]
  rw [← hpart]
  cases part <;> rfl

theorem sensorValues_eq (s : Snapshot) : s.sensorValues =
    Fields.ofPairs (Fields.ofTexts (s.readings.map fun v => (v.1, .num v.2))) := by
  unfold sensorValues readings Fields.ofTexts
  rw [List.map_filterMap, List.map_filterMap]
  congr 1
  refine List.filterMap_congr fun a _ => ?_
  rcases a with ⟨q, r⟩
  cases q with
  | latest sensor field => cases r <;> rfl
  | _ => rfl

/-- The latest values stand in the order of the entries for them. -/
theorem readings_sublist (s : Snapshot) :
    (s.readings.map (·.1)).Sublist ((s.entries .sensors).map (·.1)) := by
  unfold readings entries
  induction s.answers with
  | nil => exact List.Sublist.slnil
  | cons a r ih =>
    rcases a with ⟨q, x⟩
    cases q with
    | latest sensor field =>
      cases x with
      | none => exact ih.cons _
      | some x => exact ih.cons_cons _
    | _ => exact ih

/-- The document shows an answer: what its part writes of it stands there under the key of the
question. -/
def Shows (s : Snapshot) (a : Answered) : Prop :=
  ∃ o d, s.toDoc.field? a.1.part.name = some (.obj o) ∧
    a.1.part.entry a = some (a.1.key, d) ∧ Fields.get? a.1.key o = some d

/-- The document loses nothing: each part has as many entries as there are answers of its
kind, every answer is shown, and every latest value has a variable of its own. -/
structure Lossless (s : Snapshot) : Prop where
  sizes : ∀ part : Part, ∃ o, s.toDoc.field? part.name = some (.obj o) ∧
    o.length = (s.asked part).length
  shown : ∀ a ∈ s.answers, s.Shows a
  count : s.sensorValues.length = s.readings.length
  values : ∀ v ∈ s.readings, Fields.get? v.1 s.sensorValues = some (.num v.2)

/-- Of the answers to alike questions the last is shown. -/
theorem shows_last {s : Snapshot} {before after : List Answered} {a : Answered}
    (h : s.answers = before ++ a :: after) (last : ∀ b ∈ after, ¬ a.1.Alike b.1) : s.Shows a := by
  obtain ⟨d, hd⟩ := exists_entry a
  refine ⟨_, d, s.toDoc_field a.1.part, hd, ?_⟩
  unfold entries
  rw [h, List.filterMap_append, List.filterMap_cons_some hd]
  refine Fields.get?_ofPairs fun hkey => ?_
  obtain ⟨e, he, hkey⟩ := List.mem_map.1 hkey
  obtain ⟨b, hb, hentry⟩ := List.mem_filterMap.1 he
  have hpart : b.1.part = a.1.part := by
    by_contra hne
    rw [entry_eq_none hne] at hentry
    cases hentry
  obtain ⟨d', hd'⟩ := exists_entry b
  rw [hpart, hentry] at hd'
  cases hd'
  exact last b hb (Query.alike_iff.2 ⟨hpart.symm, hkey.symm⟩)

/-- Where no two questions are alike, no two keys of a part are the same. -/
theorem nodup_keys {s : Snapshot} (once : (s.answers.map Sigma.fst).Nodup)
    (apart : ∀ p ∈ s.answers.map Sigma.fst, ∀ q ∈ s.answers.map Sigma.fst, p.Alike q → p = q)
    (part : Part) : ((s.entries part).map (·.1)).Nodup := by
  have hasked : (s.asked part).Nodup := once.filter _
  rw [entries_keys, List.nodup_map_iff_inj_on hasked]
  intro p hp q hq hkey
  unfold asked at hp hq
  rw [List.mem_filter, decide_eq_true_eq] at hp hq
  exact apart p hp.1 q hq.1 (Query.alike_iff.2 ⟨hp.2.trans hq.2.symm, hkey⟩)

theorem lossless_iff {s : Snapshot} (once : (s.answers.map Sigma.fst).Nodup) : s.Lossless ↔
    ∀ p ∈ s.answers.map Sigma.fst, ∀ q ∈ s.answers.map Sigma.fst, p.Alike q → p = q := by
  constructor
  · intro lossless p hp q hq alike
    obtain ⟨hpart, hkey⟩ := Query.alike_iff.1 alike
    obtain ⟨o, ho, hlength⟩ := lossless.sizes p.part
    rw [s.toDoc_field] at ho
    cases ho
    have hasked : (s.asked p.part).Nodup := once.filter _
    rw [← length_entries, Fields.length_ofPairs_eq_iff, entries_keys,
      List.nodup_map_iff_inj_on hasked] at hlength
    exact hlength p (List.mem_filter.2 ⟨hp, by simp⟩) q
      (List.mem_filter.2 ⟨hq, by simp [hpart]⟩) hkey
  · intro apart
    have hnodup := nodup_keys once apart
    have hreadings : ((s.readings.map fun v => (v.1, Doc.num v.2)).map (·.1)).Nodup := by
      rw [List.map_map]
      exact (hnodup .sensors).sublist s.readings_sublist
    refine ⟨fun part => ⟨_, s.toDoc_field part, ?_⟩, fun a ha => ?_, ?_, fun v hv => ?_⟩
    · rw [Fields.length_ofPairs_eq_iff.2 (hnodup part), length_entries]
    · obtain ⟨before, after, hsplit⟩ := List.mem_iff_append.1 ha
      refine shows_last hsplit fun b hb alike => ?_
      have hmem := List.mem_map_of_mem (f := Sigma.fst) (hsplit ▸ List.mem_append_right _
        (List.mem_cons_of_mem _ hb))
      have heq := apart _ (List.mem_map_of_mem ha) _ hmem alike
      rw [hsplit, List.map_append, List.map_cons] at once
      exact (List.nodup_cons.1 once.of_append_right).1 (heq ▸ List.mem_map_of_mem hb)
    · rw [sensorValues_eq, Fields.length_ofPairs_eq_iff.2 hreadings, List.length_map]
    · rw [sensorValues_eq]
      exact Fields.get?_ofPairs_of_nodup hreadings (List.mem_map_of_mem hv)

end Snapshot

/-! ## What a capture of a tree shows -/

namespace Condition

variable {c : Condition} {answer : (q : Query) → Except Fault q.Answer}

/-- A snapshot of a tree has one answer to each of its questions. -/
theorem answers_of_capture {zone : Zone} {now : Moment} {s : Snapshot}
    (h : c.capture zone now answer = .ok s) : s.answers.map Sigma.fst = c.queries := by
  unfold capture at h
  cases hclock : zone.local? now with
  | error e =>
    rw [hclock] at h
    cases h
  | ok clock =>
    rw [hclock] at h
    obtain ⟨found, hfound, hs⟩ := bind_eq_ok.1 h
    cases hs
    exact (Snapshot.of_gather hfound).1

theorem queries_nodup (c : Condition) : c.queries.Nodup :=
  c.queries_order.imp fun hlt heq => absurd (heq ▸ hlt) (Nat.lt_irrefl _)

/-- The names of the sensors that a tree asks about have no dot, or those of the fields have
none. -/
def Plain (c : Condition) : Prop :=
  (∀ q ∈ c.asked, ∀ n, q.names? = some n → '.' ∉ n.1.toList) ∨
    ∀ q ∈ c.asked, ∀ n, q.names? = some n → '.' ∉ n.2.toList

end Condition

/-- **What the document of a snapshot shows.** Whatever the answers are, the document of a
snapshot of a tree loses nothing exactly if no two different questions of the tree are alike.
Of the answers to alike questions it shows the last. So nothing is lost if the names of the
sensors, or those of the fields, have no dots. -/
theorem document_lossless_iff {c : Condition} {zone : Zone} {now : Moment}
    {answer : (q : Query) → Except Fault q.Answer} {s : Snapshot}
    (h : c.capture zone now answer = .ok s) :
    (s.Lossless ↔ ∀ p ∈ c.asked, ∀ q ∈ c.asked, p.Alike q → p = q) ∧
    (∀ before a after, s.answers = before ++ a :: after →
      (∀ b ∈ after, ¬ a.1.Alike b.1) → s.Shows a) ∧
    (c.Plain → s.Lossless) := by
  have hanswers := Condition.answers_of_capture h
  have hmem : ∀ q, q ∈ s.answers.map Sigma.fst ↔ q ∈ c.asked := fun q => by
    rw [hanswers]
    exact List.mem_eraseDups
  have hiff : s.Lossless ↔ ∀ p ∈ c.asked, ∀ q ∈ c.asked, p.Alike q → p = q := by
    rw [Snapshot.lossless_iff (hanswers ▸ c.queries_nodup)]
    simp only [hmem]
  refine ⟨hiff, fun before a after hsplit last => Snapshot.shows_last hsplit last, fun plain => ?_⟩
  refine hiff.2 fun p hp q hq alike => Query.eq_of_alike alike ?_
  exact plain.imp (fun h n => Or.rec (h p hp n) (h q hq n))
    fun h n => Or.rec (h p hp n) (h q hq n)

/-- A test whether there is a recent reading of a field above zero. -/
def Leaf.above (sensor field : String) : Leaf := .sensor ⟨sensor, field, .gt, 0, 10⟩

/-- The tree that asks for the latest values of two fields. -/
def Condition.two (p q : String × String) : Condition :=
  .all [.leaf (.above p.1 p.2), .leaf (.above q.1 q.2)]

/-- Answers of a store where every field has been read once. -/
def Query.once (x : Float) : (q : Query) → Except Fault q.Answer
  | .latest .. => .ok (some ⟨x, .ofInstant 0⟩)
  | q => .ok q.nothing

theorem document_lossless_probe : ∃ s,
    (Condition.two ("probe", "t") ("probe", "rh")).capture Zone.utc (.ofInstant 0)
      (Query.once 20) = .ok s ∧ s.Lossless := by
  obtain ⟨s, hs⟩ : ∃ s, (Condition.two ("probe", "t") ("probe", "rh")).capture Zone.utc
      (.ofInstant 0) (Query.once 20) = .ok s := ⟨_, rfl⟩
  exact ⟨s, hs, (document_lossless_iff hs).2.2 (.inl (by decide))⟩

/-- A dot in the name of a sensor and one in that of a field make two fields one: the document
has one entry for two readings. -/
theorem dotted_names_lose_reading : ∃ s,
    Condition.parse (Condition.two ("a.b", "c") ("a", "b.c")).toDoc =
      .ok (Condition.two ("a.b", "c") ("a", "b.c")) ∧
    (Condition.two ("a.b", "c") ("a", "b.c")).capture Zone.utc (.ofInstant 0) (Query.once 20) =
      .ok s ∧ (s.asked .sensors).length = 2 ∧ s.readings.length = 2 ∧
    (∃ o, s.toDoc.field? "sensors" = some (.obj o) ∧ o.length = 1) ∧
    s.sensorValues.length = 1 ∧ ¬ s.Lossless := by
  refine ⟨_, rfl, rfl, rfl, rfl, ⟨_, rfl, rfl⟩, rfl, fun lossless => ?_⟩
  exact absurd lossless.count (by decide)

end Glasshouse
