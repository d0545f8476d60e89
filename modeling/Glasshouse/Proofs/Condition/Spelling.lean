/-
Glasshouse.Proofs.Condition.Spelling — the spellings of a condition tree. One tree may be
written in many ways: a group that asks for all as a bare list, its children
under either name, tags and operators in any case and by their other names,
keys plain or in camel case, all of it as a JSON text. `Respelling` is one such
change at any depth. A reader of tables sees of a table its tag, the values of
the fields it knows and whether there are others; what another table conveys of
these is read as the same node. Main statement: `Condition.parse_of_respelled`.

How the proof goes. `Conveys` says that a table tells readers no less than another: one lemma
for each reader, and one for each change of a table. `read_keeps` is by induction on where the
change is made, and `read_keeps_of_respelled` along several changes.

Side conditions of the main statement. The document is a table or a list and is
parsed. Case is that of the tables of letters in `Text`; a text that writes half of a
surrogate pair is read with the replacement character instead, so it is covered as a
text but stands for another one.
-/
import Glasshouse.Proofs.Doc.Keys
import Glasshouse.Proofs.Basic.Letters
import Glasshouse.Proofs.Condition.Tree
import Mathlib.Logic.Relation

namespace Glasshouse

open Schema

/-! ## Spellings -/

/-- Another spelling of the tag of a node. -/
inductive TagSpelling : String → String → Prop
  | recased {s t : String} (same : Text.Recased s t) : TagSpelling s t
  | respaced {s t : String} (same : Text.Respaced s t) : TagSpelling s t
  | renamed {s t : String} (listed : (t, s) ∈ tagAliases) : TagSpelling s t

/-- Another spelling of an operator. -/
inductive OperatorSpelling : String → String → Prop
  | recased {s t : String} (same : Text.Recased s t) : OperatorSpelling s t
  | respaced {s t : String} (same : Text.Respaced s t) : OperatorSpelling s t
  | symbol {s t : String} (listed : (t, s) ∈ comparisonSymbols) : OperatorSpelling s t

/-- The fields of leaves whose values have one spelling. -/
def valueFields : List FieldName :=
  [Key.field, Key.value, Key.threshold, Key.trend, Key.sensorId, Key.deviceId, Key.expectedStatus,
    Key.maxDataAge, Key.timeStart, Key.timeEnd, Key.daysOfWeek, Key.windowMinutes,
    Key.slopeThreshold, Key.timeoutMinutes]

/-- The fields of leaves. -/
def leafFields : List FieldName :=
  Key.type :: Key.operator :: Key.aggregation :: valueFields

/-- The elements of the list that holds the children of a group. -/
def Condition.items (o : Fields) : List Doc :=
  match childrenOf? o with
  | some (.list xs) => xs
  | _ => []

/-- A table without operator, or with that of a group that asks for all of its children. -/
def AsksAll (o : Fields) : Prop :=
  ∀ d, Fields.get? "operator" o = some d → onText operatorName d = .str Logic.and.name

/-- One change in the spelling of a condition tree, at any depth. -/
inductive Respelling : Doc → Doc → Prop
  /-- A group that asks for all of its children becomes a bare list. -/
  | bare {o : Fields} (group : nodeTag? o = some (.str "group")) (all : AsksAll o) :
      Respelling (.obj o) (.list (Condition.items o))
  /-- The children get their older name. -/
  | rules {o : Fields} (single : Fields.has "rules" o = false) :
      Respelling (.obj o) (.obj (o.rename "children" "rules"))
  /-- A group with children loses its tag. -/
  | untagged {o : Fields} (group : nodeTag? o = some (.str "group"))
      (children : (Condition.childrenOf? o).isSome) : Respelling (.obj o) (.obj (o.erase "type"))
  | tag {o : Fields} {s t : String} (tagged : Fields.get? "type" o = some (.str s))
      (spelling : TagSpelling s t) : Respelling (.obj o) (.obj (o.set "type" (.str t)))
  | operator {o : Fields} {s t : String} (there : Fields.get? "operator" o = some (.str s))
      (spelling : OperatorSpelling s t) : Respelling (.obj o) (.obj (o.set "operator" (.str t)))
  | aggregation {o : Fields} {s t : String} (there : Fields.get? "aggregation" o = some (.str s))
      (same : Text.Recased s t) : Respelling (.obj o) (.obj (o.set "aggregation" (.str t)))
  /-- A field gets its name in camel case. -/
  | camel {o : Fields} {f : FieldName} (known : f ∈ valueFields)
      (single : Fields.has f.camel o = false) :
      Respelling (.obj o) (.obj (o.rename f.plain f.camel))
  /-- The fields stand in another order. -/
  | reordered {o p : Fields} (keyed : o.Keyed) (perm : o.Perm p) : Respelling (.obj o) (.obj p)
  /-- An element of a bare list is spelled in another way. -/
  | item {pre post : List Doc} {d e : Doc} (inner : Respelling d e) :
      Respelling (.list (pre ++ d :: post)) (.list (pre ++ e :: post))
  /-- A child of a group is spelled in another way. -/
  | child {o : Fields} {k : String} {pre post : List Doc} {d e : Doc}
      (holds : k = "rules" ∨ k = "children")
      (there : Fields.get? k o = some (.list (pre ++ d :: post))) (inner : Respelling d e) :
      Respelling (.obj o) (.obj (o.set k (.list (pre ++ e :: post))))

/-- A document in another spelling: any number of changes, one after the other. -/
abbrev Respelled : Doc → Doc → Prop := Relation.ReflTransGen Respelling

/-! ## Names under other spellings -/

theorem TagSpelling.tagName_eq {s t : String} (h : TagSpelling s t) : tagName s = tagName t := by
  cases h with
  | recased same => simp only [tagName, same.lower_trim_eq]
  | respaced same => simp only [tagName, same.trim_eq]
  | renamed listed =>
    simp only [tagAliases, List.mem_cons, Prod.mk.injEq, List.not_mem_nil, or_false] at listed
    rcases listed with ⟨rfl, rfl⟩ | ⟨rfl, rfl⟩ | ⟨rfl, rfl⟩ <;> decide +kernel

/-- No symbol of a comparison has another case. -/
theorem lookup_symbol_of_recased {s t : String} (h : Text.Recased s t) :
    comparisonSymbols.lookup s = comparisonSymbols.lookup t := by
  have caseless : ∀ p ∈ comparisonSymbols, ∀ c ∈ p.1.toList, c.toNat < 65 := by
    simp only [← List.all_iff_forall_prop]
    decide +kernel
  have forward : ∀ {s t : String} {n : String}, Text.Recased s t →
      comparisonSymbols.lookup t = some n → s = t :=
    fun h hn => h.eq_of_caseless (caseless _ (mem_of_lookup hn))
  cases ht : comparisonSymbols.lookup t with
  | some n => rw [forward h ht, ht]
  | none =>
    cases hs : comparisonSymbols.lookup s with
    | none => rfl
    | some n => rw [forward h.symm hs, hs] at ht; cases ht

theorem OperatorSpelling.operatorName_eq {s t : String} (h : OperatorSpelling s t) :
    operatorName s = operatorName t := by
  cases h with
  | recased same => simp only [operatorName, lookup_symbol_of_recased same.trim, same.trim.upper_eq]
  | respaced same => simp only [operatorName, same.trim_eq]
  | symbol listed =>
    simp only [comparisonSymbols, List.mem_cons, Prod.mk.injEq, List.not_mem_nil,
      or_false] at listed
    rcases listed with ⟨rfl, rfl⟩ | ⟨rfl, rfl⟩ | ⟨rfl, rfl⟩ | ⟨rfl, rfl⟩ | ⟨rfl, rfl⟩ | ⟨rfl, rfl⟩
      | ⟨rfl, rfl⟩ <;> decide +kernel

/-! ## What a reader of tables sees -/

/-- What the one table tells its reader, the other does too: the tag, the values of known
fields and whether there are other keys. -/
structure Conveys (o p : Fields) : Prop where
  tag : nodeTag? p = nodeTag? o
  operator : (Key.operator.value? p).map (onText operatorName)
    = (Key.operator.value? o).map (onText operatorName)
  aggregation : (Key.aggregation.value? p).map (onText Text.upper)
    = (Key.aggregation.value? o).map (onText Text.upper)
  value : ∀ f ∈ valueFields, f.value? p = f.value? o
  leafKeys : ∀ fs ⊆ leafFields, (noOthers o fs).Keeps (noOthers p fs)
  groupKeys : (noOthers (o.erase "rules") [Key.type, Key.operator, Key.children]).Keeps
    (noOthers (p.erase "rules") [Key.type, Key.operator, Key.children])

namespace Conveys

variable {o p : Fields} {α : Type}

theorem required (h : Conveys o p) {f : FieldName} (hf : f ∈ valueFields) (read : Doc → Checked α) :
    (required o f read).Keeps (Schema.required p f read) :=
  required_keeps (g := id) (by simp [h.value f hf]) fun _ _ hvw => congrArg read hvw

theorem optional (h : Conveys o p) {f : FieldName} (hf : f ∈ valueFields) (x : α)
    (read : Doc → Checked α) : (optional o f x read).Keeps (Schema.optional p f x read) :=
  optional_keeps (g := id) (by simp [h.value f hf]) fun _ _ hvw => congrArg read hvw

theorem comparison (h : Conveys o p) : (Schema.required o Key.operator Comparison.read).Keeps
    (Schema.required p Key.operator Comparison.read) :=
  required_keeps h.operator fun v w hvw => by simp only [Comparison.read, hvw]

theorem sensorTest (h : Conveys o p) : (SensorTest.read o).Keeps (SensorTest.read p) :=
  ((((((h.required (by decide) _).fmap _).seq (h.required (by decide) _)).seq h.comparison).seq
    (h.required (by decide) _)).seq (h.optional (by decide) _ _)).seqLeft (h.leafKeys _ (by decide))

theorem deviceTest (h : Conveys o p) : (DeviceTest.read o).Keeps (DeviceTest.read p) :=
  (((h.required (by decide) _).fmap _).seq (h.required (by decide) _)).seqLeft
    (h.leafKeys _ (by decide))

theorem timeTest (h : Conveys o p) : (TimeTest.read o).Keeps (TimeTest.read p) :=
  ((((h.required (by decide) _).fmap _).seq (h.required (by decide) _)).seq
    (h.optional (by decide) _ _)).seqLeft (h.leafKeys _ (by decide))

theorem historyTest (h : Conveys o p) : (HistoryTest.read o).Keeps (HistoryTest.read p) :=
  have aggregation : (Schema.required o Key.aggregation Aggregation.read).Keeps
      (Schema.required p Key.aggregation Aggregation.read) :=
    required_keeps h.aggregation fun v w hvw => by simp only [Aggregation.read, hvw]
  (((((((h.required (by decide) _).fmap _).seq (h.required (by decide) _)).seq aggregation).seq
    (h.required (by decide) _)).seq h.comparison).seq (h.required (by decide) _)).seqLeft
    (h.leafKeys _ (by decide))

theorem trendTest (h : Conveys o p) : (TrendTest.read o).Keeps (TrendTest.read p) :=
  ((((((h.required (by decide) _).fmap _).seq (h.required (by decide) _)).seq
    (h.required (by decide) _)).seq (h.required (by decide) _)).seq
    (h.optional (by decide) _ _)).seqLeft (h.leafKeys _ (by decide))

theorem heartbeatTest (h : Conveys o p) : (HeartbeatTest.read o).Keeps (HeartbeatTest.read p) :=
  (((h.required (by decide) _).fmap _).seq (h.required (by decide) _)).seqLeft
    (h.leafKeys _ (by decide))

/-- A leaf is read from what its table conveys. -/
theorem leaf (h : Conveys o p) {name : String} {read : Fields → Checked Leaf}
    (hname : leafReaders.lookup name = some read) : (read o).Keeps (read p) := by
  have hmem := mem_of_lookup hname
  simp only [leafReaders, List.mem_cons, List.not_mem_nil, or_false, Prod.mk.injEq] at hmem
  rcases hmem with ⟨rfl, rfl⟩ | ⟨rfl, rfl⟩ | ⟨rfl, rfl⟩ | ⟨rfl, rfl⟩ | ⟨rfl, rfl⟩ | ⟨rfl, rfl⟩
  · exact h.sensorTest.fmap _
  · exact h.deviceTest.fmap _
  · exact h.timeTest.fmap _
  · exact h.historyTest.fmap _
  · exact h.trendTest.fmap _
  · exact h.heartbeatTest.fmap _

/-- A group is read from what its table conveys and from its children. -/
theorem group (h : Conveys o p) {x y : Checked (List Condition)} (hxy : x.Keeps y) :
    (Condition.readGroup o x).Keeps (Condition.readGroup p y) := by
  have herased : ∀ q : Fields, Key.operator.value? (q.erase "rules") = Key.operator.value? q := by
    intro q
    unfold FieldName.value?
    rw [FieldName.find?_congr (Fields.get?_erase_of_ne (by decide))
      (Fields.get?_erase_of_ne (by decide))]
  have hoperator : (Schema.optional (o.erase "rules") Key.operator .and Logic.read).Keeps
      (Schema.optional (p.erase "rules") Key.operator .and Logic.read) :=
    optional_keeps (by rw [herased, herased, h.operator]) fun v w hvw => by
      simp only [Logic.read, hvw]
  exact (((hoperator.fmap _).seq (hxy.under _)).seqLeft h.groupKeys).andThen _

/-- A node is read from what its table conveys and from its children. -/
theorem node (h : Conveys o p) {x y : Checked (List Condition)} (hxy : x.Keeps y) :
    (Condition.readTable o x).Keeps (Condition.readTable p y) := by
  intro c hc
  unfold Condition.readTable at hc ⊢
  rw [h.tag]
  split at hc
  · cases hc
  · exact (h.group hxy).under _ c hc
  · split at hc
    · rename_i read hread
      exact (((h.leaf hread).fmap Condition.leaf).under _) c hc
    · cases hc

end Conveys

/-! ## Single changes -/

theorem Condition.isSome_childrenOf (o : Fields) :
    (childrenOf? o).isSome = (Fields.has "rules" o || Fields.has "children" o) := by
  unfold childrenOf? Fields.has
  cases Fields.get? "rules" o <;> rfl

theorem nodeTag?_congr {o p : Fields} (htype : Fields.get? "type" p = Fields.get? "type" o)
    (hrules : Fields.get? "rules" p = Fields.get? "rules" o)
    (hchildren : Fields.get? "children" p = Fields.get? "children" o) :
    nodeTag? p = nodeTag? o := by
  unfold nodeTag? Fields.has
  rw [htype, hrules, hchildren]

/-- A table keeps its tag where a key other than `type` is set anew. -/
theorem nodeTag?_set {k : String} {v : Doc} {o : Fields} (hthere : Fields.has k o = true)
    (h : k ≠ "type") : nodeTag? (o.set k v) = nodeTag? o := by
  have hkeys := Fields.keys_set (v := v) hthere
  simp only [nodeTag?, Fields.get?_set_of_ne h, Fields.has_eq_any, hkeys]

namespace Conveys

variable {k l : String} {o p : Fields}

/-- A key set anew conveys the same, if its reader takes the new value for the old one. -/
theorem set {v : Doc} (hthere : Fields.has k o = true) (htag : nodeTag? (o.set k v) = nodeTag? o)
    (hoperator : k = "operator" → onText operatorName v
      = onText operatorName ((Fields.get? k o).getD .null))
    (haggregation : k = "aggregation" → onText Text.upper v
      = onText Text.upper ((Fields.get? k o).getD .null))
    (hvalue : ∀ f ∈ valueFields, f.plain ≠ k ∧ f.camel ≠ k) : Conveys o (o.set k v) := by
  have hkeys : (o.set k v).map (·.1) = o.map (·.1) := Fields.keys_set hthere
  have hvalues : ∀ {m : String} {g : Doc → Doc}, (k = m → g v = g ((Fields.get? k o).getD .null)) →
      (Fields.get? m (o.set k v)).map g = (Fields.get? m o).map g := by
    intro m g hg
    by_cases hm : k = m
    · subst hm
      obtain ⟨w, hw⟩ := Option.isSome_iff_exists.1 hthere
      rw [Fields.get?_set_self, hw, Option.map_some, Option.map_some, hg rfl, hw, Option.getD_some]
    · rw [Fields.get?_set_of_ne hm]
  refine ⟨htag, ?_, ?_, fun f hf => ?_, fun fs _ => ?_, ?_⟩
  · simpa only [Key.operator, FieldName.value?_same] using hvalues hoperator
  · simpa only [Key.aggregation, FieldName.value?_same] using hvalues haggregation
  · obtain ⟨hplain, hcamel⟩ := hvalue f hf
    unfold FieldName.value?
    rw [FieldName.find?_congr (Fields.get?_set_of_ne hplain.symm v o)
      (Fields.get?_set_of_ne hcamel.symm v o)]
  · rw [noOthers_congr hkeys]
    exact .refl _
  · have herased : ((o.set k v).erase "rules").map (·.1) = (o.erase "rules").map (·.1) := by
      rw [Fields.keys_erase, hkeys, Fields.keys_erase]
    rw [noOthers_congr herased]
    exact .refl _

theorem tagged {s t : String} (htype : Fields.get? "type" o = some (.str s))
    (h : tagName s = tagName t) : Conveys o (o.set "type" (.str t)) := by
  refine set (by simp [Fields.has, htype]) ?_ (by simp) (by simp) (by decide)
  simp only [nodeTag?, Fields.get?_set_self, htype, onText, h]

theorem operated {s t : String} (hthere : Fields.get? "operator" o = some (.str s))
    (h : operatorName s = operatorName t) : Conveys o (o.set "operator" (.str t)) := by
  have hhas : Fields.has "operator" o = true := by simp [Fields.has, hthere]
  refine set hhas (nodeTag?_set hhas (by decide)) (fun _ => ?_) (by simp) (by decide)
  simp only [hthere, Option.getD_some, onText, h]

theorem aggregated {s t : String} (hthere : Fields.get? "aggregation" o = some (.str s))
    (h : Text.upper s = Text.upper t) : Conveys o (o.set "aggregation" (.str t)) := by
  have hhas : Fields.has "aggregation" o = true := by simp [Fields.has, hthere]
  refine set hhas (nodeTag?_set hhas (by decide)) (by simp) (fun _ => ?_) (by decide)
  simp only [hthere, Option.getD_some, onText, h]

/-- What holds the children of a group is no field of the table's own. -/
theorem regrouped {v : Doc} (hk : k = "rules" ∨ k = "children") (hthere : Fields.has k o = true) :
    Conveys o (o.set k v) := by
  rcases hk with rfl | rfl
  · exact set hthere (nodeTag?_set hthere (by decide)) (by simp) (by simp) (by decide)
  · exact set hthere (nodeTag?_set hthere (by decide)) (by simp) (by simp) (by decide)

/-- A group with children conveys the same without its tag. -/
theorem untagged (htag : nodeTag? o = some (.str "group"))
    (hchildren : (Condition.childrenOf? o).isSome) : Conveys o (o.erase "type") := by
  have hget : ∀ {m : String}, "type" ≠ m → Fields.get? m (o.erase "type") = Fields.get? m o :=
    Fields.get?_erase_of_ne
  have hfind : ∀ f : FieldName, "type" ≠ f.plain → "type" ≠ f.camel →
      f.value? (o.erase "type") = f.value? o := by
    intro f hplain hcamel
    unfold FieldName.value?
    rw [FieldName.find?_congr (hget hplain) (hget hcamel)]
  have hnames : ∀ f ∈ valueFields, "type" ≠ f.plain ∧ "type" ≠ f.camel := by decide
  refine ⟨?_, by rw [hfind _ (by decide) (by decide)], by rw [hfind _ (by decide) (by decide)],
    fun f hf => hfind f (hnames f hf).1 (hnames f hf).2,
    fun fs hfs => noOthers_erase fun f hf => ?_, ?_⟩
  · have hthere : Fields.has "rules" o || Fields.has "children" o := by
      rwa [← Condition.isSome_childrenOf]
    rw [htag]
    simp only [nodeTag?, Fields.get?_erase_self, Fields.has,
      hget (show "type" ≠ "rules" by decide), hget (show "type" ≠ "children" by decide)]
    exact if_pos hthere
  · have hleaf : ∀ f ∈ leafFields, f = .same "type" ∨ ("type" ≠ f.plain ∧ "type" ≠ f.camel) := by
      decide
    exact hleaf f (hfs hf)
  · rw [Fields.erase_comm]
    exact noOthers_erase (by decide)

/-- A group conveys the same with its children under their older name. -/
theorem renamedChildren (hsingle : Fields.has "rules" o = false) :
    Conveys o (o.rename "children" "rules") := by
  have hget : ∀ {m : String}, m ≠ "children" → m ≠ "rules" →
      Fields.get? m (o.rename "children" "rules") = Fields.get? m o :=
    Fields.get?_rename_of_ne
  have hfind : ∀ f : FieldName, f.plain ≠ "children" → f.plain ≠ "rules" → f.camel ≠ "children" →
      f.camel ≠ "rules" → f.value? (o.rename "children" "rules") = f.value? o := by
    intro f hplain hplain' hcamel hcamel'
    unfold FieldName.value?
    rw [FieldName.find?_congr (hget hplain hplain') (hget hcamel hcamel')]
  have hnames : ∀ f ∈ leafFields, f.plain ≠ "children" ∧ f.plain ≠ "rules" ∧ f.camel ≠ "children"
      ∧ f.camel ≠ "rules" := by decide
  have hvalue : ∀ f ∈ leafFields, f.value? (o.rename "children" "rules") = f.value? o := by
    intro f hf
    obtain ⟨hplain, hplain', hcamel, hcamel'⟩ := hnames f hf
    exact hfind f hplain hplain' hcamel hcamel'
  refine ⟨?_, by rw [hvalue _ (by decide)], by rw [hvalue _ (by decide)],
    fun f hf => hvalue f (by simp [leafFields, hf]), fun fs hfs u hu => ?_, ?_⟩
  · have hrules : Fields.get? "rules" (o.rename "children" "rules") = Fields.get? "children" o :=
      Fields.get?_rename hsingle
    have hchildren : Fields.get? "children" (o.rename "children" "rules") = none :=
      Fields.get?_renamed (by decide)
    have hsingle : (Fields.get? "rules" o).isSome = false := hsingle
    simp only [nodeTag?, Fields.has, hrules, hchildren, hsingle,
      hget (show "type" ≠ "children" by decide) (by decide), Option.isSome_none, Bool.or_false,
      Bool.false_or]
  · -- Without the key of the children among the known ones there is nothing to rename.
    have habsent : Fields.has "children" o = false :=
      absent_of_noOthers (fun f hf => ⟨(hnames f (hfs hf)).1, (hnames f (hfs hf)).2.2.1⟩) hu
    rwa [Fields.rename_of_absent habsent]
  · rw [Fields.erase_of_absent hsingle, Fields.erase_rename hsingle]
    exact noOthers_erase (by decide)

theorem names_of_valueFields : ∀ f ∈ valueFields, ∀ m ∈ ["type", "rules", "children"],
    m ≠ f.plain ∧ m ≠ f.camel := by
  decide +kernel

/-- A table conveys the same with a field under its name in camel case. -/
theorem camelled {f : FieldName} (hf : f ∈ valueFields) (hsingle : Fields.has f.camel o = false) :
    Conveys o (o.rename f.plain f.camel) := by
  have hother : ∀ f ∈ valueFields, ∀ g ∈ Key.children :: leafFields, g = f ∨ g.Apart f := by
    decide +kernel
  have hget : ∀ m ∈ ["type", "rules", "children"],
      Fields.get? m (o.rename f.plain f.camel) = Fields.get? m o := fun m hm =>
    Fields.get?_rename_of_ne (names_of_valueFields f hf m hm).1 (names_of_valueFields f hf m hm).2
  have hvalue : ∀ g ∈ leafFields, g.value? (o.rename f.plain f.camel) = g.value? o := by
    intro g hg
    rcases hother f hf g (List.mem_cons_of_mem _ hg) with rfl | hapart
    · cases hfound : g.find? o with
      | some q => simp only [FieldName.value?, (FieldName.find?_rename hsingle hfound).2, hfound,
          Option.map_some]
      | none =>
        have hplain : Fields.has g.plain o = false := by
          unfold FieldName.find? at hfound
          split at hfound
          · cases hfound
          · simpa [Fields.has] using hfound
        rw [Fields.rename_of_absent hplain]
    · simp only [FieldName.value?, hapart.find?_rename]
  refine ⟨?_, by rw [hvalue _ (by decide)], by rw [hvalue _ (by decide)],
    fun g hg => hvalue g (by simp [leafFields, hg]),
    fun fs hfs => noOthers_rename hsingle fun g hg =>
      hother f hf g (List.mem_cons_of_mem _ (hfs hg)), ?_⟩
  · exact nodeTag?_congr (hget _ (by simp)) (hget _ (by simp)) (hget _ (by simp))
  · obtain ⟨hplain, hcamel⟩ := names_of_valueFields f hf "rules" (by simp)
    have hsingle : Fields.has f.camel (o.erase "rules") = false := by
      rwa [Fields.has, Fields.get?_erase_of_ne hcamel]
    rw [Fields.erase_rename_of_ne hplain hcamel]
    exact noOthers_rename hsingle fun g hg => hother f hf g
      ((show [Key.type, Key.operator, Key.children] ⊆ Key.children :: leafFields by decide) hg)

/-- A table conveys the same in any order. -/
theorem reordered (hkeyed : o.Keyed) (hperm : o.Perm p) : Conveys o p := by
  have hfind : ∀ {q r : Fields}, q ⊆ o → q.Perm r → ∀ f : FieldName, f.find? r = f.find? q := by
    intro q r hq hqr f
    have hget : ∀ m, Fields.get? m r = Fields.get? m q := fun m =>
      Fields.get?_perm (fun _ _ hv hw => hkeyed.value_unique (hq hv) (hq hw)) hqr
    exact FieldName.find?_congr (hget _) (hget _)
  have hkeys : ∀ {q r : Fields}, q ⊆ o → q.Perm r →
      ∀ fs, (noOthers q fs).Keeps (noOthers r fs) := by
    intro q r hq hqr fs
    refine noOthers_keeps fun x hx => ⟨x, hqr.mem_iff.2 hx, fun f hf k v hkv hxk => ?_⟩
    exact ⟨f, hf, k, v, by rw [hfind hq hqr, hkv], hxk⟩
  have hvalue : ∀ f : FieldName, f.value? p = f.value? o := by
    intro f
    rw [FieldName.value?, hfind (List.Subset.refl o) hperm, FieldName.value?]
  have hget : ∀ m, Fields.get? m p = Fields.get? m o := fun m =>
    Fields.get?_perm (fun _ _ => hkeyed.value_unique) hperm
  exact ⟨nodeTag?_congr (hget _) (hget _) (hget _), by rw [hvalue], by rw [hvalue],
    fun f _ => hvalue f, fun fs _ => hkeys (List.Subset.refl o) hperm fs,
    hkeys List.filter_sublist.subset (hperm.filter _) _⟩

end Conveys

/-! ## Trees in other spellings -/

namespace Condition

/-- A group is read where its operator is, its children are, nothing else is there and the
operator takes so many children. -/
theorem readGroup_eq_ok {o : Fields} {x : Checked (List Condition)} {c : Condition} :
    readGroup o x = .ok c ↔ ∃ op cs,
      optional (o.erase "rules") Key.operator .and Logic.read = .ok op ∧ x = .ok cs
        ∧ (∃ u, noOthers (o.erase "rules") [Key.type, Key.operator, Key.children] = .ok u)
        ∧ group? op cs = some c := by
  have hgroup : ∀ {op cs}, Checked.ofOption (.negationArity cs.length) (group? op cs) = .ok c
      ↔ group? op cs = some c := by
    intro op cs
    cases group? op cs <;> simp [Checked.ofOption, Checked.flaw]
  unfold readGroup
  simp only [Checked.andThen_eq_ok, Checked.seqLeft_eq_ok, Checked.seq_eq_ok, Checked.fmap_eq_ok,
    Checked.under_eq_ok, hgroup, Prod.exists]
  constructor
  · rintro ⟨op, cs, ⟨⟨_, _, ⟨_, hop, rfl⟩, hcs, hpair⟩, hnone⟩, hc⟩
    cases hpair
    exact ⟨op, cs, hop, hcs, hnone, hc⟩
  · rintro ⟨op, cs, hop, hcs, hnone, hc⟩
    exact ⟨op, cs, ⟨⟨_, cs, ⟨op, hop, rfl⟩, hcs, rfl⟩, hnone⟩, hc⟩

/-- The children of a group are read from the elements of their list. -/
theorem readList_items {o : Fields} {cs : List Condition} (h : childrenIn (readFields o) = .ok cs) :
    readList 0 (items o) = .ok cs := by
  rw [childrenIn_readFields] at h
  unfold items
  cases hv : childrenOf? o with
  | none =>
    rw [hv] at h
    exact h
  | some v =>
    rw [hv] at h
    rcases readChildren_eq_ok h with rfl | ⟨xs, rfl, -⟩
    · cases v with
      | list xs => exact h
      | atom | obj | set => rfl
    · exact h

/-- A group that asks for all of its children is the bare list of them. -/
theorem read_items {o : Fields} {c : Condition} (htag : nodeTag? o = some (.str "group"))
    (hall : AsksAll o) (h : read (.obj o) = .ok c) : read (.list (items o)) = .ok c := by
  have hgroup : (readGroup o (childrenIn (readFields o))).under (.key "group") = .ok c := by
    simpa only [read, readTable, htag] using h
  obtain ⟨op, cs, hop, hcs, -, hc⟩ := readGroup_eq_ok.1 (Checked.under_eq_ok.1 hgroup)
  have hand : op = .and := by
    have hvalue : Key.operator.value? (o.erase "rules") = Fields.get? "operator" o := by
      rw [Key.operator, FieldName.value?_same, Fields.get?_erase_of_ne (by decide)]
    rcases read_of_optional hop with rfl | ⟨p, hp, hread⟩
    · rfl
    · rw [FieldName.value?, hp, Option.map_some] at hvalue
      rw [Logic.read, hall p.2 hvalue.symm] at hread
      cases hread
      rfl
  subst hand
  cases hc
  simp only [read, readList_items hcs, Checked.under_ok, Checked.map_ok]

theorem childrenOf?_rename {o : Fields} (hsingle : Fields.has "rules" o = false) :
    childrenOf? (o.rename "children" "rules") = childrenOf? o := by
  have hrules : Fields.get? "rules" o = none := by simpa [Fields.has] using hsingle
  simp [childrenOf?, hrules, Fields.get?_rename hsingle,
    Fields.get?_renamed (show "rules" ≠ "children" by decide)]

/-- Lists are read alike where one element is. -/
theorem readList_keeps {pre post : List Doc} {d e : Doc} {i : Nat} (h : (read d).Keeps (read e)) :
    (readList i (pre ++ d :: post)).Keeps (readList i (pre ++ e :: post)) := by
  induction pre generalizing i with
  | nil => exact (((h.under _).fmap _).seq (.refl _))
  | cons x pre ih => exact ((Checked.Keeps.refl _).seq ih)

/-- Children are read alike where one of them is. -/
theorem childrenIn_keeps {o : Fields} {k : String} {v w : Doc} (hk : k = "rules" ∨ k = "children")
    (hv : Fields.get? k o = some v) (h : (readChildren v).Keeps (readChildren w)) :
    (childrenIn (readFields o)).Keeps (childrenIn (readFields (o.set k w))) := by
  simp only [childrenIn_readFields]
  rcases hk with rfl | rfl
  · simpa [childrenOf?, hv] using h
  · simp only [childrenOf?, Fields.get?_set_of_ne (show "children" ≠ "rules" by decide),
      Fields.get?_set_self, hv]
    cases Fields.get? "rules" o with
    | some x => exact .refl _
    | none => exact h

/-- One change in the spelling keeps the tree. -/
theorem read_keeps {d e : Doc} (h : Respelling d e) : (read d).Keeps (read e) := by
  have table : ∀ {o p : Fields}, Conveys o p →
      (childrenIn (readFields o)).Keeps (childrenIn (readFields p)) →
      (read (.obj o)).Keeps (read (.obj p)) := fun hop hxy => by
    simpa only [read] using hop.node hxy
  have sameChildren : ∀ {o p : Fields}, Fields.get? "rules" p = Fields.get? "rules" o →
      Fields.get? "children" p = Fields.get? "children" o →
      (childrenIn (readFields o)).Keeps (childrenIn (readFields p)) := by
    intro o p hrules hchildren
    have hop : childrenOf? p = childrenOf? o := by
      unfold childrenOf?
      rw [hrules, hchildren]
    rw [childrenIn_readFields, childrenIn_readFields, hop]
    exact .refl _
  induction h with
  | bare group all => exact fun c hc => read_items group all hc
  | rules single =>
    refine table (.renamedChildren single) ?_
    rw [childrenIn_readFields, childrenIn_readFields, childrenOf?_rename single]
    exact .refl _
  | untagged group children =>
    exact table (.untagged group children) (sameChildren (Fields.get?_erase_of_ne (by decide))
      (Fields.get?_erase_of_ne (by decide)))
  | tag tagged spelling =>
    exact table (.tagged tagged spelling.tagName_eq) (sameChildren
      (Fields.get?_set_of_ne (by decide) _ _) (Fields.get?_set_of_ne (by decide) _ _))
  | operator there spelling =>
    exact table (.operated there spelling.operatorName_eq) (sameChildren
      (Fields.get?_set_of_ne (by decide) _ _) (Fields.get?_set_of_ne (by decide) _ _))
  | aggregation there same =>
    exact table (.aggregated there same.upper_eq) (sameChildren
      (Fields.get?_set_of_ne (by decide) _ _) (Fields.get?_set_of_ne (by decide) _ _))
  | camel known single =>
    obtain ⟨hrules, hrules'⟩ := Conveys.names_of_valueFields _ known "rules" (by simp)
    obtain ⟨hchildren, hchildren'⟩ := Conveys.names_of_valueFields _ known "children" (by simp)
    exact table (.camelled known single) (sameChildren (Fields.get?_rename_of_ne hrules hrules')
      (Fields.get?_rename_of_ne hchildren hchildren'))
  | reordered keyed perm =>
    exact table (.reordered keyed perm) (sameChildren
      (Fields.get?_perm (fun _ _ => keyed.value_unique) perm)
      (Fields.get?_perm (fun _ _ => keyed.value_unique) perm))
  | item inner ih =>
    exact (((readList_keeps ih).under (.key "children")).under (.key "group")).fmap Condition.all
  | child holds there inner ih =>
    refine table (.regrouped holds (by simp [Fields.has, there])) (childrenIn_keeps holds there ?_)
    exact readList_keeps ih

/-- Any change in the spelling keeps the tree. -/
theorem read_keeps_of_respelled {d e : Doc} (h : Respelled d e) : (read d).Keeps (read e) := by
  induction h with
  | refl => exact .refl _
  | tail _ hstep ih => exact fun c hc => read_keeps hstep c (ih c hc)

theorem accept_eq_ok {x : Checked Condition} {c : Condition} :
    parse.accept x = .ok c ↔ x = .ok c := by
  cases x <;> simp [parse.accept]

/-- A document that is read as a node is no text, and is parsed as that node. -/
theorem parse_of_read {d : Doc} {c : Condition} (h : read d = .ok c) : parse d = .ok c := by
  cases d with
  | atom a => exact absurd h (readAtom_ne_ok a c)
  | list xs => exact accept_eq_ok.2 h
  | obj o => exact accept_eq_ok.2 h
  | set xs => exact accept_eq_ok.2 h

theorem read_of_parse {d : Doc} {c : Condition} (hd : ∀ s, d ≠ .str s) (h : parse d = .ok c) :
    read d = .ok c := by
  unfold parse at h
  split at h
  · rename_i s
    exact absurd rfl (hd s)
  · exact accept_eq_ok.1 h

/-- Every spelling of a table or a list that is parsed is parsed as the same tree, and so
is every JSON text of it. The canonical document of the tree is one of them: it is parsed as
the tree, whose canonical document it is. -/
theorem parse_of_respelled {d e : Doc} {c : Condition} (hd : ∀ s, d ≠ .str s)
    (h : parse d = .ok c) (hde : Respelled d e) :
    parse e = .ok c ∧ (∀ s, Json.read s = .ok e → parse (.str s) = .ok c)
      ∧ parse c.toDoc = .ok c ∧ (parse c.toDoc).map toDoc = .ok c.toDoc := by
  have hread : read e = .ok c := read_keeps_of_respelled hde c (read_of_parse hd h)
  have hcanonical : parse c.toDoc = .ok c := parse_toDoc h
  refine ⟨parse_of_read hread, fun s hs => ?_, hcanonical, by rw [hcanonical]; rfl⟩
  unfold parse
  simp only [hs, hread, parse.accept]

/-- A group of one device as a bare list, with its tag in capitals after a blank and a key
in camel case, and the same as a JSON text. -/
theorem parse_of_respelled_fan :
    let fan (tag key : String) : Doc :=
      .record [("type", .str tag), (key, .str "fan"), ("expected_status", .str "on")]
    let group : Doc := .record [("type", .str "group"), ("operator", .str "AND"),
      ("children", .list [fan "device" "device_id"])]
    let text : String := "[\x7b\"type\": \" DEVICE\", \"deviceId\": \"fan\", "
      ++ "\"expected_status\": \"on\"\x7d]"
    let tree : Condition := .all [.leaf (.device ⟨"fan", "on"⟩)]
    parse group = .ok tree ∧ Respelled group (.list [fan " DEVICE" "deviceId"])
      ∧ Json.read text = .ok (.list [fan " DEVICE" "deviceId"]) ∧ parse (.str text) = .ok tree := by
  intro fan group text tree
  have hparse : parse group = .ok tree := rfl
  have hall : AsksAll [(.str "type", .str "group"), (.str "operator", .str "AND"),
      (.str "children", .list [fan "device" "device_id"])] := by
    intro d hd
    cases hd
    rfl
  have hbare : Respelling group (.list [fan "device" "device_id"]) := .bare rfl hall
  have hcapitals : Respelling (fan "device" "device_id") (fan "DEVICE" "device_id") :=
    .tag (t := "DEVICE") rfl (.recased rfl)
  have hblank : Respelling (fan "DEVICE" "device_id") (fan " DEVICE" "device_id") :=
    .tag (t := " DEVICE") rfl
      (.respaced ⟨"DEVICE".toList, [], [], [' '], [], by simp; rfl, rfl, rfl⟩)
  have hcamel : Respelling (fan " DEVICE" "device_id") (fan " DEVICE" "deviceId") :=
    .camel (f := Key.deviceId) (by decide) rfl
  have item : ∀ {d e : Doc}, Respelling d e → Respelling (.list [d]) (.list [e]) :=
    fun h => @Respelling.item [] [] _ _ h
  have hspelled : Respelled group (.list [fan " DEVICE" "deviceId"]) :=
    .head hbare (.head (item hcapitals) (.head (item hblank) (.single (item hcamel))))
  have hread : Json.read text = .ok (.list [fan " DEVICE" "deviceId"]) := by
    simp [text, fan, Json.read, Json.readChars, Json.readValue, Json.readItems, Json.readFields,
      Json.readText, Json.skipGap, Json.isGap, Fields.ofPairs, Fields.put, Doc.record, Atom.sameKey,
      bind, Except.bind, Except.map, List.dropWhile]
  have hgroup : ∀ s, group ≠ .str s := fun s h => by simp [group, Doc.record] at h
  exact ⟨hparse, hspelled, hread, (parse_of_respelled hgroup hparse hspelled).2.1 text hread⟩

end Condition

end Glasshouse
