/-
Glasshouse.Proofs.Doc.Keys — tables under changes of their keys: set anew, erased,
renamed, in another order. Which fields a reader finds, and whether others are
left over, follows from the values of their keys; a reading that keeps what
another yields is built from such parts. Main statements:
`Schema.required_keeps`, `Schema.noOthers_keeps`.
-/
import Glasshouse.Proofs.Doc.Json
import Mathlib.Data.List.Nodup

namespace Glasshouse

open Schema

/-! ## Readings that keep what others yield -/

namespace Checked

variable {α β : Type} {x y : Checked α}

/-- What the one reading yields, the other does too. -/
def Keeps (x y : Checked α) : Prop := ∀ a, x = .ok a → y = .ok a

theorem Keeps.refl (x : Checked α) : x.Keeps x := fun _ h => h

theorem Keeps.fmap (f : α → β) (h : x.Keeps y) : (f <$> x).Keeps (f <$> y) := by
  intro b hb
  obtain ⟨a, ha, rfl⟩ := fmap_eq_ok.1 hb
  exact fmap_eq_ok.2 ⟨a, h a ha, rfl⟩

theorem Keeps.seq {f g : Checked (α → β)} (hf : f.Keeps g) (hx : x.Keeps y) :
    (f <*> x).Keeps (g <*> y) := by
  intro b hb
  obtain ⟨φ, a, hφ, ha, rfl⟩ := seq_eq_ok.1 hb
  exact seq_eq_ok.2 ⟨φ, a, hf φ hφ, hx a ha, rfl⟩

theorem Keeps.seqLeft {u v : Checked β} (hx : x.Keeps y) (hu : u.Keeps v) :
    (x <* u).Keeps (y <* v) := by
  intro a ha
  obtain ⟨ha, b, hb⟩ := seqLeft_eq_ok.1 ha
  exact seqLeft_eq_ok.2 ⟨hx a ha, b, hu b hb⟩

theorem Keeps.under (s : Step) (h : x.Keeps y) : (x.under s).Keeps (y.under s) := by
  intro a ha
  exact under_eq_ok.2 (h a (under_eq_ok.1 ha))

theorem Keeps.andThen (f : α → Checked β) (h : x.Keeps y) : (x.andThen f).Keeps (y.andThen f) := by
  intro b hb
  obtain ⟨a, ha, hb⟩ := andThen_eq_ok.1 hb
  exact andThen_eq_ok.2 ⟨a, h a ha, hb⟩

end Checked

namespace Schema

variable {α : Type} {o p : Fields} {f : FieldName} {g : Doc → Doc} {read : Doc → Checked α}

/-- The value of a field, under either of its names. -/
def FieldName.value? (f : FieldName) (o : Fields) : Option Doc :=
  (f.find? o).map (·.2)

theorem required_keeps (h : (f.value? p).map g = (f.value? o).map g)
    (hread : ∀ v w, g v = g w → read v = read w) :
    (required o f read).Keeps (required p f read) := by
  intro a ha
  obtain ⟨⟨k, v⟩, hv, ha⟩ := read_of_required ha
  simp only [FieldName.value?, hv, Option.map_map, Option.map_some, Option.map_eq_some_iff] at h
  obtain ⟨⟨l, w⟩, hw, hgw⟩ := h
  exact required_of_find hw ((hread w v hgw).trans ha)

theorem optional_keeps {x : α} (h : (f.value? p).map g = (f.value? o).map g)
    (hread : ∀ v w, g v = g w → read v = read w) :
    (optional o f x read).Keeps (optional p f x read) := by
  intro a ha
  cases hv : f.find? o with
  | none =>
    simp only [FieldName.value?, hv, Option.map_none, Option.map_eq_none_iff] at h
    simpa only [optional, hv, h] using ha
  | some q =>
    simp only [FieldName.value?, hv, Option.map_map, Option.map_some, Option.map_eq_some_iff] at h
    obtain ⟨⟨l, w⟩, hw, hgw⟩ := h
    exact optional_of_find hw ((hread w q.2 hgw).trans ((optional_eq_ok hv).1 ha))

/-- No field is left over where each stands under the name of a known one. -/
theorem noOthers_eq_ok {fs : List FieldName} {u : Unit} : noOthers o fs = .ok u ↔
    ∀ q ∈ o, ∃ f ∈ fs, ∃ k v, f.find? o = some (k, v) ∧ q.1 = .str k := by
  have hstray : ∀ (used : List String) (k : Atom),
      strayKey? used k = none ↔ ∃ s ∈ used, k = .str s := by
    intro used k
    cases k <;> simp [strayKey?]
  have hnil : noOthers o fs = .ok u ↔ o.filterMap (fun q => strayKey?
      (fs.filterMap fun f => (f.find? o).map (·.1)) q.1) = [] := by
    unfold noOthers
    dsimp only
    split
    · rename_i h
      simp [h]
    · rename_i hne
      simpa using hne
  rw [hnil, List.filterMap_eq_nil_iff]
  refine forall₂_congr fun q _ => ?_
  rw [hstray]
  simp only [List.mem_filterMap, Option.map_eq_some_iff, Prod.exists, exists_and_right,
    exists_eq_right]
  constructor
  · rintro ⟨s, ⟨f, hf, v, hv⟩, hq⟩
    exact ⟨f, hf, s, ⟨v, hv⟩, hq⟩
  · rintro ⟨f, hf, s, ⟨v, hv⟩, hq⟩
    exact ⟨s, ⟨f, hf, v, hv⟩, hq⟩

end Schema

/-! ## Tables -/

namespace Fields

variable {k l : String} {o p : Fields}

/-- The fields with one text key renamed, in their places. -/
def rename (k l : String) (o : Fields) : Fields :=
  o.map fun f => if f.1.isText k then (.str l, f.2) else f

theorem isText_iff {a : Atom} : a.isText k = true ↔ a = .str k := by
  cases a <;> simp [Atom.isText]

/-- A key set anew keeps the keys. -/
theorem keys_set {v : Doc} (h : has k o = true) : (set k v o).map (·.1) = o.map (·.1) := by
  induction o with
  | nil => cases h
  | cons f o ih =>
    obtain ⟨a, w⟩ := f
    simp only [set, put, isText_sameKey_str, has, get?_cons] at ih h ⊢
    by_cases ha : a.isText k = true
    · simp [ha]
    · simp only [ha, if_false, Bool.false_eq_true] at h ⊢
      simp [ih h]

theorem keys_erase : (erase k o).map (·.1) = (o.map (·.1)).filter fun a => !a.isText k := by
  unfold erase
  rw [List.filter_map]
  rfl

/-- Whether a key is there is a question about the keys. -/
theorem has_eq_any (k : String) (o : Fields) : has k o = (o.map (·.1)).any (Atom.isText k) := by
  induction o with
  | nil => rfl
  | cons f o ih =>
    obtain ⟨a, v⟩ := f
    simp only [has, get?_cons, List.map_cons, List.any_cons] at ih ⊢
    by_cases ha : a.isText k = true
    · simp [ha]
    · simp only [ha, if_false, Bool.false_eq_true, ih, Bool.false_or]

theorem get?_erase_of_ne (h : k ≠ l) : get? l (erase k o) = get? l o := by
  induction o with
  | nil => rfl
  | cons f o ih =>
    obtain ⟨a, v⟩ := f
    simp only [erase] at ih
    by_cases ha : a.isText k = true
    · have hal : a.isText l = false := by
        rw [isText_iff.1 ha]
        simpa [Atom.isText] using h
      simp [erase, get?_cons, ha, hal, ih]
    · simp [erase, get?_cons, ha, ih]

theorem erase_of_absent (h : has k o = false) : erase k o = o := by
  rw [has_eq_any, List.any_eq_false] at h
  refine List.filter_eq_self.2 fun f hf => ?_
  simpa using h f.1 (List.mem_map_of_mem hf)

/-- A renamed key holds its value under its new name, if that was free. -/
theorem get?_rename (h : has l o = false) : get? l (rename k l o) = get? k o := by
  induction o with
  | nil => rfl
  | cons f o ih =>
    obtain ⟨a, v⟩ := f
    simp only [has, get?_cons] at h ih
    by_cases hl : a.isText l = true
    · simp [hl] at h
    · simp only [hl, if_false, Bool.false_eq_true] at h
      by_cases hk : a.isText k = true
      · have hll : (Atom.str l).isText l = true := isText_iff.2 rfl
        simp [rename, get?_cons, hk, hll]
      · have := ih h
        simp only [rename] at this
        simp [rename, get?_cons, hk, hl, this]

theorem get?_rename_of_ne {m : String} (hk : m ≠ k) (hl : m ≠ l) :
    get? m (rename k l o) = get? m o := by
  induction o with
  | nil => rfl
  | cons f o ih =>
    obtain ⟨a, v⟩ := f
    simp only [rename] at ih
    by_cases ha : a.isText k = true
    · have ham : a.isText m = false := by
        rw [isText_iff.1 ha]
        simpa [Atom.isText] using hk.symm
      have hlm : (Atom.str l).isText m = false := by
        simpa [Atom.isText] using hl.symm
      simp [rename, get?_cons, ha, ham, hlm, ih]
    · simp [rename, get?_cons, ha, ih]

/-- A key that was renamed is gone. -/
theorem get?_renamed (h : l ≠ k) : get? k (rename k l o) = none := by
  induction o with
  | nil => rfl
  | cons f o ih =>
    obtain ⟨a, v⟩ := f
    simp only [rename] at ih
    have hlk : (Atom.str l).isText k = false := by simpa [Atom.isText] using h
    by_cases ha : a.isText k = true
    · simp [rename, get?_cons, ha, hlk, ih]
    · simp [rename, get?_cons, ha, ih]

theorem rename_of_absent (h : has k o = false) : rename k l o = o := by
  rw [has_eq_any, List.any_eq_false] at h
  refine map_eq_self_iff.2 fun f hf => if_neg ?_
  simpa using h f.1 (List.mem_map_of_mem hf)

theorem erase_comm : erase k (erase l o) = erase l (erase k o) :=
  List.filter_comm ..

/-- Erasing a free name after a key got it erases the key. -/
theorem erase_rename (h : has l o = false) : erase l (rename k l o) = erase k o := by
  induction o with
  | nil => rfl
  | cons f o ih =>
    obtain ⟨a, v⟩ := f
    simp only [has_eq_any, List.map_cons, List.any_cons, Bool.or_eq_false_iff] at h ih
    have hll : (Atom.str l).isText l = true := isText_iff.2 rfl
    have := ih h.2
    simp only [erase, rename] at this
    by_cases ha : a.isText k = true
    · simp [erase, rename, ha, hll, this]
    · simp [erase, rename, ha, h.1, this]

theorem erase_rename_of_ne {m : String} (hk : m ≠ k) (hl : m ≠ l) :
    erase m (rename k l o) = rename k l (erase m o) := by
  induction o with
  | nil => rfl
  | cons f o ih =>
    obtain ⟨a, v⟩ := f
    simp only [erase, rename] at ih
    have hlm : (Atom.str l).isText m = false := by simpa [Atom.isText] using hl.symm
    by_cases ha : a.isText k = true
    · have ham : a.isText m = false := by
        rw [isText_iff.1 ha]
        simpa [Atom.isText] using hk.symm
      simp [erase, rename, ha, ham, hlm, ih]
    · by_cases ham : a.isText m = true
      · simp [erase, rename, ha, ham, ih]
      · simp [erase, rename, ha, ham, ih]

theorem mem_of_get?_eq {v : Doc} (h : get? k o = some v) : (Atom.str k, v) ∈ o := by
  induction o with
  | nil => cases h
  | cons f o ih =>
    obtain ⟨a, w⟩ := f
    rw [get?_cons] at h
    split at h
    · rename_i ha
      cases h
      rw [isText_iff.1 ha]
      exact List.mem_cons_self ..
    · exact List.mem_cons_of_mem _ (ih h)

theorem isSome_get?_of_mem {v : Doc} (h : (Atom.str k, v) ∈ o) : ∃ w, get? k o = some w := by
  refine Option.isSome_iff_exists.1 ?_
  rw [← has, has_eq_any, List.any_eq_true]
  exact ⟨_, List.mem_map_of_mem h, isText_iff.2 rfl⟩

/-- A key that has one value has it in any order of the fields. -/
theorem get?_perm (hsingle : ∀ v w, (Atom.str k, v) ∈ o → (Atom.str k, w) ∈ o → v = w)
    (hperm : o.Perm p) : get? k p = get? k o := by
  cases ho : get? k o with
  | some v =>
    obtain ⟨w, hw⟩ := isSome_get?_of_mem (hperm.mem_iff.1 (mem_of_get?_eq ho))
    rw [hw, hsingle w v (hperm.mem_iff.2 (mem_of_get?_eq hw)) (mem_of_get?_eq ho)]
  | none =>
    cases hp : get? k p with
    | none => rfl
    | some v =>
      obtain ⟨w, hw⟩ := isSome_get?_of_mem (hperm.mem_iff.2 (mem_of_get?_eq hp))
      rw [ho] at hw
      cases hw

/-- In fields with every key once a key has one value. -/
theorem Keyed.value_unique (h : o.Keyed) {v w : Doc} (hv : (Atom.str k, v) ∈ o)
    (hw : (Atom.str k, w) ∈ o) : v = w := by
  obtain ⟨ps, hps, rfl⟩ := h
  have hmem : ∀ {u : Doc}, (Atom.str k, u) ∈ ofTexts ps → (k, u) ∈ ps := by
    intro u hu
    obtain ⟨⟨l, x⟩, hlx, hu⟩ := List.mem_map.1 hu
    cases hu
    exact hlx
  exact congrArg Prod.snd (List.inj_on_of_nodup_map hps (hmem hv) (hmem hw) rfl)

end Fields

/-! ## Fields under two names -/

namespace Schema.FieldName

variable {k l : String} {o p : Fields} {f : FieldName}

/-- A field is found under the same name with the same value where its keys have the same
values. -/
theorem find?_congr (hplain : Fields.get? f.plain p = Fields.get? f.plain o)
    (hcamel : Fields.get? f.camel p = Fields.get? f.camel o) : f.find? p = f.find? o := by
  simp only [find?, hplain, hcamel]

/-- The value of a field with one name. -/
theorem value?_same (k : String) (o : Fields) : (FieldName.same k).value? o = Fields.get? k o := by
  unfold value? find? same
  cases Fields.get? k o <;> rfl

/-- The name under which a field is found is a question about the keys. -/
theorem name_congr (hkeys : p.map (·.1) = o.map (·.1)) :
    (f.find? p).map (·.1) = (f.find? o).map (·.1) := by
  have hname : ∀ o : Fields, (f.find? o).map (·.1)
      = if Fields.has f.camel o then some f.camel
        else if Fields.has f.plain o then some f.plain else none := by
    intro o
    unfold find? Fields.has
    cases Fields.get? f.camel o <;> cases Fields.get? f.plain o <;> rfl
  simp only [hname, Fields.has_eq_any, hkeys]

/-- A field is found under one of its names. -/
theorem name_of_find {q : String × Doc} (h : f.find? o = some q) :
    q.1 = f.camel ∨ q.1 = f.plain := by
  unfold find? at h
  split at h
  · cases h
    exact .inl rfl
  · obtain ⟨v, -, rfl⟩ := Option.map_eq_some_iff.1 h
    exact .inr rfl

/-- Two fields without a common name. -/
def Apart (g f : FieldName) : Prop :=
  g.plain ≠ f.plain ∧ g.plain ≠ f.camel ∧ g.camel ≠ f.plain ∧ g.camel ≠ f.camel

instance (g f : FieldName) : Decidable (g.Apart f) := inferInstanceAs (Decidable (_ ∧ _))

/-- A field does not see the names of another. -/
theorem Apart.find?_rename {g : FieldName} (h : g.Apart f) :
    g.find? (o.rename f.plain f.camel) = g.find? o :=
  find?_congr (Fields.get?_rename_of_ne h.1 h.2.1) (Fields.get?_rename_of_ne h.2.2.1 h.2.2.2)

/-- A field that stood under its plain name stands under that in camel case. -/
theorem find?_rename {v : Doc} (hsingle : Fields.has f.camel o = false)
    (h : f.find? o = some (k, v)) :
    k = f.plain ∧ f.find? (o.rename f.plain f.camel) = some (f.camel, v) := by
  have hcamel : Fields.get? f.camel o = none := by
    simpa [Fields.has] using hsingle
  simp only [find?, hcamel, Option.map_eq_some_iff, Prod.mk.injEq] at h
  obtain ⟨w, hw, hk, hv⟩ := h
  have hrenamed := Fields.get?_rename (k := f.plain) hsingle
  simp only [find?, hrenamed, hw, hv]
  exact ⟨hk.symm, trivial⟩

end Schema.FieldName

/-- Whether fields are left over is a question about the keys. -/
theorem Schema.noOthers_congr {o p : Fields} (hkeys : p.map (·.1) = o.map (·.1))
    (fs : List FieldName) : noOthers p fs = noOthers o fs := by
  have hstray : ∀ (used : List String) (q : Fields),
      q.filterMap (fun f => strayKey? used f.1) = (q.map (·.1)).filterMap (strayKey? used) := by
    intro used q
    rw [List.filterMap_map]
    rfl
  simp only [noOthers, FieldName.name_congr hkeys, hstray, hkeys]

/-- A key that no field has for a name is left over, if it is there. -/
theorem Schema.absent_of_noOthers {k : String} {o : Fields} {fs : List FieldName} {u : Unit}
    (hnames : ∀ f ∈ fs, f.plain ≠ k ∧ f.camel ≠ k) (h : noOthers o fs = .ok u) :
    Fields.has k o = false := by
  by_contra hthere
  rw [Bool.not_eq_false, Fields.has_eq_any, List.any_eq_true] at hthere
  obtain ⟨a, ha, hk⟩ := hthere
  obtain ⟨q, hq, rfl⟩ := List.mem_map.1 ha
  obtain ⟨f, hf, l, v, hlv, hql⟩ := noOthers_eq_ok.1 h q hq
  obtain ⟨hplain, hcamel⟩ := hnames f hf
  rw [hql] at hk
  cases Fields.isText_iff.1 hk
  rcases FieldName.name_of_find hlv with h | h
  · exact hcamel h.symm
  · exact hplain h.symm

/-- No field is left over in the one table where it stands for one of the other. -/
theorem Schema.noOthers_keeps {o p : Fields} {fs : List FieldName}
    (h : ∀ q ∈ p, ∃ r ∈ o, ∀ f ∈ fs, ∀ k v, f.find? o = some (k, v) → r.1 = .str k →
      ∃ g ∈ fs, ∃ l w, g.find? p = some (l, w) ∧ q.1 = .str l) :
    (noOthers o fs).Keeps (noOthers p fs) := by
  intro u hu
  refine noOthers_eq_ok.2 fun q hq => ?_
  obtain ⟨r, hr, hfound⟩ := h q hq
  obtain ⟨f, hf, k, v, hkv, hrk⟩ := noOthers_eq_ok.1 hu r hr
  exact hfound f hf k v hkv hrk

/-- Fewer fields leave no more over. -/
theorem Schema.noOthers_erase {k : String} {o : Fields} {fs : List FieldName}
    (hnames : ∀ f ∈ fs, f = .same k ∨ (k ≠ f.plain ∧ k ≠ f.camel)) :
    (noOthers o fs).Keeps (noOthers (o.erase k) fs) := by
  refine noOthers_keeps fun q hq => ?_
  obtain ⟨hq, hqk⟩ := List.mem_filter.1 hq
  refine ⟨q, hq, fun f hf l v hlv hql => ⟨f, hf, l, v, ?_, hql⟩⟩
  rcases hnames f hf with rfl | ⟨hplain, hcamel⟩
  · have hl : l = k := by simpa [FieldName.same] using FieldName.name_of_find hlv
    simp [hql, hl, Atom.isText] at hqk
  · rw [← hlv]
    exact FieldName.find?_congr (Fields.get?_erase_of_ne hplain) (Fields.get?_erase_of_ne hcamel)

/-- A field with its other name leaves no more over. -/
theorem Schema.noOthers_rename {f : FieldName} {o : Fields} {fs : List FieldName}
    (hsingle : Fields.has f.camel o = false)
    (hnames : ∀ g ∈ fs, g = f ∨ g.Apart f) :
    (noOthers o fs).Keeps (noOthers (o.rename f.plain f.camel) fs) := by
  refine noOthers_keeps fun q hq => ?_
  obtain ⟨r, hr, rfl⟩ := List.mem_map.1 hq
  refine ⟨r, hr, fun g hg k v hkv hrk => ?_⟩
  rcases hnames g hg with rfl | hapart
  · obtain ⟨hk, hfound⟩ := FieldName.find?_rename hsingle hkv
    refine ⟨g, hg, g.camel, v, hfound, ?_⟩
    rw [hrk, hk, if_pos (Fields.isText_iff.2 rfl)]
  · refine ⟨g, hg, k, v, by rw [hapart.find?_rename, hkv], ?_⟩
    have hkf : k ≠ f.plain := by
      rcases FieldName.name_of_find hkv with rfl | rfl
      · exact hapart.2.2.1
      · exact hapart.1
    rw [if_neg, hrk]
    rw [hrk, Fields.isText_iff]
    exact fun h => hkf (Atom.str.inj h)

end Glasshouse
