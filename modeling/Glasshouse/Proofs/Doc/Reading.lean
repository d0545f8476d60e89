/-
Glasshouse.Proofs.Doc.Reading — what it says about a document that it is read, and
how values are read that were written: single values, fields, tables of texts
and lists. Readings are inverted field by field with these lemmas.
-/
import Glasshouse.Proofs.Store.Rows
import Mathlib.Data.List.Forall2

namespace Glasshouse

/-! ## Combined readings -/

theorem exists_of_mem_right {α β : Type} {R : α → β → Prop} {as : List α} {bs : List β}
    (h : List.Forall₂ R as bs) {b : β} (hb : b ∈ bs) : ∃ a ∈ as, R a b := by
  induction h with
  | nil => cases hb
  | cons hab _ ih =>
    rcases List.mem_cons.1 hb with rfl | hb
    · exact ⟨_, List.mem_cons_self .., hab⟩
    · obtain ⟨a, ha, hr⟩ := ih hb
      exact ⟨a, List.mem_cons_of_mem _ ha, hr⟩

theorem map_eq_self_iff {α : Type} {f : α → α} {as : List α} :
    as.map f = as ↔ ∀ a ∈ as, f a = a := by
  induction as with
  | nil => simp
  | cons a as ih => simp [ih]

theorem mapM_eq_some {α β : Type} {f : α → Option β} {xs : List α} {ys : List β} :
    xs.mapM f = some ys ↔ List.Forall₂ (fun x y => f x = some y) xs ys := by
  induction xs generalizing ys with
  | nil =>
    rw [List.mapM_nil, List.forall₂_nil_left_iff]
    exact ⟨fun h => (Option.some.inj h).symm, fun h => congrArg some h.symm⟩
  | cons x xs ih =>
    rw [List.mapM_cons, List.forall₂_cons_left_iff]
    constructor
    · intro h
      obtain ⟨y, hy, h⟩ := Option.bind_eq_some_iff.1 h
      obtain ⟨zs, hzs, h⟩ := Option.bind_eq_some_iff.1 h
      exact ⟨y, zs, hy, ih.1 hzs, (Option.some.inj h).symm⟩
    · rintro ⟨y, zs, hy, hzs, rfl⟩
      rw [hy, ih.2 hzs]
      rfl

namespace Checked

variable {α β : Type}

theorem seqLeft_eq_ok {x : Checked α} {y : Checked β} {a : α} :
    x <* y = .ok a ↔ x = .ok a ∧ ∃ b, y = .ok b := by
  show Function.const _ <$> x <*> y = .ok a ↔ _
  rw [seq_eq_ok]
  constructor
  · rintro ⟨_, b, hx, hy, rfl⟩
    obtain ⟨a, rfl, rfl⟩ := map_eq_ok.1 hx
    exact ⟨rfl, b, hy⟩
  · rintro ⟨hx, b, hy⟩
    exact ⟨_, b, map_eq_ok.2 ⟨a, hx, rfl⟩, hy, rfl⟩

theorem fmap_eq_ok {f : α → β} {x : Checked α} {b : β} :
    f <$> x = .ok b ↔ ∃ a, x = .ok a ∧ f a = b :=
  map_eq_ok

/-- A list is read where its elements are. -/
theorem each_eq_ok {f : α → Checked β} {i : Nat} {as : List α} {bs : List β} :
    each f i as = .ok bs ↔ List.Forall₂ (fun a b => f a = .ok b) as bs := by
  induction as generalizing i bs with
  | nil =>
    simp only [each, ok.injEq, List.forall₂_nil_left_iff, eq_comm]
  | cons a as ih =>
    simp only [each, seq_eq_ok, List.forall₂_cons_left_iff]
    constructor
    · rintro ⟨_, bs', ha, hbs, rfl⟩
      obtain ⟨b, hb, rfl⟩ := map_eq_ok.1 ha
      exact ⟨b, bs', under_eq_ok.1 hb, ih.1 hbs, rfl⟩
    · rintro ⟨b, bs', hb, hbs, rfl⟩
      exact ⟨_, bs', map_eq_ok.2 ⟨b, under_eq_ok.2 hb, rfl⟩, ih.2 hbs, rfl⟩

end Checked

namespace Schema

variable {α : Type}

/-! ## Single values -/

theorem filledText_eq_ok {d : Doc} {s : String} :
    filledText d = .ok s ↔ text d = .ok s ∧ s ≠ "" := by
  unfold filledText
  rw [Checked.andThen_eq_ok]
  constructor
  · rintro ⟨t, ht, h⟩
    split at h
    · cases h
    · rename_i hempty
      cases h
      exact ⟨ht, fun hs => hempty (by rw [hs]; rfl)⟩
  · rintro ⟨ht, hs⟩
    refine ⟨s, ht, if_neg ?_⟩
    simpa using hs

theorem filledText_str {s : String} (h : s ≠ "") : filledText (.str s) = .ok s :=
  filledText_eq_ok.2 ⟨rfl, h⟩

theorem natural_nat (n : Nat) : natural (.nat n) = .ok n :=
  natural_int_eq_ok.2 rfl

theorem pos_of_positive {d : Doc} {n : Nat} (h : positive d = .ok n) : 0 < n := by
  obtain ⟨k, -, h⟩ := Checked.andThen_eq_ok.1 h
  split at h
  · cases h
  · cases h
    omega

theorem positive_nat {n : Nat} (h : 0 < n) : positive (.nat n) = .ok n := by
  refine Checked.andThen_eq_ok.2 ⟨n, rfl, ?_⟩
  rw [if_neg (by omega)]
  rfl

theorem nonNegative_eq_ok {d : Doc} {x : Float} (h : nonNegative d = .ok x) : x ≥ 0.0 := by
  obtain ⟨y, -, h⟩ := Checked.andThen_eq_ok.1 h
  split at h
  · rename_i hy
    cases h
    exact hy
  · cases h

theorem nonNegative_num {x : Float} (h : x ≥ 0.0) : nonNegative (.num x) = .ok x :=
  if_pos h

theorem integer_int (n : Int) : integer (.int n) = .ok n := rfl

theorem truth_bool (b : Bool) : truth (.bool b) = .ok b := rfl

theorem double_num (x : Float) : double (.num x) = .ok x := rfl

theorem eq_ok_of_nullable {f : Doc → Checked α} {d : Doc} {a : α}
    (h : nullable f d = .ok (some a)) : f d = .ok a := by
  unfold nullable at h
  split at h
  · cases h
  · obtain ⟨_, hf, ha⟩ := Checked.map_eq_ok.1 h
    rw [hf, Option.some.inj ha]

theorem nullable_positive {n : Option Nat} (h : ∀ k, n = some k → 0 < k) :
    nullable positive (.ofOption .nat n) = .ok n := by
  cases n with
  | none => rfl
  | some k =>
    show (positive (.nat k)).map some = _
    rw [positive_nat (h k rfl)]
    rfl

theorem nullable_text (s : Option String) : nullable text (.ofOption .str s) = .ok s := by
  cases s <;> rfl

/-! ## Fields -/

/-- A field that is there is read from its value. -/
theorem required_of_find {o : Fields} {f : FieldName} {read : Doc → Checked α} {k : String}
    {d : Doc} {a : α} (hf : f.find? o = some (k, d)) (h : read d = .ok a) :
    required o f read = .ok a :=
  (required_eq_ok hf).2 h

theorem optional_of_find {o : Fields} {f : FieldName} {read : Doc → Checked α} {k : String}
    {d : Doc} {x a : α} (hf : f.find? o = some (k, d)) (h : read d = .ok a) :
    optional o f x read = .ok a :=
  (optional_eq_ok hf).2 h

/-- What a required field is read as, its value is read as. -/
theorem read_of_required {o : Fields} {f : FieldName} {read : Doc → Checked α} {a : α}
    (h : required o f read = .ok a) : ∃ p, f.find? o = some p ∧ read p.2 = .ok a := by
  unfold required at h
  split at h
  · rename_i k d hf
    exact ⟨(k, d), hf, Checked.under_eq_ok.1 h⟩
  · cases h

/-- What an optional field is read as, its value is read as, unless it stands for
absence. -/
theorem read_of_optional {o : Fields} {f : FieldName} {read : Doc → Checked α} {x a : α}
    (h : optional o f x read = .ok a) : a = x ∨ ∃ p, f.find? o = some p ∧ read p.2 = .ok a := by
  unfold optional at h
  split at h
  · rename_i k d hf
    exact .inr ⟨(k, d), hf, Checked.under_eq_ok.1 h⟩
  · cases h
    exact .inl rfl

theorem filled_of_required {o : Fields} {f : FieldName} {s : String}
    (h : required o f filledText = .ok s) : s ≠ "" := by
  obtain ⟨_, -, h⟩ := read_of_required h
  exact (filledText_eq_ok.1 h).2

theorem textTable_record (hs : List (String × String)) :
    textTable (.record (hs.map fun h => (h.1, .str h.2))) = .ok hs := by
  show entries text _ = _
  induction hs with
  | nil => rfl
  | cons h hs ih =>
    show List.cons <$> (Prod.mk <$> _ <*> _) <*> entries text _ = _
    rw [ih]
    rfl

end Schema

end Glasshouse
