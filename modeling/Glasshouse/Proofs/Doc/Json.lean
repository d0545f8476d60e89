/-
Glasshouse.Proofs.Doc.Json — documents as JSON has them: five kinds of scalars,
lists, and tables whose keys are texts, each key once. What the reader of JSON
texts yields is such a document, and a table of them is read as it is. The
plain form of such a document is the document itself exactly where all of its
numbers are finite. Main statements: `Json.read_isJson`, `Doc.IsJson.plain_eq_iff`.
-/
import Glasshouse.Doc.Plain
import Glasshouse.Proofs.Doc.Reading
import Mathlib.Data.List.Perm.Subperm

namespace Glasshouse

/-! ## Tables with text keys -/

namespace Fields

/-- Fields under text keys. -/
def ofTexts (ps : List (String × Doc)) : Fields :=
  ps.map fun p => (.str p.1, p.2)

@[simp] theorem ofTexts_cons (p : String × Doc) (ps : List (String × Doc)) :
    ofTexts (p :: ps) = (.str p.1, p.2) :: ofTexts ps := rfl

/-- Fields under text keys, each key once. -/
def Keyed (o : Fields) : Prop :=
  ∃ ps : List (String × Doc), (ps.map (·.1)).Nodup ∧ o = ofTexts ps

theorem ofTexts_reverse (ps : List (String × Doc)) :
    ofTexts ps.reverse = (ofTexts ps).reverse :=
  List.map_reverse

theorem ofTexts_inj {ps qs : List (String × Doc)} : ofTexts ps = ofTexts qs ↔ ps = qs := by
  refine List.map_inj_right ?_
  rintro ⟨k, v⟩ ⟨l, w⟩ h
  cases h
  rfl

/-- A new text key goes to the end. -/
theorem put_of_not_mem {k : String} {ps : List (String × Doc)} (h : k ∉ ps.map (·.1)) (v : Doc) :
    put (.str k) v (ofTexts ps) = ofTexts (ps ++ [(k, v)]) := by
  induction ps with
  | nil => rfl
  | cons p ps ih =>
    simp only [List.map_cons, List.mem_cons, not_or] at h
    have hne : (p.1 == k) = false := beq_eq_false_iff_ne.2 (Ne.symm h.1)
    simp only [ofTexts_cons, put, Atom.sameKey, hne, Bool.false_eq_true, if_false, ih h.2,
      List.cons_append]

/-- A text key that is there keeps its place. -/
theorem put_of_mem {k : String} {ps : List (String × Doc)} (h : k ∈ ps.map (·.1)) (v : Doc) :
    ∃ qs, put (.str k) v (ofTexts ps) = ofTexts qs ∧ qs.map (·.1) = ps.map (·.1)
      ∧ ∀ q ∈ qs, q = (k, v) ∨ q ∈ ps := by
  induction ps with
  | nil => cases h
  | cons p ps ih =>
    by_cases hk : p.1 = k
    · refine ⟨(p.1, v) :: ps, ?_, rfl, ?_⟩
      · simp [put, Atom.sameKey, hk]
      · intro q hq
        rcases List.mem_cons.1 hq with rfl | hq
        · exact .inl (by rw [hk])
        · exact .inr (List.mem_cons_of_mem _ hq)
    · have hmem : k ∈ ps.map (·.1) := by
        rcases List.mem_cons.1 h with rfl | h
        · exact absurd rfl hk
        · exact h
      obtain ⟨qs, hput, hkeys, hpairs⟩ := ih hmem
      refine ⟨p :: qs, ?_, by simp only [List.map_cons, hkeys], ?_⟩
      · have hne : (p.1 == k) = false := beq_eq_false_iff_ne.2 hk
        simp only [ofTexts_cons, put, Atom.sameKey, hne, Bool.false_eq_true, if_false, hput]
      · intro q hq
        rcases List.mem_cons.1 hq with rfl | hq
        · exact .inr (List.mem_cons_self ..)
        · exact (hpairs q hq).imp id (List.mem_cons_of_mem _)

/-- Putting pairs with text keys one after the other keeps every key once and adds
no other pairs. -/
theorem foldl_put (ps qs : List (String × Doc))
    (hqs : (qs.map (·.1)).Nodup) :
    ∃ rs, (ofTexts ps).foldl (fun o p => put p.1 p.2 o) (ofTexts qs) = ofTexts rs
      ∧ (rs.map (·.1)).Nodup ∧ ∀ r ∈ rs, r ∈ qs ∨ r ∈ ps := by
  induction ps generalizing qs with
  | nil => exact ⟨qs, rfl, hqs, fun r hr => .inl hr⟩
  | cons p ps ih =>
    have step : ∃ ts, put (.str p.1) p.2 (ofTexts qs) = ofTexts ts ∧ (ts.map (·.1)).Nodup
        ∧ ∀ t ∈ ts, t ∈ qs ∨ t = p := by
      by_cases h : p.1 ∈ qs.map (·.1)
      · obtain ⟨ts, hput, hkeys, hpairs⟩ := put_of_mem h p.2
        exact ⟨ts, hput, hkeys ▸ hqs, fun t ht => (hpairs t ht).symm⟩
      · refine ⟨qs ++ [(p.1, p.2)], put_of_not_mem h p.2, ?_, fun t ht => ?_⟩
        · rw [List.map_append]
          refine List.nodup_append.2 ⟨hqs, List.pairwise_singleton _ _, fun a ha b hb hab => h ?_⟩
          rw [List.map_singleton, List.mem_singleton] at hb
          rwa [← hb, ← hab]
        · exact (List.mem_append.1 ht).imp id List.mem_singleton.1
    obtain ⟨ts, hput, hts, htpairs⟩ := step
    obtain ⟨rs, hfold, hrs, hpairs⟩ := ih ts hts
    refine ⟨rs, ?_, hrs, fun r hr => ?_⟩
    · simp only [ofTexts_cons, List.foldl_cons, hput, hfold]
    · rcases hpairs r hr with ht | hq
      · exact (htpairs r ht).imp id fun h => List.mem_cons.2 (.inl h)
      · exact .inr (List.mem_cons_of_mem _ hq)

/-- Pairs with text keys give fields with every key once and no other pairs. -/
theorem ofPairs_ofTexts (ps : List (String × Doc)) :
    ∃ rs, ofPairs (ofTexts ps) = ofTexts rs ∧ (rs.map (·.1)).Nodup ∧ ∀ r ∈ rs, r ∈ ps := by
  obtain ⟨rs, hfold, hrs, hpairs⟩ := foldl_put ps [] List.nodup_nil
  exact ⟨rs, hfold, hrs, fun r hr => (hpairs r hr).resolve_left List.not_mem_nil⟩

theorem keyed_ofPairs (ps : List (String × Doc)) : Keyed (ofPairs (ofTexts ps)) := by
  obtain ⟨rs, h, hrs, _⟩ := ofPairs_ofTexts ps
  exact ⟨rs, hrs, h⟩

/-- Fields with every key once are what their pairs give. -/
theorem ofPairs_of_nodup {ps : List (String × Doc)} (h : (ps.map (·.1)).Nodup) :
    ofPairs (ofTexts ps) = ofTexts ps := by
  have all : ∀ qs : List (String × Doc), ((qs ++ ps).map (·.1)).Nodup →
      (ofTexts ps).foldl (fun o p => put p.1 p.2 o) (ofTexts qs) = ofTexts (qs ++ ps) := by
    clear h
    induction ps with
    | nil => simp [ofTexts]
    | cons p ps ih =>
      intro qs hqs
      have hp : p.1 ∉ qs.map (·.1) := by
        rw [List.map_append, List.map_cons] at hqs
        exact fun hmem => (List.nodup_append.1 hqs).2.2 _ hmem _ (List.mem_cons_self ..) rfl
      simp only [ofTexts_cons, List.foldl_cons, put_of_not_mem hp]
      rw [ih _ (by simpa using hqs), List.append_assoc, List.singleton_append]
  exact all [] (by simpa using h)

/-- Fields have as many entries as there are pairs just where no two pairs share a key. -/
theorem length_ofPairs_eq_iff {ps : List (String × Doc)} :
    (ofPairs (ofTexts ps)).length = ps.length ↔ (ps.map (·.1)).Nodup := by
  refine ⟨fun hlength => ?_, fun h => by rw [ofPairs_of_nodup h, ofTexts, List.length_map]⟩
  obtain ⟨rs, hrs, hkeys, hpairs⟩ := ofPairs_ofTexts ps
  rw [hrs, ofTexts, List.length_map] at hlength
  have hperm : (rs.map (·.1)).Perm (ps.map (·.1)) := by
    refine (List.subperm_of_subset hkeys (List.map_subset _ hpairs)).perm_of_length_le ?_
    rw [List.length_map, List.length_map]
    exact Nat.le_of_eq hlength.symm
  exact hperm.nodup_iff.1 hkeys

/-- Under a key stands the value of the last pair that has it. -/
theorem get?_ofPairs {before after : List (String × Doc)} {k : String} {v : Doc}
    (h : k ∉ after.map (·.1)) :
    get? k (ofPairs (ofTexts (before ++ (k, v) :: after))) = some v := by
  have hafter : ∀ o : Fields,
      get? k ((ofTexts after).foldl (fun o p => put p.1 p.2 o) o) = get? k o := by
    induction after with
    | nil => exact fun o => rfl
    | cons p after ih =>
      simp only [List.map_cons, List.mem_cons, not_or] at h
      exact fun o => (ih h.2 _).trans (get?_set_of_ne (Ne.symm h.1) p.2 o)
  unfold ofPairs
  rw [ofTexts, List.map_append, List.foldl_append, List.map_cons, List.foldl_cons]
  exact (hafter _).trans (get?_set_self k v _)

theorem get?_ofPairs_of_nodup {ps : List (String × Doc)} (h : (ps.map (·.1)).Nodup)
    {p : String × Doc} (hp : p ∈ ps) : get? p.1 (ofPairs (ofTexts ps)) = some p.2 := by
  obtain ⟨before, after, rfl⟩ := List.mem_iff_append.1 hp
  rw [List.map_append, List.map_cons] at h
  exact get?_ofPairs (List.nodup_cons.1 (List.nodup_append.1 h).2.1).1

end Fields

namespace Schema

theorem entries_ofTexts (ps : List (String × Doc)) : entries .ok (Fields.ofTexts ps) = .ok ps := by
  induction ps with
  | nil => rfl
  | cons p ps ih =>
    show List.cons <$> (Prod.mk <$> _ <*> _) <*> entries .ok (Fields.ofTexts ps) = _
    rw [ih]
    rfl

/-- A table with every text key once is read as it is. -/
theorem table_keyed {o : Fields} (h : o.Keyed) : table (.obj o) = .ok o := by
  obtain ⟨ps, hps, rfl⟩ := h
  show (entries .ok (Fields.ofTexts ps)).map _ = _
  rw [entries_ofTexts, Checked.map_ok]
  exact congrArg Checked.ok (Fields.ofPairs_of_nodup hps)

end Schema

/-! ## JSON documents -/

/-- A scalar of a kind that JSON has. -/
def Atom.IsJson : Atom → Prop
  | null | bool _ | int _ | num _ | str _ => True
  | day _ | moment _ | bytes _ | endless => False

/-- A document as JSON has it. -/
inductive Doc.IsJson : Doc → Prop
  | atom {a : Atom} (scalar : a.IsJson) : IsJson (.atom a)
  | list {xs : List Doc} (items : ∀ x ∈ xs, IsJson x) : IsJson (.list xs)
  | obj {ps : List (String × Doc)} (keys : (ps.map (·.1)).Nodup)
      (values : ∀ p ∈ ps, IsJson p.2) : IsJson (.obj (Fields.ofTexts ps))

namespace Doc

mutual

/-- Whether all numbers of a document are finite. -/
def finite : Doc → Bool
  | .atom (.num x) => x.isFinite
  | .atom _ => true
  | .list xs => finiteItems xs
  | .obj fs => finiteFields fs
  | .set xs => xs.all fun
    | .num x => x.isFinite
    | _ => true

/-- Whether all numbers of documents are finite. -/
def finiteItems : List Doc → Bool
  | [] => true
  | x :: r => finite x && finiteItems r

/-- Whether all numbers under the keys of a table are finite. -/
def finiteFields : List (Atom × Doc) → Bool
  | [] => true
  | (_, v) :: r => finite v && finiteFields r

end

theorem plainItems_eq_map (xs : List Doc) : plainItems xs = xs.map plain := by
  induction xs with
  | nil => rfl
  | cons x xs ih => simp only [plainItems, List.map_cons, ih]

theorem plainFields_ofTexts (ps : List (String × Doc)) :
    plainFields (Fields.ofTexts ps) = Fields.ofTexts (ps.map fun p => (p.1, plain p.2)) := by
  induction ps with
  | nil => rfl
  | cons p ps ih =>
    simp only [Fields.ofTexts_cons, plainFields, List.map_cons, ih]
    rfl

theorem plainFields_eq_ofTexts (fs : List (Atom × Doc)) :
    plainFields fs = Fields.ofTexts (fs.map fun f => (f.1.plainKey, plain f.2)) := by
  induction fs with
  | nil => rfl
  | cons f fs ih => simp only [plainFields, List.map_cons, Fields.ofTexts_cons, ih]

theorem finiteItems_iff (xs : List Doc) : finiteItems xs = true ↔ ∀ x ∈ xs, x.finite = true := by
  induction xs with
  | nil => simp [finiteItems]
  | cons x xs ih => simp [finiteItems, ih]

theorem finiteFields_ofTexts (ps : List (String × Doc)) :
    finiteFields (Fields.ofTexts ps) = true ↔ ∀ p ∈ ps, p.2.finite = true := by
  induction ps with
  | nil => simp [finiteFields, Fields.ofTexts]
  | cons p ps ih => simp [finiteFields, ih]

/-- The plain form of a table with every text key once has the same keys. -/
theorem plain_ofTexts {ps : List (String × Doc)} (h : (ps.map (·.1)).Nodup) :
    (Doc.obj (Fields.ofTexts ps)).plain
      = .obj (Fields.ofTexts (ps.map fun p => (p.1, plain p.2))) := by
  have hkeys : ((ps.map fun p => (p.1, plain p.2)).map (·.1)).Nodup := by
    simpa [List.map_map, Function.comp_def] using h
  simp only [plain, plainFields_ofTexts, Fields.ofPairs_of_nodup hkeys]

/-- A JSON document is its own plain form exactly where all of its numbers are
finite; a number that is not becomes `null`. -/
theorem IsJson.plain_eq_iff {d : Doc} (h : d.IsJson) : d.plain = d ↔ d.finite = true := by
  induction h with
  | atom scalar =>
    rename_i a
    cases a with
    | num x =>
      simp only [plain, Atom.plain, finite]
      split
      · rename_i hx
        simp [hx]
      · rename_i hx
        simp [hx]
    | null | bool _ | int _ | str _ => simp [plain, Atom.plain, finite]
    | day _ | moment _ | bytes _ | endless => cases scalar
  | list items ih =>
    rename_i xs
    simp only [plain, finite, plainItems_eq_map, Doc.list.injEq, map_eq_self_iff, finiteItems_iff]
    exact forall₂_congr ih
  | obj keys values ih =>
    rename_i ps
    rw [plain_ofTexts keys]
    simp only [finite, Doc.obj.injEq, Fields.ofTexts_inj, map_eq_self_iff,
      finiteFields_ofTexts]
    refine forall₂_congr fun p hp => ?_
    rw [← ih p hp]
    exact Prod.ext_iff.trans ⟨And.right, fun hv => ⟨rfl, hv⟩⟩

theorem IsJson.keyed {o : Fields} (h : (Doc.obj o).IsJson) : o.Keyed := by
  cases h with
  | obj keys values => exact ⟨_, keys, rfl⟩

theorem IsJson.items {xs : List Doc} (h : (Doc.list xs).IsJson) : ∀ x ∈ xs, x.IsJson := by
  cases h with
  | list items => exact items

/-- The value of a field of a JSON document is one. -/
theorem IsJson.get {o : Fields} (h : (Doc.obj o).IsJson) {k : String} {d : Doc}
    (hd : Fields.get? k o = some d) : d.IsJson := by
  cases h with
  | obj keys values =>
    rename_i ps
    clear keys
    induction ps with
    | nil => cases hd
    | cons p ps ih =>
      simp only [Fields.ofTexts_cons, Fields.get?_cons] at hd
      split at hd
      · cases hd
        exact values p (List.mem_cons_self ..)
      · exact ih (fun q hq => values q (List.mem_cons_of_mem _ hq)) hd

theorem isJson_empty : (Doc.obj []).IsJson :=
  @IsJson.obj [] List.nodup_nil nofun

/-- Pairs of text keys and JSON documents give a JSON document. -/
theorem isJson_ofPairs {ps : List (String × Doc)} (h : ∀ p ∈ ps, p.2.IsJson) :
    (Doc.obj (Fields.ofPairs (Fields.ofTexts ps))).IsJson := by
  obtain ⟨rs, hrs, hkeys, hpairs⟩ := Fields.ofPairs_ofTexts ps
  rw [hrs]
  exact .obj hkeys fun r hr => h r (hpairs r hr)

end Doc

/-! ## What the reader of JSON texts yields -/

namespace Json

theorem readScalar_isJson {cs r : List Char} {a : Atom} (h : readScalar cs = .ok (a, r)) :
    a.IsJson := by
  unfold readScalar at h
  split at h
  · rename_i name b hfind
    cases h
    have hmem := List.mem_of_find?_eq_some hfind
    simp only [names, List.mem_cons, Prod.mk.injEq, List.not_mem_nil, or_false] at hmem
    rcases hmem with ⟨-, rfl⟩ | ⟨-, rfl⟩ | ⟨-, rfl⟩ | ⟨-, rfl⟩ | ⟨-, rfl⟩ | ⟨-, rfl⟩ <;> trivial
  · unfold readNumber at h
    dsimp only at h
    repeat' split at h
    all_goals first
      | cases h; trivial
      | cases h

/-- With so much fuel every value, every list and every table that is read is a JSON document,
if what was read of it before is. -/
structure ReadsJson (fuel : Nat) : Prop where
  value : ∀ {cs r : List Char} {d : Doc}, readValue fuel cs = .ok (d, r) → d.IsJson
  items : ∀ {acc : List Doc} {cs r : List Char} {d : Doc}, (∀ x ∈ acc, x.IsJson) →
    readItems fuel acc cs = .ok (d, r) → d.IsJson
  fields : ∀ {acc : List (String × Doc)} {cs r : List Char} {d : Doc}, (∀ p ∈ acc, p.2.IsJson) →
    readFields fuel (Fields.ofTexts acc) cs = .ok (d, r) → d.IsJson

namespace ReadsJson

variable {fuel : Nat} {cs r : List Char} {d : Doc}

theorem readValue_succ (h : ReadsJson fuel) (read : readValue (fuel + 1) cs = .ok (d, r)) :
    d.IsJson := by
  unfold readValue at read
  split at read
  · obtain ⟨p, -, hp⟩ := map_eq_ok.1 read
    cases hp
    exact .atom trivial
  · split at read
    · cases read
      exact .list (by simp)
    · exact h.items (by simp) read
  · split at read
    · cases read
      exact Doc.isJson_empty
    · exact @fields _ h [] _ _ _ nofun read
  · obtain ⟨p, hp, hd⟩ := map_eq_ok.1 read
    cases hd
    exact .atom (readScalar_isJson hp)

theorem readItems_succ (h : ReadsJson fuel) {acc : List Doc} (hacc : ∀ x ∈ acc, x.IsJson)
    (read : readItems (fuel + 1) acc cs = .ok (d, r)) : d.IsJson := by
  unfold readItems at read
  obtain ⟨⟨v, r₁⟩, hv, read⟩ := bind_eq_ok.1 read
  have hacc' : ∀ x ∈ v :: acc, x.IsJson := List.forall_mem_cons.2 ⟨h.value hv, hacc⟩
  dsimp only at read
  split at read
  · cases read
    exact .list fun x hx => hacc' x (List.mem_reverse.1 hx)
  · exact h.items hacc' read
  · cases read

theorem readFields_succ (h : ReadsJson fuel) {acc : List (String × Doc)}
    (hacc : ∀ p ∈ acc, p.2.IsJson)
    (read : readFields (fuel + 1) (Fields.ofTexts acc) cs = .ok (d, r)) : d.IsJson := by
  unfold readFields at read
  split at read
  · obtain ⟨⟨k, r₁⟩, -, read⟩ := bind_eq_ok.1 read
    dsimp only at read
    split at read
    · obtain ⟨⟨v, r₂⟩, hv, read⟩ := bind_eq_ok.1 read
      have hacc' : ∀ p ∈ (k, v) :: acc, p.2.IsJson := List.forall_mem_cons.2 ⟨h.value hv, hacc⟩
      dsimp only at read
      split at read
      · cases read
        rw [← Fields.ofTexts_cons (k, v), ← Fields.ofTexts_reverse]
        exact Doc.isJson_ofPairs fun p hp => hacc' p (List.mem_reverse.1 hp)
      · exact h.fields hacc' read
      · cases read
    · cases read
  · cases read

end ReadsJson

theorem readsJson (fuel : Nat) : ReadsJson fuel := by
  induction fuel with
  | zero => exact ⟨nofun, fun _ => nofun, fun _ => nofun⟩
  | succ fuel ih => exact ⟨ih.readValue_succ, ih.readItems_succ, ih.readFields_succ⟩

/-- What a text is read as is a JSON document. -/
theorem read_isJson {s : String} {d : Doc} (h : read s = .ok d) : d.IsJson := by
  unfold read readChars at h
  split at h
  · cases h
  · obtain ⟨⟨v, r⟩, hv, h⟩ := bind_eq_ok.1 h
    dsimp only at h
    split at h
    · cases h
      exact (readsJson _).value hv
    · cases h

end Json

end Glasshouse
