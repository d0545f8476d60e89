/-
Glasshouse.Proofs.Condition.Details — the details of a verdict mirror the tree. There is
one for each node, parents before children and children in order, under the
child numbers that lead to the node. A node is listed as skipped where it or a
node above it stands behind the child that decided a group; the result of every
other group comes from those of its children. Main statement: `details_mirror`, for
every tree and every snapshot on which it gets a verdict.

How the proof goes. A group is put together from the branches of its children
(`mirrors_group`), given that its result comes from theirs (`Settles`). Judging and skipping
are followed by recursion on the tree (`judge_mirrors`, `skip_mirrors`); where judging stops
among children is `Decides`.
-/
import Glasshouse.Evaluation.Writer
import Glasshouse.Proofs.Store.Rows
import Mathlib.Data.List.Forall2

namespace Glasshouse

/-! ## Nodes and what is told about them -/

/-- The verdict on the node, none where it was skipped. -/
def Finding.result : Finding → Option Bool
  | group _ b => some b
  | leaf e => some e.result
  | skipped _ => none

/-- The kind of the node. -/
def Finding.kind : Finding → String
  | group .. => "group"
  | leaf e => e.kind
  | skipped k => k

/-- A detail of a tree that stands under a path in a larger one. -/
def Detail.below (path : List Nat) (d : Detail) : Detail := { d with path := path ++ d.path }

/-- Details tell that the verdict on the node at a path is `b`. -/
def Tells (ds : List Detail) (path : List Nat) (b : Bool) : Prop :=
  ∃ d ∈ ds, d.path = path ∧ d.finding.result = some b

/-! ## Details as documents -/

theorem Doc.field?_record_append {k : String} {xs : List (String × Doc)} (ys : List (String × Doc))
    (h : ∀ f ∈ xs, f.1 ≠ k) : (Doc.record (xs ++ ys)).field? k = (Doc.record ys).field? k := by
  induction xs with
  | nil => rfl
  | cons x xs ih =>
    obtain ⟨hx, hxs⟩ := List.forall_mem_cons.1 h
    refine Eq.trans ?_ (ih hxs)
    show (if (x.1 == k) = true then _ else _) = _
    rw [if_neg fun heq => hx (beq_iff_eq.1 heq)]
    rfl

/-- No field that a kind of leaf adds has the name of the result. -/
theorem Evidence.fields_ne_result (e : Evidence) : ∀ f ∈ e.fields, f.1 ≠ "result" := by
  have hof : ∀ {fs : List (String × Doc)}, "result" ∉ fs.map (·.1) → ∀ f ∈ fs, f.1 ≠ "result" :=
    fun h f hf heq => h (heq ▸ List.mem_map_of_mem hf)
  cases e with
  | sensor t found => rcases found with _ | ⟨r, age, fresh⟩ <;> exact hof (by simp [fields])
  | time t clock weekday =>
    cases hday : t.includesDay weekday <;> exact hof (by simp [fields, hday])
  | trend t values =>
    rcases hslope : Slope.ofValues? values with _ | x <;> exact hof (by simp [fields, hslope])
  | device t status | history t value | heartbeat t seen => exact hof (by simp [fields])

theorem Detail.field?_type (d : Detail) :
    d.toDoc.field? "type" = some (.str d.finding.kind) := by
  rcases d with ⟨path, op | e | k⟩ <;> rfl

theorem Detail.field?_result (d : Detail) :
    d.toDoc.field? "result" = some (.ofOption .bool d.finding.result) := by
  rcases d with ⟨path, op | e | k⟩
  · rfl
  · have hne : ∀ p ∈ ("type", Doc.str e.kind) :: e.fields, p.1 ≠ "result" :=
      List.forall_mem_cons.2 ⟨by simp, e.fields_ne_result⟩
    exact Doc.field?_record_append _ hne
  · rfl

/-- Child numbers can be read off the text of a path. -/
theorem pathText_injective : Function.Injective pathText := by
  have hsplit : ∀ r : List Nat, (pathText r).toList.splitOn '.'
      = "root".toList :: r.map (Nat.toDigits 10) := by
    intro r
    have hchars : (pathText r).toList
        = ['.'].intercalate ("root".toList :: r.map (Nat.toDigits 10)) := by
      unfold pathText
      rw [String.toList_intercalate, List.map_cons, List.map_map]
      congr 2
      exact List.map_congr_left fun n _ => Nat.toList_repr
    rw [hchars]
    refine List.splitOn_intercalate '.' (List.forall_mem_cons.2 ⟨by decide, fun l hl => ?_⟩)
      (List.cons_ne_nil _ _)
    obtain ⟨n, -, rfl⟩ := List.mem_map.1 hl
    exact fun h => absurd (Nat.isDigit_of_mem_toDigits (by omega) (by omega) h) (by decide)
  intro p q h
  have hpq := (hsplit p).symm.trans ((congrArg (fun t => t.toList.splitOn '.') h).trans (hsplit q))
  have hdigits : Function.Injective (Nat.toDigits 10) := fun m n h => by
    rw [← Nat.ofDigitChars_ten_toDigits (n := m), h, Nat.ofDigitChars_ten_toDigits]
  exact hdigits.list_map (List.cons.inj hpq).2

namespace Condition

/-- The children of a node. -/
def children : Condition → List Condition
  | all cs | any cs => cs
  | negation c => [c]
  | leaf _ => []

/-- The node that child numbers lead to. -/
def node? (c : Condition) : List Nat → Option Condition
  | [] => some c
  | i :: p => (c.children[i]?).bind (·.node? p)

/-- The verdict on a child behind which a group looks at no others. -/
def stop? : Condition → Option Bool
  | all _ => some false
  | any _ => some true
  | _ => none

/-- The verdict `b` on a group comes from those that `tells` knows of its children. -/
def Combines (tells : Nat → Bool → Prop) : Condition → Bool → Prop
  | all cs, b => b = true ∧ (∀ i < cs.length, tells i true) ∨
      b = false ∧ ∃ i < cs.length, tells i false
  | any cs, b => b = false ∧ (∀ i < cs.length, tells i false) ∨
      b = true ∧ ∃ i < cs.length, tells i true
  | negation _, b => tells 0 !b
  | leaf _, _ => True

/-- The node at a path, or one above it, is a child of a group behind another child on
which the verdict is the one that decides the group. -/
def Passed (c : Condition) (ds : List Detail) (path : List Nat) : Prop :=
  ∃ q i r, path = q ++ i :: r ∧ ∃ n stop, c.node? q = some n ∧ n.stop? = some stop ∧
    ∃ j < i, Tells ds (q ++ [j]) stop

/-- Details that mirror a tree on which the verdict is `r`, none where the whole of it is
skipped. -/
structure Reflects (c : Condition) (r : Option Bool) (ds : List Detail) : Prop where
  /-- Parents stand before their children, and what is below a child before the next
  child: the order is that of the paths as words. -/
  ordered : ds.Pairwise fun d e => d.path < e.path
  /-- There is a detail for each node, and for nothing else. -/
  nodes : ∀ p, (∃ d ∈ ds, d.path = p) ↔ (c.node? p).isSome
  kinds : ∀ d ∈ ds, ∀ n, c.node? d.path = some n → d.finding.kind = n.kind
  skipped : ∀ d ∈ ds, d.finding.result = none ↔ r = none ∨ c.Passed ds d.path
  groups : ∀ p n b, c.node? p = some n → Tells ds p b → n.Combines (fun i => Tells ds (p ++ [i])) b
  first : ∃ f rest, ds = ⟨[], f⟩ :: rest ∧ f.result = r

theorem node?_cons (c : Condition) (i : Nat) (p : List Nat) :
    c.node? (i :: p) = (c.children[i]?).bind (·.node? p) := rfl

theorem Combines.imp {tells tells' : Nat → Bool → Prop} {n : Condition} {b : Bool}
    (h : n.Combines tells b) (himp : ∀ i v, tells i v → tells' i v) : n.Combines tells' b := by
  cases n with
  | all cs =>
    exact Or.imp (And.imp_right fun h i hi => himp i _ (h i hi))
      (And.imp_right fun ⟨i, hi, h⟩ => ⟨i, hi, himp i _ h⟩) h
  | any cs =>
    exact Or.imp (And.imp_right fun h i hi => himp i _ (h i hi))
      (And.imp_right fun ⟨i, hi, h⟩ => ⟨i, hi, himp i _ h⟩) h
  | negation c => exact himp 0 _ h
  | leaf l => trivial

/-- What is passed below a child is passed by its own group or in the child. -/
theorem passed_cons {c : Condition} {ds : List Detail} {i : Nat} {p : List Nat} :
    c.Passed ds (i :: p) ↔ (∃ stop, c.stop? = some stop ∧ ∃ j < i, Tells ds [j] stop) ∨
      ∃ n, c.children[i]? = some n ∧ ∃ q k r, p = q ++ k :: r ∧ ∃ m stop, n.node? q = some m ∧
        m.stop? = some stop ∧ ∃ j < k, Tells ds (i :: (q ++ [j])) stop := by
  constructor
  · rintro ⟨q, k, r, hp, m, stop, hm, hstop, j, hj, htells⟩
    cases q with
    | nil =>
      cases hp
      cases hm
      exact .inl ⟨stop, hstop, j, hj, htells⟩
    | cons _ q =>
      cases hp
      rw [node?_cons] at hm
      obtain ⟨n, hn, hm⟩ := Option.bind_eq_some_iff.1 hm
      exact .inr ⟨n, hn, q, k, r, rfl, m, stop, hm, hstop, j, hj, htells⟩
  · rintro (⟨stop, hstop, j, hj, htells⟩ | ⟨n, hn, q, k, r, rfl, m, stop, hm, hstop, j, hj, htells⟩)
    · exact ⟨[], i, p, rfl, c, stop, rfl, hstop, j, hj, htells⟩
    · refine ⟨i :: q, k, r, rfl, m, stop, ?_, hstop, j, hj, htells⟩
      rw [node?_cons, hn]
      exact hm

theorem not_passed_nil {c : Condition} {ds : List Detail} : ¬ c.Passed ds [] := by
  rintro ⟨q, i, r, hp, -⟩
  exact absurd (congrArg List.length hp) (by simp)

/-- The first detail alone is about the root. -/
theorem Reflects.tells_nil {c : Condition} {r : Option Bool} {ds : List Detail} (h : c.Reflects r ds)
    (b : Bool) : Tells ds [] b ↔ r = some b := by
  obtain ⟨f, rest, rfl, rfl⟩ := h.first
  constructor
  · rintro ⟨d, hd, hpath, hresult⟩
    rcases List.mem_cons.1 hd with rfl | hd
    · exact hresult
    · have hlt := (List.pairwise_cons.1 h.ordered).1 d hd
      rw [hpath] at hlt
      exact absurd hlt (List.lt_irrefl _)
  · exact fun hb => ⟨_, List.mem_cons_self, rfl, hb⟩

/-! ## From the children to a group -/

/-- The verdict on a child and its details, the child being the root. -/
structure Branch where
  result : Option Bool
  details : List Detail

/-- The details of children, the first of which has the number `i`. -/
def spread : Nat → List Branch → List Detail
  | _, [] => []
  | i, b :: r => b.details.map (.below [i]) ++ spread (i + 1) r

theorem mem_spread {d : Detail} {i : Nat} {bs : List Branch} :
    d ∈ spread i bs ↔
      ∃ j, ∃ b : Branch, bs[j]? = some b ∧ ∃ e ∈ b.details, e.below [i + j] = d := by
  induction bs generalizing i with
  | nil => simp [spread]
  | cons b r ih =>
    simp only [spread, List.mem_append, List.mem_map, ih]
    constructor
    · rintro (⟨e, he, rfl⟩ | ⟨j, b', hb', e, he, rfl⟩)
      · exact ⟨0, b, rfl, e, he, rfl⟩
      · exact ⟨j + 1, b', hb', e, he, by rw [Nat.add_right_comm, Nat.add_assoc]⟩
    · rintro ⟨j, b', hb', e, he, rfl⟩
      cases j with
      | zero =>
        cases hb'
        exact .inl ⟨e, he, rfl⟩
      | succ j => exact .inr ⟨j, b', hb', e, he, by rw [Nat.add_right_comm, Nat.add_assoc]⟩

theorem spread_ordered {i : Nat} {bs : List Branch}
    (h : ∀ b ∈ bs, b.details.Pairwise fun d e => d.path < e.path) :
    (spread i bs).Pairwise fun d e => d.path < e.path := by
  induction bs generalizing i with
  | nil => exact .nil
  | cons b r ih =>
    refine List.pairwise_append.2 ⟨?_, ih fun b hb => h b (List.mem_cons_of_mem _ hb), ?_⟩
    · refine List.pairwise_map.2 ((h b List.mem_cons_self).imp fun {d e} hlt => ?_)
      exact List.cons_lt_cons_self.2 hlt
    · intro d hd e he
      obtain ⟨d, -, rfl⟩ := List.mem_map.1 hd
      obtain ⟨j, b', -, e, -, rfl⟩ := mem_spread.1 he
      exact List.cons_lt_cons_iff.2 (.inl (by omega))

/-- What is told about the nodes below the child with the number `i`. -/
theorem tells_group {f : Finding} {bs : List Branch} {i : Nat} {p : List Nat}
    {v : Bool} : Tells (⟨[], f⟩ :: spread 0 bs) (i :: p) v ↔
      ∃ b : Branch, bs[i]? = some b ∧ Tells b.details p v := by
  constructor
  · rintro ⟨d, hd, hpath, hresult⟩
    rcases List.mem_cons.1 hd with rfl | hd
    · cases hpath
    · obtain ⟨j, b, hb, e, he, rfl⟩ := mem_spread.1 hd
      rw [Nat.zero_add] at hpath
      cases hpath
      exact ⟨b, hb, e, he, rfl, hresult⟩
  · rintro ⟨b, hb, e, he, rfl, hresult⟩
    exact ⟨e.below [0 + i], List.mem_cons_of_mem _ (mem_spread.2 ⟨i, b, hb, e, he, rfl⟩),
      by rw [Nat.zero_add]; rfl, hresult⟩

/-- The verdicts on children fit the one on their group. -/
structure Settles (c : Condition) (r : Option Bool) (rs : List (Option Bool)) : Prop where
  unjudged : r = none → ∀ v ∈ rs, v = none
  judged : r ≠ none → ∀ (i : Nat) (v : Option Bool), rs[i]? = some v → (v = none ↔
    ∃ stop, c.stop? = some stop ∧ ∃ j < i, rs[j]? = some (some stop))
  combines : ∀ v, r = some v → c.Combines (fun i v => rs[i]? = some (some v)) v

theorem forall₂_getElem? {α β : Type} {R : α → β → Prop} {as : List α} {bs : List β}
    (h : List.Forall₂ R as bs) (i : Nat) : Option.Rel R as[i]? bs[i]? := by
  induction h generalizing i with
  | nil => exact .none
  | cons hr _ ih =>
    cases i with
    | zero => exact .some hr
    | succ i => exact ih i

section Group

variable {c : Condition} {f : Finding} {bs : List Branch}
  (children : List.Forall₂ (fun c b => Reflects c b.result b.details) c.children bs)

include children

theorem child_of_branch {i : Nat} {b : Branch} (hb : bs[i]? = some b) :
    ∃ n : Condition, c.children[i]? = some n ∧ n.Reflects b.result b.details := by
  have hrel := forall₂_getElem? children i
  rw [hb] at hrel
  rcases hn : c.children[i]? with _ | n <;> rw [hn] at hrel <;> cases hrel
  exact ⟨n, rfl, ‹_›⟩

theorem branch_of_child {i : Nat} {n : Condition} (hn : c.children[i]? = some n) :
    ∃ b : Branch, bs[i]? = some b ∧ n.Reflects b.result b.details := by
  have hrel := forall₂_getElem? children i
  rw [hn] at hrel
  rcases hb : bs[i]? with _ | b <;> rw [hb] at hrel <;> cases hrel
  exact ⟨b, rfl, ‹_›⟩

/-- What the details of a group tell about a child is the verdict on it. -/
theorem tells_child (i : Nat) (v : Bool) : Tells (⟨[], f⟩ :: spread 0 bs) [i] v ↔
    (bs.map Branch.result)[i]? = some (some v) := by
  rw [tells_group, List.getElem?_map, Option.map_eq_some_iff]
  refine exists_congr fun b => and_congr_right fun hb => ?_
  obtain ⟨n, -, hn⟩ := child_of_branch children hb
  exact hn.tells_nil v

theorem group_ordered : (⟨[], f⟩ :: spread 0 bs).Pairwise fun d e : Detail => d.path < e.path := by
  refine List.pairwise_cons.2 ⟨fun d hd => ?_, spread_ordered fun b hb => ?_⟩
  · obtain ⟨j, b, -, e, -, rfl⟩ := mem_spread.1 hd
    exact List.nil_lt_cons _ _
  · obtain ⟨i, hi⟩ := List.mem_iff_getElem?.1 hb
    obtain ⟨n, -, hn⟩ := child_of_branch children hi
    exact hn.ordered

theorem group_nodes (p : List Nat) :
    (∃ d ∈ (⟨[], f⟩ :: spread 0 bs : List Detail), d.path = p) ↔ (c.node? p).isSome := by
  cases p with
  | nil => exact iff_of_true ⟨_, List.mem_cons_self, rfl⟩ rfl
  | cons i p =>
    rw [node?_cons]
    constructor
    · rintro ⟨d, hd, hpath⟩
      rcases List.mem_cons.1 hd with rfl | hd
      · cases hpath
      · obtain ⟨j, b, hb, e, he, rfl⟩ := mem_spread.1 hd
        rw [Nat.zero_add] at hpath
        cases hpath
        obtain ⟨n, hn, hm⟩ := child_of_branch children hb
        rw [hn]
        exact (hm.nodes _).1 ⟨e, he, rfl⟩
    · intro h
      rcases hn : c.children[i]? with _ | n
      · rw [hn] at h
        cases h
      · rw [hn] at h
        obtain ⟨b, hb, hm⟩ := branch_of_child children hn
        obtain ⟨e, he, rfl⟩ := (hm.nodes p).2 h
        exact ⟨_, List.mem_cons_of_mem _ (mem_spread.2 ⟨i, b, hb, e, he, rfl⟩),
          by rw [Nat.zero_add]; rfl⟩

theorem group_kinds (kind : f.kind = c.kind) {d : Detail} (hd : d ∈ ⟨[], f⟩ :: spread 0 bs)
    {n : Condition} (hn : c.node? d.path = some n) : d.finding.kind = n.kind := by
  rcases List.mem_cons.1 hd with rfl | hd
  · cases hn
    exact kind
  · obtain ⟨j, b, hb, e, he, rfl⟩ := mem_spread.1 hd
    obtain ⟨m, hm, hmirrors⟩ := child_of_branch children hb
    rw [Nat.zero_add] at hn
    change (c.children[j]?).bind _ = _ at hn
    rw [hm] at hn
    exact hmirrors.kinds e he n hn

theorem group_skipped (settles : c.Settles f.result (bs.map Branch.result)) {d : Detail}
    (hd : d ∈ ⟨[], f⟩ :: spread 0 bs) :
    d.finding.result = none ↔ f.result = none ∨ c.Passed (⟨[], f⟩ :: spread 0 bs) d.path := by
  rcases List.mem_cons.1 hd with rfl | hd
  · exact (or_iff_left not_passed_nil).symm
  · obtain ⟨j, b, hb, e, he, rfl⟩ := mem_spread.1 hd
    obtain ⟨n, hn, hmirrors⟩ := child_of_branch children hb
    have hresult : (bs.map Branch.result)[j]? = some b.result := by
      rw [List.getElem?_map, hb]
      rfl
    rw [Nat.zero_add]
    show e.finding.result = none ↔ _ ∨ c.Passed _ (j :: e.path)
    rw [hmirrors.skipped e he, passed_cons]
    -- a child is passed in its own group, or its details tell what is passed in it
    have hinner : (∃ m, c.children[j]? = some m ∧ ∃ q k r, e.path = q ++ k :: r ∧ ∃ l stop,
        m.node? q = some l ∧ l.stop? = some stop ∧
          ∃ i < k, Tells (⟨[], f⟩ :: spread 0 bs) (j :: (q ++ [i])) stop) ↔
        n.Passed b.details e.path := by
      simp only [hn, Option.some.injEq, exists_eq_left', tells_group, hb, Passed]
    rw [hinner]
    simp only [tells_child children]
    cases hr : f.result with
    | none =>
      have hnone := settles.unjudged hr b.result (List.mem_of_getElem? hresult)
      exact iff_of_true (.inl hnone) (.inl rfl)
    | some v =>
      rw [settles.judged (by rw [hr]; exact Option.some_ne_none v) j b.result hresult]
      exact (or_iff_right (Option.some_ne_none v)).symm

theorem group_groups (settles : c.Settles f.result (bs.map Branch.result)) {p : List Nat}
    {n : Condition} {v : Bool} (hn : c.node? p = some n)
    (hv : Tells (⟨[], f⟩ :: spread 0 bs) p v) :
    n.Combines (fun i => Tells (⟨[], f⟩ :: spread 0 bs) (p ++ [i])) v := by
  cases p with
  | nil =>
    cases hn
    have hresult : f.result = some v := by
      obtain ⟨d, hd, hpath, hresult⟩ := hv
      rcases List.mem_cons.1 hd with rfl | hd
      · exact hresult
      · obtain ⟨j, b, -, e, -, rfl⟩ := mem_spread.1 hd
        cases hpath
    exact (settles.combines v hresult).imp fun i w hw => (tells_child children i w).2 hw
  | cons i p =>
    rw [node?_cons] at hn
    obtain ⟨m, hm, hn⟩ := Option.bind_eq_some_iff.1 hn
    obtain ⟨b, hb, hmirrors⟩ := branch_of_child children hm
    obtain ⟨b', hb', hv⟩ := tells_group.1 hv
    cases hb.symm.trans hb'
    exact (hmirrors.groups p n v hn hv).imp fun k w hw => tells_group.2 ⟨b, hb, hw⟩

/-- The details of a group from those of its children. -/
theorem mirrors_group (kind : f.kind = c.kind)
    (settles : c.Settles f.result (bs.map Branch.result)) :
    c.Reflects f.result (⟨[], f⟩ :: spread 0 bs) where
  ordered := group_ordered children
  nodes := group_nodes children
  kinds _ hd _ hn := group_kinds children kind hd hn
  skipped _ hd := group_skipped children settles hd
  groups _ _ _ hn hv := group_groups children settles hn hv
  first := ⟨f, _, rfl, rfl⟩

end Group

/-! ## Trees that are skipped -/

theorem settles_none (c : Condition) {rs : List (Option Bool)} (h : ∀ v ∈ rs, v = none) :
    c.Settles none rs where
  unjudged _ := h
  judged := absurd rfl
  combines _ h := nomatch h

theorem map_below_cons (p : List Nat) (f : Finding) (ds : List Detail) :
    (⟨[], f⟩ :: ds).map (Detail.below p) = ⟨p, f⟩ :: ds.map (Detail.below p) := by
  rw [List.map_cons, show Detail.below p ⟨[], f⟩ = ⟨p, f⟩ by simp [Detail.below]]

theorem map_below_spread (p : List Nat) (i : Nat) (b : Branch) (bs : List Branch) :
    (spread i (b :: bs)).map (Detail.below p)
      = b.details.map (Detail.below (p ++ [i])) ++ (spread (i + 1) bs).map (Detail.below p) := by
  simp only [spread, List.map_append, List.map_map]
  congr 1
  refine List.map_congr_left fun d _ => ?_
  simp [Detail.below]

mutual

theorem skip_mirrors (path : List Nat) : (c : Condition) →
    ∃ ds, c.skip path = ds.map (.below path) ∧ c.Reflects none ds
  | all cs => by
    obtain ⟨bs, hds, hbs, hnone⟩ := skipFrom_mirrors path 0 cs
    exact ⟨⟨[], .skipped "group"⟩ :: spread 0 bs, by rw [map_below_cons, ← hds]; rfl,
      mirrors_group (f := .skipped "group") hbs rfl (settles_none _ hnone)⟩
  | any cs => by
    obtain ⟨bs, hds, hbs, hnone⟩ := skipFrom_mirrors path 0 cs
    exact ⟨⟨[], .skipped "group"⟩ :: spread 0 bs, by rw [map_below_cons, ← hds]; rfl,
      mirrors_group (f := .skipped "group") hbs rfl (settles_none _ hnone)⟩
  | negation c => by
    obtain ⟨ds, hds, hc⟩ := skip_mirrors (path ++ [0]) c
    refine ⟨⟨[], .skipped "group"⟩ :: spread 0 [⟨none, ds⟩], ?_,
      mirrors_group (f := .skipped "group") (.cons hc .nil) rfl (settles_none _ (by simp))⟩
    rw [map_below_cons, map_below_spread, ← hds]
    simp [skip, spread]
  | leaf l => ⟨[⟨[], .skipped l.kind⟩], by rw [map_below_cons]; rfl,
      mirrors_group (c := .leaf l) (f := .skipped l.kind) List.Forall₂.nil rfl
        (settles_none _ (by simp))⟩

theorem skipFrom_mirrors (path : List Nat) (i : Nat) : (cs : List Condition) →
    ∃ bs, skipFrom path i cs = (spread i bs).map (.below path) ∧
      List.Forall₂ (fun c b => Reflects c b.result b.details) cs bs ∧
      ∀ v ∈ bs.map Branch.result, v = none
  | [] => ⟨[], rfl, .nil, by simp⟩
  | c :: r => by
    obtain ⟨ds, hds, hc⟩ := skip_mirrors (path ++ [i]) c
    obtain ⟨bs, hr, hbs, hnone⟩ := skipFrom_mirrors path (i + 1) r
    refine ⟨⟨none, ds⟩ :: bs, ?_, .cons hc hbs, List.forall_mem_cons.2 ⟨rfl, hnone⟩⟩
    rw [map_below_spread, ← hds, ← hr]
    rfl

end

/-! ## Trees that are judged -/

/-- The verdicts on the children of a group that looks no further than one on which it is
`stop`, and the verdict that they make. -/
inductive Decides (stop : Bool) : List (Option Bool) → Bool → Prop
  | ends : Decides stop [] !stop
  | stops {rs : List (Option Bool)} (passed : ∀ v ∈ rs, v = none) :
    Decides stop (some stop :: rs) stop
  | goesOn {rs : List (Option Bool)} {b : Bool} (rest : Decides stop rs b) :
    Decides stop (some (!stop) :: rs) b

theorem Decides.judged {stop b : Bool} {rs : List (Option Bool)} (h : Decides stop rs b) {i : Nat}
    {v : Option Bool} (hv : rs[i]? = some v) :
    v = none ↔ ∃ j < i, rs[j]? = some (some stop) := by
  induction h generalizing i with
  | ends => cases hv
  | stops passed =>
    cases i with
    | zero =>
      cases hv
      exact iff_of_false (Option.some_ne_none _) fun ⟨j, hj, _⟩ => absurd hj (Nat.not_lt_zero j)
    | succ i => exact iff_of_true (passed v (List.mem_of_getElem? hv)) ⟨0, Nat.succ_pos i, rfl⟩
  | goesOn rest ih =>
    cases i with
    | zero =>
      cases hv
      exact iff_of_false (Option.some_ne_none _) fun ⟨j, hj, _⟩ => absurd hj (Nat.not_lt_zero j)
    | succ i =>
      rw [ih hv]
      constructor
      · exact fun ⟨j, hj, hstop⟩ => ⟨j + 1, Nat.succ_lt_succ hj, hstop⟩
      · rintro ⟨j, hj, hstop⟩
        cases j with
        | zero => exact absurd (Option.some.inj (Option.some.inj hstop)) (by simp)
        | succ j => exact ⟨j, Nat.lt_of_succ_lt_succ hj, hstop⟩

theorem Decides.combines {stop b : Bool} {rs : List (Option Bool)} (h : Decides stop rs b) :
    b = (!stop) ∧ (∀ i < rs.length, rs[i]? = some (some !stop)) ∨
      b = stop ∧ ∃ i < rs.length, rs[i]? = some (some stop) := by
  induction h with
  | ends => exact .inl ⟨rfl, fun i hi => absurd hi (Nat.not_lt_zero i)⟩
  | stops passed => exact .inr ⟨rfl, 0, Nat.succ_pos _, rfl⟩
  | goesOn rest ih =>
    rcases ih with ⟨hb, hall⟩ | ⟨hb, i, hi, hstop⟩
    · refine .inl ⟨hb, fun i hi => ?_⟩
      cases i with
      | zero => rfl
      | succ i => exact hall i (Nat.lt_of_succ_lt_succ hi)
    · exact .inr ⟨hb, i + 1, Nat.succ_lt_succ hi, hstop⟩

/-- Verdicts of children looked at one after the other fit the one they make. -/
theorem Decides.settles {stop b : Bool} {rs : List (Option Bool)} (h : Decides stop rs b)
    {c : Condition} (hstop : c.stop? = some stop)
    (combines : b = (!stop) ∧ (∀ i < rs.length, rs[i]? = some (some !stop)) ∨
      b = stop ∧ (∃ i < rs.length, rs[i]? = some (some stop)) →
        c.Combines (fun i v => rs[i]? = some (some v)) b) :
    c.Settles (some b) rs where
  unjudged h := nomatch h
  judged _ i v hv := by
    rw [h.judged hv, hstop]
    simp
  combines v hv := by
    cases hv
    exact combines h.combines

theorem settles_negation (c : Condition) (v : Bool) :
    (negation c).Settles (some !v) [some v] where
  unjudged h := nomatch h
  judged _ i w hw := by
    cases i with
    | zero =>
      cases hw
      exact iff_of_false (Option.some_ne_none v) fun ⟨_, h, _⟩ => by cases h
    | succ i => cases hw
  combines w hw := by
    cases hw
    show some (some v) = some (some !!v)
    rw [Bool.not_not]

theorem settles_leaf (l : Leaf) (v : Bool) : (leaf l).Settles (some v) [] where
  unjudged h := nomatch h
  judged _ i w hw := by cases hw
  combines _ _ := trivial

theorem kind_of_examine {now clock : Calendar.Moment} {ask : (q : Query) → q.Answer} {l : Leaf}
    {x : Evidence} (h : l.examine now clock ask = .ok x) : x.kind = l.kind := by
  cases l with
  | sensor t =>
    rw [Leaf.examine] at h
    split at h
    · cases h
      rfl
    · obtain ⟨age, -, h⟩ := bind_eq_ok.1 h
      obtain ⟨limit, -, h⟩ := bind_eq_ok.1 h
      cases h
      rfl
  | heartbeat t =>
    rw [Leaf.examine] at h
    split at h
    · cases h
      rfl
    · obtain ⟨silence, -, h⟩ := bind_eq_ok.1 h
      obtain ⟨limit, -, h⟩ := bind_eq_ok.1 h
      cases h
      rfl
  | device t | time t | history t | trend t =>
    cases h
    rfl

mutual

theorem judge_mirrors (now clock : Calendar.Moment) (ask : (q : Query) → q.Answer)
    (path : List Nat) : (c : Condition) → {e : Evaluation} → c.judge now clock ask path = .ok e →
    ∃ ds, e.details = ds.map (.below path) ∧ c.Reflects (some e.result) ds
  | all cs, e, h => by
    rw [judge] at h
    obtain ⟨e', he', h⟩ := bind_eq_ok.1 h
    cases h
    obtain ⟨bs, hds, hbs, hdecides⟩ := judgeFrom_mirrors now clock ask path 0 false cs he'
    have hlength : cs.length = (bs.map Branch.result).length := by
      rw [List.length_map, hbs.length_eq]
    refine ⟨⟨[], .group .and e'.result⟩ :: spread 0 bs, by rw [map_below_cons, ← hds],
      mirrors_group (f := .group .and e'.result) hbs rfl (hdecides.settles rfl fun h => ?_)⟩
    rw [← hlength] at h
    exact h
  | any cs, e, h => by
    rw [judge] at h
    obtain ⟨e', he', h⟩ := bind_eq_ok.1 h
    cases h
    obtain ⟨bs, hds, hbs, hdecides⟩ := judgeFrom_mirrors now clock ask path 0 true cs he'
    have hlength : cs.length = (bs.map Branch.result).length := by
      rw [List.length_map, hbs.length_eq]
    refine ⟨⟨[], .group .or e'.result⟩ :: spread 0 bs, by rw [map_below_cons, ← hds],
      mirrors_group (f := .group .or e'.result) hbs rfl (hdecides.settles rfl fun h => ?_)⟩
    rw [← hlength] at h
    exact h
  | negation c, e, h => by
    rw [judge] at h
    obtain ⟨e', he', h⟩ := bind_eq_ok.1 h
    cases h
    obtain ⟨ds, hds, hc⟩ := judge_mirrors now clock ask (path ++ [0]) c he'
    refine ⟨⟨[], .group .not (!e'.result)⟩ :: spread 0 [⟨some e'.result, ds⟩], ?_,
      mirrors_group (f := .group .not (!e'.result)) (.cons hc .nil) rfl
        (settles_negation c e'.result)⟩
    rw [map_below_cons, map_below_spread, ← hds]
    simp [spread]
  | leaf l, e, h => by
    rw [judge] at h
    obtain ⟨x, hx, h⟩ := bind_eq_ok.1 h
    cases h
    exact ⟨[⟨[], .leaf x⟩], by rw [map_below_cons]; rfl,
      mirrors_group (c := .leaf l) (f := .leaf x) List.Forall₂.nil (kind_of_examine hx)
        (settles_leaf l x.result)⟩

theorem judgeFrom_mirrors (now clock : Calendar.Moment) (ask : (q : Query) → q.Answer)
    (path : List Nat) (i : Nat) (stop : Bool) : (cs : List Condition) → {e : Evaluation} →
    judgeFrom now clock ask path i stop cs = .ok e →
    ∃ bs, e.details = (spread i bs).map (.below path) ∧
      List.Forall₂ (fun c b => Reflects c b.result b.details) cs bs ∧
      Decides stop (bs.map Branch.result) e.result
  | [], e, h => by
    cases h
    exact ⟨[], rfl, .nil, .ends⟩
  | c :: r, e, h => by
    cases he' : c.judge now clock ask (path ++ [i]) with
    | error f =>
      rw [judgeFrom_fails he' r] at h
      cases h
    | ok e' =>
      obtain ⟨ds, hds, hc⟩ := judge_mirrors now clock ask (path ++ [i]) c he'
      by_cases hstop : e'.result = stop
      · rw [judgeFrom_stops he' hstop r] at h
        cases h
        obtain ⟨bs, hr, hbs, hnone⟩ := skipFrom_mirrors path (i + 1) r
        refine ⟨⟨some e'.result, ds⟩ :: bs, ?_, .cons hc hbs, ?_⟩
        · rw [map_below_spread, ← hds, ← hr]
        · rw [List.map_cons, hstop]
          exact .stops hnone
      · rw [judgeFrom_goesOn he' hstop r] at h
        obtain ⟨rest, hrest, rfl⟩ := map_eq_ok.1 h
        obtain ⟨bs, hr, hbs, hdecides⟩ := judgeFrom_mirrors now clock ask path (i + 1) stop r hrest
        refine ⟨⟨some e'.result, ds⟩ :: bs, ?_, .cons hc hbs, ?_⟩
        · rw [map_below_spread, ← hds, ← hr]
        · rw [List.map_cons, Bool.eq_not.2 hstop]
          exact .goesOn hdecides

end

/-- **The details mirror the tree.** Where a tree gets a verdict, its details are one for each
node, in the order in which the nodes stand in the tree, under paths that differ. A detail is
skipped exactly where the node or one above it stands behind the child that decided its group,
any other group has the verdict that those on its children make, and the first detail has the
verdict on the tree. -/
theorem details_mirror {c : Condition} {s : Snapshot} {e : Evaluation} (h : c.evaluate s = .ok e) :
    c.Reflects (some e.result) e.details ∧ (e.details.map fun d => pathText d.path).Nodup ∧
      ∀ d ∈ e.details, d.toDoc.field? "path" = some (.str (pathText d.path)) ∧
        d.toDoc.field? "type" = some (.str d.finding.kind) ∧
        d.toDoc.field? "result" = some (.ofOption .bool d.finding.result) := by
  obtain ⟨ds, hds, hmirrors⟩ := judge_mirrors _ _ _ _ c h
  have hbelow : e.details = ds := by
    rw [hds]
    exact (List.map_congr_left fun d _ => rfl).trans (List.map_id ds)
  rw [hbelow]
  refine ⟨hmirrors, ?_, fun d _ => ⟨rfl, d.field?_type, d.field?_result⟩⟩
  rw [List.Nodup, List.pairwise_map]
  exact hmirrors.ordered.imp fun {d e} hlt heq =>
    absurd (pathText_injective heq ▸ hlt) (List.lt_irrefl _)

/-- A device has the status `on`. -/
def running (device : String) : Condition := leaf (.device ⟨device, "on"⟩)

/-- A tree in which two groups can be decided before their last child. -/
def hasty : Condition :=
  any [all [running "fan", running "pump", running "lamp"], running "fan",
    negation (running "lamp")]

end Condition

/-- A fan that runs and a pump that does not. -/
def Snapshot.breeze (now : Calendar.Moment) : Snapshot :=
  ⟨now, now, [⟨.device "fan", some "on"⟩, ⟨.device "pump", some "off"⟩]⟩

/-- The lamp is not looked at, neither where the pump has decided nor where the fan has. -/
theorem details_mirror_hasty : ∃ e, Condition.hasty.evaluate (.breeze (.ofInstant 0)) = .ok e ∧
    Condition.hasty.Reflects (some e.result) e.details ∧
    e.details.map (fun d => (pathText d.path, d.finding.result)) = [("root", some true),
      ("root.0", some false), ("root.0.0", some true), ("root.0.1", some false),
      ("root.0.2", none), ("root.1", some true), ("root.2", none), ("root.2.0", none)] := by
  have hrun : Condition.hasty.evaluate (.breeze (.ofInstant 0)) = .ok _ := rfl
  exact ⟨_, hrun, (Condition.details_mirror hrun).1, by decide⟩

end Glasshouse
