/-
Glasshouse.Proofs.Condition.Nodes — the nodes that a document writes and the nodes that
are read from it. A node stands at the root, in a bare list, and in the list
under `rules` or `children` of a group; a group that has both counts the former
only and overlooks the latter. What is counted is read node by node, in order;
all that is written is read exactly where nothing is overlooked. Main
statement: `Condition.parse_keeps_nodes`.

How the proof goes. `nodes_of_read` follows the reader, one case for a leaf, a bare list and a
group. That nothing is overlooked is an equality of two lists of which one is part of the
other (`nodes_eq_iff`).

Side conditions of the main statement. None, but that the document is parsed. It may be
a JSON text, whose content then counts (`Doc.content?`).
-/
import Glasshouse.Proofs.Condition.Spelling

namespace Glasshouse

open Schema

/-- The document that a column holds: what a text says as JSON, any other document itself. -/
def Doc.content? : Doc → Option Doc
  | .str s => (Json.read s).toOption
  | d => some d

/-- Whether a table is tagged as a group. -/
def isGroup (o : Fields) : Bool :=
  match nodeTag? o with
  | some (.str "group") => true
  | _ => false

/-- A table in place of a node that is no group. -/
def Doc.isLeafTable : Doc → Bool
  | .obj o => !isGroup o
  | _ => false

namespace Condition

mutual

/-- The nodes of a tree, each before its children. -/
def subtrees : Condition → List Condition
  | all cs => all cs :: subtreesOf cs
  | any cs => any cs :: subtreesOf cs
  | negation c => negation c :: subtrees c
  | leaf l => [leaf l]

/-- The nodes of a list of trees. -/
def subtreesOf : List Condition → List Condition
  | [] => []
  | c :: r => subtrees c ++ subtreesOf r

end

/-- The elements of a list under `children` beside `rules`. -/
def overlooked (o : Fields) : List Doc :=
  if Fields.has "rules" o then
    match Fields.get? "children" o with
    | some (.list xs) => xs
    | _ => []
  else []

theorem sizeOf_items {o : Fields} {d : Doc} (h : d ∈ items o) : sizeOf d < sizeOf (Doc.obj o) := by
  unfold items at h
  split at h
  · rename_i xs hxs
    have hsize := sizeOf_childrenOf hxs
    have hlt := List.sizeOf_lt_of_mem h
    simp only [Doc.list.sizeOf_spec] at hsize
    omega
  · cases h

theorem sizeOf_overlooked {o : Fields} {d : Doc} (h : d ∈ overlooked o) :
    sizeOf d < sizeOf (Doc.obj o) := by
  unfold overlooked at h
  split at h
  · split at h
    · rename_i xs hxs
      obtain ⟨a, hmem⟩ := mem_of_get? hxs
      have hfield := List.sizeOf_lt_of_mem hmem
      have hlt := List.sizeOf_lt_of_mem h
      simp only [Prod.mk.sizeOf_spec, Doc.list.sizeOf_spec, Doc.obj.sizeOf_spec] at hfield ⊢
      omega
    · cases h
  · cases h

/-- The documents in place of nodes right below a table; `hidden` tells whether what a
group overlooks counts. -/
def childDocs (hidden : Bool) (o : Fields) : List Doc :=
  items o ++ if hidden then overlooked o else []

theorem sizeOf_childDocs {hidden : Bool} {o : Fields} {d : Doc} (h : d ∈ childDocs hidden o) :
    sizeOf d < sizeOf (Doc.obj o) := by
  rcases List.mem_append.1 h with h | h
  · exact sizeOf_items h
  · split at h
    · exact sizeOf_overlooked h
    · cases h

/-- The documents in place of nodes, each before those below it. -/
def nodes (hidden : Bool) : Doc → List Doc
  | .list xs => .list xs :: xs.flatMap (nodes hidden)
  | .obj o => .obj o :: (childDocs hidden o).attach.flatMap fun d => nodes hidden d.1
  | d => [d]
termination_by d => sizeOf d
decreasing_by
  · rename_i h
    have := List.sizeOf_lt_of_mem h
    simp only [Doc.list.sizeOf_spec]
    omega
  · exact sizeOf_childDocs d.2

theorem nodes_list (hidden : Bool) (xs : List Doc) :
    nodes hidden (.list xs) = .list xs :: xs.flatMap (nodes hidden) := by
  rw [nodes]

theorem nodes_obj (hidden : Bool) (o : Fields) :
    nodes hidden (.obj o) = .obj o :: (childDocs hidden o).flatMap (nodes hidden) := by
  rw [nodes, List.flatMap_subtype (g := nodes hidden) fun _ _ => rfl, List.unattach_attach]

/-- Documents in place of nodes that are read as the nodes of a tree, one by one and in
order, and the leaves among them as its leaves. -/
structure Mirrors (ds : List Doc) (c : Condition) : Prop where
  nodes : List.Forall₂ (fun d t => read d = .ok t) ds c.subtrees
  leaves : List.Forall₂ (fun d l => read d = .ok (leaf l)) (ds.filter Doc.isLeafTable) c.leaves

/-! ## Trees -/

theorem subtreesOf_eq_flatMap (cs : List Condition) : subtreesOf cs = cs.flatMap subtrees := by
  induction cs with
  | nil => rfl
  | cons c cs ih => simp [subtreesOf, ih]

/-- The nodes of a group are itself and those of its children. -/
theorem subtrees_group {op : Logic} {cs : List Condition} {c : Condition}
    (h : group? op cs = some c) : c.subtrees = c :: cs.flatMap subtrees := by
  unfold group? at h
  split at h
  · cases h
    simp [subtrees, subtreesOf_eq_flatMap]
  · cases h
    simp [subtrees, subtreesOf_eq_flatMap]
  · cases h
    simp [subtrees]
  · cases h

/-- The leaf at the root of a tree, if it is one. -/
def leaf? : Condition → Option Leaf
  | leaf l => some l
  | _ => none

mutual

/-- The leaves of a tree are the leaves among its nodes. -/
theorem leaves_eq_filterMap (c : Condition) : c.leaves = c.subtrees.filterMap leaf? := by
  match c with
  | all cs => simpa [leaves, subtrees, List.filterMap_cons, leaf?] using leavesOf_eq_filterMap cs
  | any cs => simpa [leaves, subtrees, List.filterMap_cons, leaf?] using leavesOf_eq_filterMap cs
  | negation c => simpa [leaves, subtrees, List.filterMap_cons, leaf?] using leaves_eq_filterMap c
  | leaf l => rfl

theorem leavesOf_eq_filterMap (cs : List Condition) :
    leavesOf cs = (subtreesOf cs).filterMap leaf? := by
  match cs with
  | [] => rfl
  | c :: cs =>
    rw [leavesOf, subtreesOf, List.filterMap_append, leaves_eq_filterMap c,
      leavesOf_eq_filterMap cs]

end

/-! ## What is read of a document -/

/-- A table that is read as a leaf has no field for children. -/
theorem childrenOf?_of_leaf {o : Fields} {name : String} {read : Fields → Checked Leaf} {l : Leaf}
    (hname : leafReaders.lookup name = some read) (h : read o = .ok l) : childrenOf? o = none := by
  have hkeys : ∃ fs ⊆ leafFields, ∃ u, noOthers o fs = .ok u := by
    have hmem := mem_of_lookup hname
    simp only [leafReaders, List.mem_cons, List.not_mem_nil, or_false, Prod.mk.injEq] at hmem
    rcases hmem with ⟨rfl, rfl⟩ | ⟨rfl, rfl⟩ | ⟨rfl, rfl⟩ | ⟨rfl, rfl⟩ | ⟨rfl, rfl⟩ | ⟨rfl, rfl⟩
    all_goals
      obtain ⟨t, ht, -⟩ := Checked.fmap_eq_ok.1 h
      exact ⟨_, by decide, (Checked.seqLeft_eq_ok.1 ht).2⟩
  obtain ⟨fs, hfs, u, hu⟩ := hkeys
  have hnames : ∀ f ∈ leafFields, (f.plain ≠ "rules" ∧ f.camel ≠ "rules")
      ∧ f.plain ≠ "children" ∧ f.camel ≠ "children" := by decide
  have hrules := absent_of_noOthers (fun f hf => (hnames f (hfs hf)).1) hu
  have hchildren := absent_of_noOthers (fun f hf => (hnames f (hfs hf)).2) hu
  simp only [Fields.has, Option.isSome_eq_false_iff, Option.isNone_iff_eq_none] at hrules hchildren
  rw [childrenOf?, hrules, hchildren]
  rfl

theorem isGroup_iff {o : Fields} : isGroup o = true ↔ nodeTag? o = some (.str "group") := by
  unfold isGroup
  split
  · rename_i h
    simp [h]
  · rename_i h
    simpa using h

/-- A table that is read is tagged as a group and read as one, or it is read as a leaf and
has no field for children. -/
theorem cases_of_readTable {o : Fields} {x : Checked (List Condition)} {c : Condition}
    (h : readTable o x = .ok c) :
    (isGroup o = true ∧ readGroup o x = .ok c)
      ∨ (isGroup o = false ∧ childrenOf? o = none ∧ ∃ l, c = leaf l) := by
  unfold readTable at h
  split at h
  · cases h
  · rename_i htag
    exact .inl ⟨isGroup_iff.2 htag, Checked.under_eq_ok.1 h⟩
  · rename_i tag hgroup htag
    split at h
    · rename_i read hread
      obtain ⟨l, hl, rfl⟩ := Checked.fmap_eq_ok.1 (Checked.under_eq_ok.1 h)
      refine .inr ⟨?_, childrenOf?_of_leaf hread hl, l, rfl⟩
      rw [Bool.eq_false_iff, Ne, isGroup_iff, htag]
      exact fun h => hgroup (Option.some.inj h)
    · cases h

theorem leaf?_group {op : Logic} {cs : List Condition} {c : Condition}
    (h : group? op cs = some c) : c.leaf? = none := by
  unfold group? at h
  split at h <;> cases h <;> rfl

/-- What is read from a table is a leaf exactly where the table is no group. -/
theorem isLeafTable_of_read {d : Doc} {c : Condition} (h : read d = .ok c) :
    d.isLeafTable = c.leaf?.isSome := by
  cases d with
  | atom a => exact absurd h (readAtom_ne_ok a c)
  | set xs => cases h
  | list xs =>
    obtain ⟨cs, -, rfl⟩ := Checked.map_eq_ok.1 h
    rfl
  | obj o =>
    rw [read] at h
    rcases cases_of_readTable h with ⟨hgroup, h⟩ | ⟨hgroup, -, l, rfl⟩
    · obtain ⟨op, cs, -, -, -, hc⟩ := readGroup_eq_ok.1 h
      simp [Doc.isLeafTable, hgroup, leaf?_group hc]
    · simp [Doc.isLeafTable, hgroup, leaf?]

/-- The leaves among documents that are read as nodes are read as the leaves among these. -/
theorem forall₂_leaves {ds : List Doc} {ts : List Condition}
    (h : List.Forall₂ (fun d t => read d = .ok t) ds ts) :
    List.Forall₂ (fun d l => read d = .ok (leaf l)) (ds.filter Doc.isLeafTable)
      (ts.filterMap leaf?) := by
  induction h with
  | nil => exact .nil
  | cons hread _ ih =>
    rename_i d t ds ts _
    have hleaf := isLeafTable_of_read hread
    cases t with
    | leaf l => simpa [List.filter_cons, hleaf, leaf?, List.filterMap_cons] using ⟨hread, ih⟩
    | all | any | negation => simpa [List.filter_cons, hleaf, leaf?, List.filterMap_cons] using ih

theorem mirrors_of_nodes {ds : List Doc} {c : Condition}
    (h : List.Forall₂ (fun d t => read d = .ok t) ds c.subtrees) : Mirrors ds c :=
  ⟨h, by rw [leaves_eq_filterMap]; exact forall₂_leaves h⟩

/-- Documents read one by one: what stands below them is read one by one, if it is for
each. -/
theorem forall₂_flatMap {α β γ δ : Type} {R : α → β → Prop} {S : γ → δ → Prop} {f : α → List γ}
    {g : β → List δ} {as : List α} {bs : List β} (h : List.Forall₂ R as bs)
    (hfg : ∀ a ∈ as, ∀ b, R a b → List.Forall₂ S (f a) (g b)) :
    List.Forall₂ S (as.flatMap f) (bs.flatMap g) := by
  induction h with
  | nil => exact .nil
  | cons hab _ ih =>
    simp only [List.flatMap_cons]
    refine List.rel_append (hfg _ (List.mem_cons_self ..) _ hab) (ih fun a ha => ?_)
    exact hfg a (List.mem_cons_of_mem _ ha)

/-- What a document counts as nodes is read as the nodes of the tree. -/
theorem nodes_of_read {d : Doc} {c : Condition} (h : read d = .ok c) :
    List.Forall₂ (fun d t => read d = .ok t) (nodes false d) c.subtrees := by
  match d with
  | .atom a => exact absurd h (readAtom_ne_ok a c)
  | .set xs => cases h
  | .list xs =>
    have hroot := h
    obtain ⟨cs, hcs, rfl⟩ := Checked.map_eq_ok.1 h
    have hread := readList_eq_ok.1 (Checked.under_eq_ok.1 (Checked.under_eq_ok.1 hcs))
    have hgroup : group? .and cs = some (all cs) := rfl
    rw [nodes_list, subtrees_group hgroup]
    exact .cons hroot (forall₂_flatMap hread fun d hd c hdc => nodes_of_read hdc)
  | .obj o =>
    have hroot := h
    rw [read] at h
    rw [nodes_obj, childDocs, if_neg Bool.false_ne_true, List.append_nil]
    rcases cases_of_readTable h with ⟨hgroup, h⟩ | ⟨hgroup, hchildren, l, rfl⟩
    · obtain ⟨op, cs, -, hcs, -, hc⟩ := readGroup_eq_ok.1 h
      have hread := readList_eq_ok.1 (readList_items hcs)
      rw [subtrees_group hc]
      exact .cons hroot (forall₂_flatMap hread fun d hd c hdc => nodes_of_read hdc)
    · have hitems : items o = [] := by simp [items, hchildren]
      rw [hitems]
      exact .cons hroot .nil
termination_by sizeOf d
decreasing_by
  · have hlt := List.sizeOf_lt_of_mem hd
    simp only [Doc.list.sizeOf_spec]
    omega
  · exact sizeOf_items hd

/-- A container whose members are read as nodes is a list, or it has no members. -/
theorem listed_of_readChildren {v : Doc} {cs : List Condition} (h : readChildren v = .ok cs) :
    (∃ xs, v = .list xs) ∨ v.members = .ok [] := by
  have none : ∀ {ds : List Doc}, notNodes 0 ds = .ok cs → ds = [] := by
    intro ds h
    cases ds with
    | nil => rfl
    | cons d ds =>
      obtain ⟨_, _, h, -⟩ := Checked.seq_eq_ok.1 h
      obtain ⟨_, h, -⟩ := Checked.fmap_eq_ok.1 h
      cases h
  cases v with
  | list xs => exact .inl ⟨xs, rfl⟩
  | obj o => exact .inr (congrArg Except.ok (none h))
  | set xs => exact .inr (congrArg Except.ok (none h))
  | atom a =>
    unfold readChildren at h
    split at h
    · rename_i ms hms
      rw [none h] at hms
      exact .inr hms
    · cases h

/-- Every group among the nodes of a document that is read holds its children in a list, or
in something without members, or not at all. -/
theorem listed_of_read {d : Doc} {c : Condition} (h : read d = .ok c) {o : Fields} {v : Doc}
    (ho : .obj o ∈ nodes false d) (hgroup : isGroup o = true) (hv : childrenOf? o = some v) :
    (∃ xs, v = .list xs) ∨ v.members = .ok [] := by
  obtain ⟨t, -, hread⟩ := exists_of_mem_right (nodes_of_read h).flip ho
  rw [read] at hread
  rcases cases_of_readTable hread with ⟨-, hread⟩ | ⟨hleaf, -⟩
  · obtain ⟨op, cs, -, hcs, -, -⟩ := readGroup_eq_ok.1 hread
    rw [childrenIn_readFields, hv] at hcs
    exact listed_of_readChildren hcs
  · rw [hgroup] at hleaf
    cases hleaf

/-! ## What is overlooked -/

section

variable {α β : Type} {f g : α → List β} {as : List α}

theorem flatMap_sublist (h : ∀ a ∈ as, (f a).Sublist (g a)) :
    (as.flatMap f).Sublist (as.flatMap g) := by
  induction as with
  | nil => exact .slnil
  | cons a as ih =>
    simp only [List.flatMap_cons]
    exact (h a (List.mem_cons_self ..)).append (ih fun b hb => h b (List.mem_cons_of_mem _ hb))

/-- Parts of lists make up the whole of their concatenation only where each part is whole. -/
theorem flatMap_eq_iff_of_sublist (h : ∀ a ∈ as, (f a).Sublist (g a)) :
    as.flatMap g = as.flatMap f ↔ ∀ a ∈ as, g a = f a := by
  refine ⟨fun heq => ?_, fun heq => ?_⟩
  · induction as with
    | nil => simp
    | cons a as ih =>
      have hhead := h a (List.mem_cons_self ..)
      have htail : ∀ b ∈ as, (f b).Sublist (g b) := fun b hb => h b (List.mem_cons_of_mem _ hb)
      simp only [List.flatMap_cons] at heq
      have hlength : (g a).length = (f a).length := by
        have hsum := congrArg List.length heq
        simp only [List.length_append] at hsum
        have := hhead.length_le
        have := (flatMap_sublist htail).length_le
        omega
      obtain ⟨ha, has⟩ := List.append_inj heq hlength
      intro b hb
      rcases List.mem_cons.1 hb with rfl | hb
      · exact ha
      · exact ih htail has b hb
  · rw [List.flatMap_def, List.flatMap_def, List.map_congr_left heq]

end

/-- What counts without the overlooked is among what counts with it. -/
theorem nodes_sublist (d : Doc) : (nodes false d).Sublist (nodes true d) := by
  match d with
  | .atom a => simp [nodes]
  | .set xs => simp [nodes]
  | .list xs =>
    rw [nodes_list, nodes_list]
    exact (flatMap_sublist fun x _ => nodes_sublist x).cons_cons _
  | .obj o =>
    have hitems : ((items o).flatMap (nodes false)).Sublist ((items o).flatMap (nodes true)) :=
      flatMap_sublist fun x _ => nodes_sublist x
    simp only [nodes_obj, childDocs, Bool.false_eq_true, if_false, if_true, List.append_nil,
      List.flatMap_append]
    exact (hitems.trans (List.sublist_append_left ..)).cons_cons _
termination_by sizeOf d
decreasing_by
  · have hlt := List.sizeOf_lt_of_mem ‹x ∈ xs›
    simp only [Doc.list.sizeOf_spec]
    omega
  · exact sizeOf_items ‹x ∈ items o›

/-- Every document has a node, itself. -/
theorem nodes_ne_nil (hidden : Bool) (d : Doc) : nodes hidden d ≠ [] := by
  cases d <;> simp [nodes]

/-- All that is written counts exactly where nothing is overlooked at the nodes that count. -/
theorem nodes_eq_iff (d : Doc) :
    nodes true d = nodes false d ↔ ∀ o, .obj o ∈ nodes false d → overlooked o = [] := by
  match d with
  | .atom a => simp [nodes]
  | .set xs => simp [nodes]
  | .list xs =>
    have hbelow : xs.flatMap (nodes true) = xs.flatMap (nodes false) ↔
        ∀ x ∈ xs, ∀ o, .obj o ∈ nodes false x → overlooked o = [] := by
      rw [flatMap_eq_iff_of_sublist fun x _ => nodes_sublist x]
      exact forall₂_congr fun x hx => nodes_eq_iff x
    rw [nodes_list, nodes_list, List.cons.injEq, hbelow]
    simp only [true_and, List.mem_cons, reduceCtorEq, false_or, List.mem_flatMap]
    exact ⟨fun h o ⟨x, hx, ho⟩ => h x hx o ho, fun h x hx o ho => h o ⟨x, hx, ho⟩⟩
  | .obj o =>
    have hbelow : (items o).flatMap (nodes true) = (items o).flatMap (nodes false) ↔
        ∀ x ∈ items o, ∀ p, .obj p ∈ nodes false x → overlooked p = [] := by
      rw [flatMap_eq_iff_of_sublist fun x _ => nodes_sublist x]
      exact forall₂_congr fun x hx => nodes_eq_iff x
    have hroot : (items o).flatMap (nodes true) ++ (overlooked o).flatMap (nodes true)
          = (items o).flatMap (nodes false) ↔ overlooked o = []
        ∧ (items o).flatMap (nodes true) = (items o).flatMap (nodes false) := by
      constructor
      · intro heq
        have hlength := congrArg List.length heq
        rw [List.length_append] at hlength
        have hle := (flatMap_sublist fun x (_ : x ∈ items o) => nodes_sublist x).length_le
        have hnone : (overlooked o).flatMap (nodes true) = [] :=
          List.length_eq_zero_iff.1 (by omega)
        rw [hnone, List.append_nil] at heq
        refine ⟨List.eq_nil_iff_forall_not_mem.2 fun x hx => ?_, heq⟩
        exact nodes_ne_nil true x (List.flatMap_eq_nil_iff.1 hnone x hx)
      · rintro ⟨hnone, heq⟩
        rw [hnone, List.flatMap_nil, List.append_nil, heq]
    rw [nodes_obj, nodes_obj]
    simp only [childDocs, Bool.false_eq_true, if_false, if_true, List.append_nil,
      List.flatMap_append, List.cons.injEq, true_and, hroot, hbelow, List.mem_cons, Doc.obj.injEq,
      List.mem_flatMap]
    constructor
    · rintro ⟨hnone, hitems⟩ p (rfl | ⟨x, hx, hp⟩)
      · exact hnone
      · exact hitems x hx p hp
    · exact fun h => ⟨h o (.inl rfl), fun x hx p hp => h p (.inr ⟨x, hx, hp⟩)⟩
termination_by sizeOf d
decreasing_by
  · have hlt := List.sizeOf_lt_of_mem hx
    simp only [Doc.list.sizeOf_spec]
    omega
  · exact sizeOf_items hx

theorem read_of_content {d e : Doc} {c : Condition} (he : d.content? = some e)
    (h : parse d = .ok c) : read e = .ok c := by
  unfold parse at h
  split at h
  · rename_i s
    simp only [Doc.content?, Except.toOption] at he
    cases hs : Json.read s with
    | error f =>
      rw [hs] at he
      cases he
    | ok e' =>
      simp only [hs, Option.some.injEq] at he h
      rw [← he]
      exact accept_eq_ok.1 h
  · rename_i hstr
    have hd : d.content? = some d := by
      unfold Doc.content?
      split
      · rename_i s
        exact absurd rfl (hstr s)
      · rfl
    rw [hd, Option.some.injEq] at he
    rw [← he]
    exact accept_eq_ok.1 h

/-- The documents that count as nodes in a document that is parsed are read as the nodes of
its tree, in order, and every group among them holds its children in a list or has none. All
documents in place of nodes are read in this way exactly where no group has elements under
`children` beside `rules`. -/
theorem parse_keeps_nodes {d e : Doc} {c : Condition} (he : d.content? = some e)
    (h : parse d = .ok c) :
    Mirrors (nodes false e) c
      ∧ (∀ o v, .obj o ∈ nodes false e → isGroup o = true → childrenOf? o = some v →
        (∃ xs, v = .list xs) ∨ v.members = .ok [])
      ∧ (Mirrors (nodes true e) c ↔ ∀ o, .obj o ∈ nodes true e → overlooked o = []) := by
  have hread := read_of_content he h
  have hnodes := nodes_of_read hread
  refine ⟨mirrors_of_nodes hnodes, fun o v => listed_of_read hread, ?_, ?_⟩
  · intro hall
    have hlength : (nodes false e).length = (nodes true e).length := by
      rw [hnodes.length_eq, hall.nodes.length_eq]
    have heq := (nodes_sublist e).eq_of_length hlength
    have hnone := (nodes_eq_iff e).1 heq.symm
    rwa [heq] at hnone
  · intro hnone
    have heq := (nodes_eq_iff e).2 fun o ho => hnone o ((nodes_sublist e).subset ho)
    rw [heq]
    exact mirrors_of_nodes hnodes

/-- A group of a device and of a bare list with another one: all five nodes are read. -/
theorem parse_keeps_nodes_fans :
    let fan (name : String) : Fields := [(.str "type", .str "device"),
      (.str "device_id", .str name), (.str "expected_status", .str "on")]
    let group : Doc := .obj [(.str "operator", .str "OR"),
      (.str "rules", .list [.obj (fan "east"), .list [.obj (fan "west")]])]
    let leaf (name : String) : Condition := .leaf (.device ⟨name, "on"⟩)
    let tree : Condition := .any [leaf "east", .all [leaf "west"]]
    group.content? = some group ∧ parse group = .ok tree ∧ Mirrors (nodes true group) tree := by
  intro fan group leaf tree
  have hparse : parse group = .ok tree := rfl
  have hcontent : group.content? = some group := rfl
  refine ⟨hcontent, hparse, (parse_keeps_nodes hcontent hparse).2.2.2 ?_⟩
  intro o ho
  have hfan : ∀ name, childDocs true (fan name) = [] := fun _ => rfl
  have hgroup : childDocs true [(.str "operator", .str "OR"), (.str "rules",
      .list [.obj (fan "east"), .list [.obj (fan "west")]])]
      = [.obj (fan "east"), .list [.obj (fan "west")]] := rfl
  simp only [group, nodes_obj, nodes_list, hgroup, hfan, List.flatMap_cons, List.flatMap_nil,
    List.append_nil, List.cons_append, List.nil_append, List.mem_cons, List.not_mem_nil, or_false,
    Doc.obj.injEq, reduceCtorEq, false_or] at ho
  rcases ho with rfl | rfl | rfl <;> rfl

/-- A group with an empty list under `rules` is read without the child that it has under
`children`. -/
theorem children_beside_rules_dropped :
    let fan : Doc := .obj [(.str "type", .str "device"), (.str "device_id", .str "fan"),
      (.str "expected_status", .str "on")]
    let group : Doc := .obj [(.str "operator", .str "AND"), (.str "children", .list [fan]),
      (.str "rules", .list [])]
    parse group = .ok (.all []) ∧ ¬ Mirrors (nodes true group) (.all []) := by
  intro fan group
  refine ⟨rfl, fun h => ?_⟩
  have hlength := h.nodes.length_eq
  have hbelow : childDocs true [(.str "operator", .str "AND"), (.str "children", .list [fan]),
      (.str "rules", .list [])] = [fan] := rfl
  rw [nodes_obj, hbelow, List.flatMap_singleton, List.length_cons] at hlength
  have hfan := List.length_pos_iff.2 (nodes_ne_nil true fan)
  simp only [subtrees, subtreesOf, List.length_singleton] at hlength
  omega

end Condition

end Glasshouse
