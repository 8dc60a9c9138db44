import CommandTree.Forest.Tree
import CommandTree.Proofs.Catalog
import CommandTree.Proofs.Forest.Reachable

/-!
# Nodes of a tree

The tree under a node shows the nodes of the forest as they are. All of them stand in one tree of
parents, so every node of the tree under a root has that root; and sealing the tree changes no link.

* `Tree.exists_subtree`: each node of a tree is on top of a part of it
* `rootOf_of_mem_ids`: the root of a node of the tree under a root
* `resolve_eq_head?`: the child that a word leads to is the first of those that answer to it
-/

namespace CommandTree

open Text

namespace Tree

mutual

/-- Whether a tree shows nodes as they are in a forest. -/
def Shows (f : Forest) : Tree → Prop
  | .branch id node children =>
    f.node? id = some node ∧ children.map Tree.id = node.children.items ∧ AllShow f children

/-- Whether trees show nodes as they are in a forest. -/
def AllShow (f : Forest) : List Tree → Prop
  | [] => True
  | t :: ts => Shows f t ∧ AllShow f ts

end

variable {f : Forest}

theorem Shows.node? {t : Tree} (h : t.Shows f) : f.node? t.id = some t.node := by
  cases t
  exact h.1

theorem id_mem_ids (t : Tree) : t.id ∈ t.ids := by
  cases t with
  | branch id node children =>
    rw [ids]
    exact List.mem_cons_self ..

theorem idsOf_eq_flatMap (ts : List Tree) : idsOf ts = ts.flatMap ids := by
  induction ts with
  | nil => rw [idsOf, List.flatMap_nil]
  | cons t ts ih => rw [idsOf, ih, List.flatMap_cons]

theorem mem_idsOf_iff {ts : List Tree} {n : NodeId} : n ∈ idsOf ts ↔ ∃ t ∈ ts, n ∈ t.ids := by
  rw [idsOf_eq_flatMap, List.mem_flatMap]

mutual

/-- Each node of a tree is on top of a part of the tree. -/
theorem exists_subtree {n : NodeId} :
    ∀ t : Tree, t.Shows f → n ∈ t.ids → ∃ s : Tree, s.Shows f ∧ s.id = n ∧ s.ids ⊆ t.ids
  | .branch id node children, h, hn => by
    rw [ids, List.mem_cons] at hn
    rcases hn with rfl | hn
    · exact ⟨_, h, rfl, List.Subset.refl _⟩
    · obtain ⟨s, hs, hid, hsub⟩ := exists_subtree_of_mem_idsOf children h.2.2 hn
      refine ⟨s, hs, hid, List.Subset.trans hsub ?_⟩
      rw [ids]
      exact List.subset_cons_self ..

theorem exists_subtree_of_mem_idsOf {n : NodeId} :
    ∀ ts : List Tree, AllShow f ts → n ∈ idsOf ts →
      ∃ s : Tree, s.Shows f ∧ s.id = n ∧ s.ids ⊆ idsOf ts
  | [], _, hn => by
    rw [idsOf] at hn
    cases hn
  | t :: ts, h, hn => by
    rw [idsOf, List.mem_append] at hn
    rcases hn with hn | hn
    · obtain ⟨s, hs, hid, hsub⟩ := exists_subtree t h.1 hn
      refine ⟨s, hs, hid, List.Subset.trans hsub ?_⟩
      rw [idsOf]
      exact List.subset_append_left ..
    · obtain ⟨s, hs, hid, hsub⟩ := exists_subtree_of_mem_idsOf ts h.2 hn
      refine ⟨s, hs, hid, List.Subset.trans hsub ?_⟩
      rw [idsOf]
      exact List.subset_append_right ..

end

/-- The children of a node of a tree are nodes of the tree. -/
theorem child_mem_ids {t : Tree} (h : t.Shows f) {n c : NodeId} {N : Node} (hn : n ∈ t.ids)
    (hN : f.node? n = some N) (hc : c ∈ N.children.items) : c ∈ t.ids := by
  obtain ⟨s, hs, rfl, hsub⟩ := exists_subtree t h hn
  cases s with
  | branch id node children =>
    obtain ⟨hnode, hids, -⟩ := hs
    rw [Tree.id, hnode] at hN
    cases hN
    rw [← hids] at hc
    obtain ⟨s, hs, rfl⟩ := List.mem_map.mp hc
    refine hsub ?_
    rw [ids]
    exact List.mem_cons_of_mem _ (ids_subset_of_mem hs (id_mem_ids s))

end Tree

namespace Forest

variable {f : Forest}

/-! ## The tree under a node -/

theorem allShow_of_mapM {bound : Nat}
    (hbound : ∀ id t, f.treeWithin bound id = some t → t.id = id ∧ t.Shows f) :
    ∀ (ids : List NodeId) (ts : List Tree), ids.mapM (f.treeWithin bound) = some ts →
      ts.map Tree.id = ids ∧ Tree.AllShow f ts
  | [], ts, h => by
    rw [List.mapM_nil] at h
    cases h
    exact ⟨rfl, trivial⟩
  | id :: ids, ts, h => by
    rw [List.mapM_cons] at h
    obtain ⟨t, ht, h⟩ := Option.bind_eq_some_iff.mp h
    obtain ⟨rest, hrest, h⟩ := Option.bind_eq_some_iff.mp h
    cases h
    obtain ⟨hid, hshow⟩ := hbound id t ht
    obtain ⟨hids, hall⟩ := allShow_of_mapM hbound ids rest hrest
    exact ⟨by rw [List.map_cons, hid, hids], hshow, hall⟩

theorem treeWithin_succ {bound : Nat} {id : NodeId} {t : Tree}
    (h : f.treeWithin (bound + 1) id = some t) :
    ∃ N ts, f.node? id = some N ∧ N.children.items.mapM (f.treeWithin bound) = some ts ∧
      t = .branch id N ts := by
  rw [treeWithin] at h
  obtain ⟨N, hN, h⟩ := Option.bind_eq_some_iff.mp h
  obtain ⟨ts, hts, h⟩ := Option.bind_eq_some_iff.mp h
  exact ⟨N, ts, hN, hts, (Option.some.inj h).symm⟩

theorem shows_of_treeWithin {bound : Nat} {id : NodeId} {t : Tree}
    (h : f.treeWithin bound id = some t) : t.id = id ∧ t.Shows f := by
  induction bound generalizing id t with
  | zero => cases h
  | succ bound ih =>
    obtain ⟨N, ts, hN, hts, rfl⟩ := treeWithin_succ h
    obtain ⟨hids, hall⟩ := allShow_of_mapM (fun _ _ => ih) _ ts hts
    exact ⟨rfl, hN, hids, hall⟩

theorem shows_of_treeOf {id : NodeId} {t : Tree} (h : f.treeOf id = some t) : t.Shows f :=
  (shows_of_treeWithin h).2

theorem id_mem_ids_of_treeOf {id : NodeId} {t : Tree} (h : f.treeOf id = some t) : id ∈ t.ids := by
  have hid := Tree.id_mem_ids t
  rw [(shows_of_treeWithin h).1] at hid
  exact hid

theorem treeWithin_of_mem_mapM {bound : Nat} :
    ∀ (ids : List NodeId) (ts : List Tree), ids.mapM (f.treeWithin bound) = some ts →
      ∀ t ∈ ts, ∃ id ∈ ids, f.treeWithin bound id = some t
  | [], ts, h => by
    rw [List.mapM_nil] at h
    cases h
    exact fun t ht => by cases ht
  | id :: ids, ts, h => by
    rw [List.mapM_cons] at h
    obtain ⟨t, ht, h⟩ := Option.bind_eq_some_iff.mp h
    obtain ⟨rest, hrest, h⟩ := Option.bind_eq_some_iff.mp h
    cases h
    intro s hs
    rcases List.mem_cons.mp hs with rfl | hs
    · exact ⟨id, List.mem_cons_self .., ht⟩
    · obtain ⟨i, hi, his⟩ := treeWithin_of_mem_mapM ids rest hrest s hs
      exact ⟨i, List.mem_cons_of_mem _ hi, his⟩

/-! ## Roots -/

/-- From a node of a tree, the parents lead to the top of the tree, in fewer steps than the tree may
be deep. -/
theorem ancestorsWithin_of_mem_ids (hwf : f.WellFormed) {bound : Nat} {id n : NodeId} {t : Tree}
    (h : f.treeWithin bound id = some t) (hn : n ∈ t.ids) :
    ∃ above : List NodeId, above.length < bound ∧ above.getLastD n = id ∧
      ∀ k, f.ancestorsWithin (above.length + k) n = above ++ f.ancestorsWithin k id := by
  -- the depth of the tree is bounded by the same number as the path upwards
  induction bound generalizing id t with
  | zero => cases h
  | succ bound ih =>
    obtain ⟨N, ts, hN, hts, rfl⟩ := treeWithin_succ h
    rw [Tree.ids, List.mem_cons] at hn
    rcases hn with rfl | hn
    · exact ⟨[], Nat.succ_pos _, rfl, fun k => by rw [List.length_nil, Nat.zero_add]; rfl⟩
    · obtain ⟨s, hs, hns⟩ := Tree.mem_idsOf_iff.mp hn
      obtain ⟨c, hc, hcs⟩ := treeWithin_of_mem_mapM _ ts hts s hs
      obtain ⟨above, hlen, hlast, hanc⟩ := ih hcs hns
      have hpar : f.parentOf c = some id := by
        obtain ⟨key, hkey⟩ := Catalog.mem_items_iff_get?.mp hc
        obtain ⟨C, hC, hCp, -⟩ := hwf.child hN hkey
        rw [parentOf, hC]
        exact hCp
      refine ⟨above ++ [id], by simpa using hlen, List.getLastD_concat, fun k => ?_⟩
      have hstep : f.ancestorsWithin (1 + k) c = id :: f.ancestorsWithin k id := by
        rw [Nat.add_comm, ancestorsWithin, hpar]
      rw [List.length_append, List.length_singleton, Nat.add_assoc, hanc, hstep, List.append_assoc,
        List.singleton_append]

theorem ancestorsWithin_of_parentOf {id : NodeId} (h : f.parentOf id = none) (k : Nat) :
    f.ancestorsWithin k id = [] := by
  cases k with
  | zero => rfl
  | succ k => rw [ancestorsWithin, h]

/-- Every node of the tree under a root has that root. -/
theorem rootOf_of_mem_ids (hwf : f.WellFormed) {root n : NodeId} {t : Tree}
    (ht : f.treeOf root = some t) (hr : f.parentOf root = none) (hn : n ∈ t.ids) :
    f.rootOf n = root := by
  obtain ⟨above, hlen, hlast, hanc⟩ := ancestorsWithin_of_mem_ids hwf ht hn
  have hall : f.ancestorsOf n = above := by
    rw [ancestorsOf, show f.size = above.length + (f.size - above.length) by omega, hanc,
      ancestorsWithin_of_parentOf hr, List.append_nil]
  rw [rootOf, hall, hlast]

/-! ## Sealing -/

/-- Sealing changes nothing but whether a node is sealed. -/
theorem node?_of_sealUnder {id : NodeId} {n : Node} (h : f.node? id = some n) (top : NodeId) :
    ∃ b, (f.sealUnder top).node? id = some { n with isSealed := b } := by
  rw [node?_sealUnder, h, Option.map_some]
  split
  · exact ⟨true, rfl⟩
  · exact ⟨n.isSealed, rfl⟩

theorem parentOf_sealUnder (f : Forest) (top id : NodeId) :
    (f.sealUnder top).parentOf id = f.parentOf id := by
  rw [parentOf, parentOf, node?_sealUnder]
  cases f.node? id with
  | none => rfl
  | some n =>
    rw [Option.map_some]
    split <;> rfl

theorem ancestorsWithin_sealUnder (f : Forest) (top : NodeId) (bound : Nat) (id : NodeId) :
    (f.sealUnder top).ancestorsWithin bound id = f.ancestorsWithin bound id := by
  induction bound generalizing id with
  | zero => rfl
  | succ bound ih =>
    rw [ancestorsWithin, ancestorsWithin, parentOf_sealUnder]
    cases f.parentOf id with
    | none => rfl
    | some parent => exact congrArg (parent :: ·) (ih parent)

theorem rootOf_sealUnder (f : Forest) (top id : NodeId) :
    (f.sealUnder top).rootOf id = f.rootOf id := by
  have hsize : (f.sealUnder top).size = f.size := by simp [sealUnder, size]
  rw [rootOf, rootOf, ancestorsOf, ancestorsOf, hsize, ancestorsWithin_sealUnder]

/-! ## Children -/

/-- No node is a child twice. -/
theorem WellFormed.nodup_children (hwf : f.WellFormed) {id : NodeId} {n : Node}
    (hn : f.node? id = some n) : n.children.items.Nodup := by
  refine Catalog.items_nodup fun k₁ k₂ c h₁ h₂ => ?_
  obtain ⟨C, hC, -, hk₁, -⟩ := hwf.child hn h₁
  obtain ⟨C', hC', -, hk₂, -⟩ := hwf.child hn h₂
  rw [hC] at hC'
  cases hC'
  rw [← hk₁, hk₂]

/-- A node is among the children of exactly its parent. -/
theorem WellFormed.mem_children_iff (hwf : f.WellFormed) {p c : NodeId} :
    (∃ P, f.node? p = some P ∧ c ∈ P.children.items) ↔ f.parentOf c = some p := by
  rw [parentOf, Option.bind_eq_some_iff]
  constructor
  · rintro ⟨P, hP, hc⟩
    obtain ⟨key, hkey⟩ := Catalog.mem_items_iff_get?.mp hc
    obtain ⟨C, hC, hparent, -⟩ := hwf.child hP hkey
    exact ⟨C, hC, hparent⟩
  · rintro ⟨C, hC, hparent⟩
    obtain ⟨P, hP, hget⟩ := hwf.parent hC hparent
    exact ⟨P, hP, Catalog.mem_items_iff_get?.mpr ⟨_, hget⟩⟩

/-! ## Answering to words -/

end Forest

/-- A node answers to a word that is not its name if the word is one of its aliases. -/
theorem Node.matchesWord_of_ne {n : Node} {word : String} (h : ¬ lowercase word = n.key) :
    n.matchesWord word = n.aliases.any fun a => a.key = lowercase word := by
  rw [matchesWord, sameWord, show lowercase n.name.text = n.key from rfl, beq_false_of_ne h,
    Bool.false_or]
  congr 1
  funext a
  rw [sameWord, Bool.eq_iff_iff, beq_iff_eq, decide_eq_true_iff]
  exact eq_comm

namespace Forest

variable {f : Forest}

/-- Whether a node has an alias with a key. -/
def hasAlias (f : Forest) (key : String) (id : NodeId) : Bool :=
  (f.node? id).any fun n => n.aliases.any fun a => a.key = key

theorem hasAlias_iff {id : NodeId} {n : Node} (hn : f.node? id = some n) {key : String} :
    f.hasAlias key id = true ↔ n.aliases.filter (fun a => a.key = key) ≠ [] := by
  rw [hasAlias, hn, Option.any_some, List.any_eq_true, ne_eq, List.filter_eq_nil_iff]
  simp

/-- The children of a node that answer to a key, in order: the one of that name alone if there is
one, and otherwise those with such an alias. -/
def answering (f : Forest) (id : NodeId) (key : String) : List NodeId :=
  match f.node? id with
  | none => []
  | some n =>
    match n.children.get? key with
    | some child => [child]
    | none => n.children.items.filter (f.hasAlias key)

theorem answering_of_get? {id : NodeId} {n : Node} (hn : f.node? id = some n) {key : String}
    {c : NodeId} (hc : n.children.get? key = some c) : f.answering id key = [c] := by
  rw [answering, hn]
  dsimp only
  rw [hc]

theorem answering_of_get?_none {id : NodeId} {n : Node} (hn : f.node? id = some n) {key : String}
    (hc : n.children.get? key = none) :
    f.answering id key = n.children.items.filter (f.hasAlias key) := by
  rw [answering, hn]
  dsimp only
  rw [hc]

/-- Whoever answers to a key is a child. -/
theorem mem_items_of_mem_answering {id c : NodeId} {n : Node} (hn : f.node? id = some n)
    {key : String} (h : c ∈ f.answering id key) : c ∈ n.children.items := by
  cases hc : n.children.get? key with
  | some child =>
    rw [answering_of_get? hn hc, List.mem_singleton] at h
    subst h
    exact Catalog.mem_items_iff_get?.mpr ⟨key, hc⟩
  | none =>
    rw [answering_of_get?_none hn hc] at h
    exact (List.mem_filter.mp h).1

/-- The child that a word leads to is the first of those that answer to it. -/
theorem resolve_eq_head? (hwf : f.WellFormed) (id : NodeId) (word : String) :
    f.resolve id word = (f.answering id (lowercase word)).head? := by
  rw [resolve]
  cases hn : f.node? id with
  | none => simp [answering, hn]
  | some n =>
    dsimp only
    cases hc : n.children.get? (lowercase word) with
    | some c => rw [answering_of_get? hn hc, List.head?_cons]
    | none =>
      rw [answering_of_get?_none hn hc]
      dsimp only
      rw [← List.head?_filter]
      refine congrArg List.head? (List.filter_congr fun c hmem => ?_)
      obtain ⟨key, hkey⟩ := Catalog.mem_items_iff_get?.mp hmem
      obtain ⟨C, hC, -, hCk, -⟩ := hwf.child hn hkey
      have hname : ¬ lowercase word = C.key := by
        intro he
        rw [he, hCk, hkey] at hc
        cases hc
      rw [hasAlias, hC, Option.any_some, Option.any_some, Node.matchesWord_of_ne hname]

/-- No child answers to a key twice. -/
theorem answering_nodup (hwf : f.WellFormed) (id : NodeId) (key : String) :
    (f.answering id key).Nodup := by
  cases hn : f.node? id with
  | none => simp [answering, hn]
  | some n =>
    cases hc : n.children.get? key with
    | some c => simp [answering_of_get? hn hc]
    | none =>
      rw [answering_of_get?_none hn hc]
      exact List.Pairwise.filter _ (hwf.nodup_children hn)

end Forest

end CommandTree
