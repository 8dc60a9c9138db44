import CommandTree.Proofs.Forest.Tree
import Mathlib.Data.List.Nodup
import Mathlib.Data.List.Perm.Subperm

/-!
# The parents above a node

From a node, one goes from parent to parent until there is none. In a forest that can be built this
always comes to an end: a child is registered only on nodes that do not stand under it, so no chain
of parents closes to a circle. What is above a node is then found in no more steps than there are
nodes, and a tree is no deeper than that either.

* `Linked.grounded`: registering a child closes no circle
* `ancestorsOf_child`: above a child are its parent and what is above the parent
* `treeOf_isSome`: every node has a tree under it
* `mem_ids_iff`, `nodup_ids`: the tree under a node shows exactly the nodes below it, each once
-/

namespace CommandTree.Forest

/-- From a node, the parents lead through the given nodes, the nearest first, to one without a
parent. -/
inductive Lineage (f : Forest) : NodeId → List NodeId → Prop
  | root {id : NodeId} (h : f.parentOf id = none) : Lineage f id []
  | child {id p : NodeId} {above : List NodeId} (h : f.parentOf id = some p)
      (hp : Lineage f p above) : Lineage f id (p :: above)

/-- Whether from every node the parents come to an end. -/
def Grounded (f : Forest) : Prop := ∀ id, ∃ above, f.Lineage id above

variable {f f' : Forest} {id : NodeId} {above : List NodeId}

namespace Lineage

theorem unique {above' : List NodeId} (h : f.Lineage id above) (h' : f.Lineage id above') :
    above = above' := by
  induction h generalizing above' with
  | root h =>
    cases h' with
    | root => rfl
    | child hp => rw [h] at hp; cases hp
  | child h _ ih =>
    cases h' with
    | root hp => rw [h] at hp; cases hp
    | child hp hrest =>
      rw [h] at hp
      cases hp
      rw [ih hrest]

/-- Above a node that is above another one there is less than above that one. -/
theorem of_mem (h : f.Lineage id above) {a : NodeId} (ha : a ∈ above) :
    ∃ higher, f.Lineage a higher ∧ higher.length < above.length := by
  induction h with
  | root => cases ha
  | child _ hp ih =>
    rcases List.mem_cons.mp ha with rfl | ha
    · exact ⟨_, hp, Nat.lt_succ_self _⟩
    · obtain ⟨higher, hhigher, hlt⟩ := ih ha
      exact ⟨higher, hhigher, Nat.lt_succ_of_lt hlt⟩

/-- No node is above itself. -/
theorem not_mem (h : f.Lineage id above) : id ∉ above := by
  intro hmem
  obtain ⟨higher, hhigher, hlt⟩ := h.of_mem hmem
  rw [hhigher.unique h] at hlt
  exact Nat.lt_irrefl _ hlt

theorem nodup (h : f.Lineage id above) : (id :: above).Nodup := by
  induction h with
  | root => exact List.nodup_cons.mpr ⟨List.not_mem_nil, List.nodup_nil⟩
  | child h hp ih => exact List.nodup_cons.mpr ⟨(Lineage.child h hp).not_mem, ih⟩

/-- Each node of a chain of parents is the parent of the one before. -/
theorem isChain (h : f.Lineage id above) :
    (id :: above).IsChain fun child parent => f.parentOf child = some parent := by
  induction h with
  | root => exact .singleton _
  | child h _ ih => exact .cons_cons h ih

/-- The last node of a chain of parents has none. -/
theorem parentOf_getLastD (h : f.Lineage id above) : f.parentOf (above.getLastD id) = none := by
  induction h with
  | root h => exact h
  | child _ _ ih => rwa [List.getLastD_cons]

/-- Chains of parents are the same where parents are. -/
theorem congr (hp : ∀ n, f'.parentOf n = f.parentOf n) (h : f.Lineage id above) :
    f'.Lineage id above := by
  induction h with
  | root h => exact .root ((hp _).trans h)
  | child h _ ih => exact .child ((hp _).trans h) ih

/-! ## Bounds -/

/-- All nodes that have a child are nodes of the forest. -/
theorem mem_lt_size (hwf : f.WellFormed) (h : f.Lineage id above) : ∀ a ∈ above, a < f.size := by
  induction h with
  | root => exact fun a ha => by cases ha
  | @child id p _ h _ ih =>
    refine List.forall_mem_cons.mpr ⟨?_, ih⟩
    obtain ⟨C, hC, hparent⟩ := Option.bind_eq_some_iff.mp h
    obtain ⟨P, hP, -⟩ := hwf.parent hC hparent
    exact (List.getElem?_eq_some_iff.mp hP).1

/-- Above a node of the forest are fewer nodes than there are. -/
theorem length_lt_size (hwf : f.WellFormed) {N : Node} (hN : f.node? id = some N)
    (h : f.Lineage id above) : above.length < f.size := by
  have hsub : (id :: above) ⊆ List.range f.size := fun a ha => by
    rw [List.mem_range]
    rcases List.mem_cons.mp ha with rfl | ha
    · exact (List.getElem?_eq_some_iff.mp hN).1
    · exact h.mem_lt_size hwf a ha
  have hlength := (h.nodup.subperm hsub).length_le
  rwa [List.length_cons, List.length_range] at hlength

theorem ancestorsWithin (h : f.Lineage id above) {bound : Nat} (hbound : above.length ≤ bound) :
    f.ancestorsWithin bound id = above := by
  induction h generalizing bound with
  | root h => exact ancestorsWithin_of_parentOf h bound
  | child h _ ih =>
    cases bound with
    | zero => cases hbound
    | succ bound =>
      rw [Forest.ancestorsWithin, h]
      exact congrArg (_ :: ·) (ih (Nat.le_of_succ_le_succ hbound))

theorem length_le_size (hwf : f.WellFormed) (h : f.Lineage id above) : above.length ≤ f.size := by
  cases hN : f.node? id with
  | none =>
    have hnone : f.parentOf id = none := by rw [parentOf, hN]; rfl
    rw [h.unique (.root hnone)]
    exact Nat.zero_le _
  | some N => exact Nat.le_of_lt (h.length_lt_size hwf hN)

/-- **The search for the nodes above a node goes far enough.** -/
theorem ancestorsOf (hwf : f.WellFormed) (h : f.Lineage id above) : f.ancestorsOf id = above :=
  h.ancestorsWithin (h.length_le_size hwf)

end Lineage

/-! ## Every forest that can be built is grounded -/

theorem Grounded.congr (h : f.Grounded) (hp : ∀ n, f'.parentOf n = f.parentOf n) :
    f'.Grounded := by
  intro id
  obtain ⟨above, habove⟩ := h id
  exact ⟨above, habove.congr hp⟩

section Linked

variable {parent c : NodeId} {P C : Node}

/-- Registering a child gives it its parent, takes that of the child that is replaced, and leaves
all others. -/
theorem Linked.parentOf (hl : Linked f f' parent c P C) (id : NodeId) :
    f'.parentOf id
      = if id = c then some parent
        else if P.children.get? C.key = some id then none else f.parentOf id := by
  rw [Forest.parentOf, Forest.parentOf, hl.after]
  by_cases hc : id = c
  · rw [if_pos hc, hc, hl.childNode]
    exact if_pos rfl
  · rw [if_neg hc]
    cases f.node? id with
    | none => exact (ite_self _).symm
    | some N => exact if_neg hc

theorem Linked.parentOf_ne (hl : Linked f f' parent c P C) (hne : id ≠ c) :
    f'.parentOf id = none ∨ f'.parentOf id = f.parentOf id := by
  rw [hl.parentOf, if_neg hne]
  split
  · exact Or.inl rfl
  · exact Or.inr rfl

/-- A chain of parents without the child comes to an end still. -/
theorem Linked.lineage_of_not_mem (hl : Linked f f' parent c P C) (h : f.Lineage id above)
    (hc : c ∉ id :: above) : ∃ above', f'.Lineage id above' := by
  induction h with
  | root h =>
    rcases hl.parentOf_ne (Ne.symm (List.ne_of_not_mem_cons hc)) with hp | hp
    · exact ⟨[], .root hp⟩
    · exact ⟨[], .root (hp.trans h)⟩
  | child h _ ih =>
    rcases hl.parentOf_ne (Ne.symm (List.ne_of_not_mem_cons hc)) with hp | hp
    · exact ⟨[], .root hp⟩
    · obtain ⟨above', habove'⟩ := ih (List.not_mem_of_not_mem_cons hc)
      exact ⟨_, .child (hp.trans h) habove'⟩

/-- **Registering a child closes no circle.** -/
theorem Linked.grounded (hl : Linked f f' parent c P C) (hwf : f.WellFormed) (h : f.Grounded) :
    f'.Grounded := by
  obtain ⟨above, habove⟩ := h parent
  -- the parent does not stand under the child, so its own chain has not changed but for an end
  have hfree : c ∉ parent :: above := by
    intro hmem
    refine hl.noCircle ?_
    rw [pathOf, habove.ancestorsOf hwf, List.mem_append, List.mem_reverse, List.mem_singleton]
    exact (List.mem_cons.mp hmem).symm
  obtain ⟨above', habove'⟩ := hl.lineage_of_not_mem habove hfree
  have hchild : f'.Lineage c (parent :: above') :=
    .child (by rw [hl.parentOf, if_pos rfl]) habove'
  intro id
  obtain ⟨chain, hchain⟩ := h id
  induction hchain with
  | @root id h =>
    by_cases hc : id = c
    · exact hc ▸ ⟨_, hchild⟩
    · rcases hl.parentOf_ne hc with hp | hp
      · exact ⟨[], .root hp⟩
      · exact ⟨[], .root (hp.trans h)⟩
  | @child id _ _ h _ ih =>
    by_cases hc : id = c
    · exact hc ▸ ⟨_, hchild⟩
    · rcases hl.parentOf_ne hc with hp | hp
      · exact ⟨[], .root hp⟩
      · obtain ⟨rest, hrest⟩ := ih
        exact ⟨_, .child (hp.trans h) hrest⟩

end Linked

theorem parentOf_add (f : Forest) (d : Description) (run : Call → Outcome Unit) (id : NodeId) :
    (f.add (.alone d run)).1.parentOf id = f.parentOf id := by
  rw [parentOf, parentOf, node?_add]
  by_cases h : id = f.size
  · rw [if_pos h, h, node?_size]
    rfl
  · rw [if_neg h]

theorem parentOf_registerParameter {p : Option Parameter} (h : f.registerParameter id p = .ok f')
    (other : NodeId) : f'.parentOf other = f.parentOf other := by
  obtain ⟨p', -, hnode⟩ := node?_registerParameter h
  rw [parentOf, parentOf, hnode]
  cases f.node? other with
  | none => rfl
  | some N =>
    rw [Option.map_some]
    split <;> rfl

theorem grounded_step (hwf : f.WellFormed) (h : f.Grounded) (hs : Step f f') : f'.Grounded := by
  cases hs with
  | add run hd => exact h.congr (f.parentOf_add _ run)
  | child hreg =>
    obtain ⟨c, P, C, -, hl⟩ := linked_of_registerChild hreg
    exact hl.grounded hwf h
  | parameter hreg => exact h.congr (parentOf_registerParameter hreg)
  | sealed top => exact h.congr (f.parentOf_sealUnder top)

/-- **In every forest that can be built, the parents come to an end.** -/
theorem Reachable.grounded (h : f.Reachable) : f.Grounded := by
  induction h with
  | start => exact fun id => ⟨[], .root rfl⟩
  | step hr hs ih => exact grounded_step hr.wellFormed ih hs

theorem ancestorsOf_child (hwf : f.WellFormed) (h : f.Grounded) {c p : NodeId}
    (hp : f.parentOf c = some p) : f.ancestorsOf c = p :: f.ancestorsOf p := by
  obtain ⟨above, habove⟩ := h p
  rw [habove.ancestorsOf hwf, (Lineage.child hp habove).ancestorsOf hwf]

theorem pathOf_child (hwf : f.WellFormed) (h : f.Grounded) {c p : NodeId}
    (hp : f.parentOf c = some p) : f.pathOf c = f.pathOf p ++ [c] := by
  rw [pathOf, ancestorsOf_child hwf h hp, List.reverse_cons, pathOf]

/-- Whatever stands under a node, its children do too. -/
theorem isUnder_child (hwf : f.WellFormed) (h : f.Grounded) {c p top : NodeId}
    (hp : f.parentOf c = some p) (hunder : f.isUnder p top = true) : f.isUnder c top = true := by
  rw [isUnder, List.contains_iff_mem] at hunder ⊢
  rw [pathOf_child hwf h hp]
  exact List.mem_append_left _ hunder

/-! ## The tree under a node -/

theorem exists_mapM {bound : Nat} {ids : List NodeId}
    (h : ∀ c ∈ ids, ∃ t, f.treeWithin bound c = some t) :
    ∃ ts, ids.mapM (f.treeWithin bound) = some ts := by
  induction ids with
  | nil => exact ⟨[], rfl⟩
  | cons c rest ih =>
    obtain ⟨⟨t, ht⟩, hrest⟩ := List.forall_mem_cons.mp h
    obtain ⟨ts, hts⟩ := ih hrest
    exact ⟨t :: ts, by rw [List.mapM_cons, ht, hts]; rfl⟩

theorem exists_treeWithin (hwf : f.WellFormed) {N : Node} (hN : f.node? id = some N)
    (h : f.Lineage id above) {bound : Nat} (hbound : f.size ≤ above.length + bound) :
    ∃ t, f.treeWithin bound id = some t := by
  -- each level down has one more node above it, and there are fewer of these than nodes
  induction bound generalizing id N above with
  | zero => exact absurd hbound (Nat.not_le_of_lt (h.length_lt_size hwf hN))
  | succ bound ih =>
    have hchildren : ∀ c ∈ N.children.items, ∃ t, f.treeWithin bound c = some t := by
      intro c hc
      obtain ⟨key, hkey⟩ := Catalog.mem_items_iff_get?.mp hc
      obtain ⟨C, hC, hparent, -⟩ := hwf.child hN hkey
      have hp : f.parentOf c = some id := by
        rw [parentOf, hC]
        exact hparent
      refine ih hC (.child hp h) ?_
      rw [List.length_cons]
      omega
    obtain ⟨ts, hts⟩ := exists_mapM hchildren
    exact ⟨.branch id N ts, by rw [treeWithin, hN, Option.bind_eq_bind, Option.bind_some, hts]; rfl⟩

/-- **Every node has a tree under it.** -/
theorem treeOf_isSome (hwf : f.WellFormed) (h : f.Grounded) {N : Node} (hN : f.node? id = some N) :
    ∃ t, f.treeOf id = some t := by
  obtain ⟨above, habove⟩ := h id
  exact exists_treeWithin hwf hN habove (Nat.le_add_left ..)

/-- Above a node of a tree are those between it and the top of the tree, and those above the top. -/
theorem ancestorsOf_of_mem_ids (hwf : f.WellFormed) (h : f.Grounded) {bound : Nat} {t : Tree}
    (ht : f.treeWithin bound id = some t) {n : NodeId} (hn : n ∈ t.ids) :
    ∃ between : List NodeId, between.getLastD n = id ∧
      f.ancestorsOf n = between ++ f.ancestorsOf id := by
  obtain ⟨between, -, hlast, hanc⟩ := ancestorsWithin_of_mem_ids hwf ht hn
  obtain ⟨above, habove⟩ := h n
  refine ⟨between, hlast, ?_⟩
  have hbound := Nat.le_trans (habove.length_le_size hwf) (Nat.le_add_left f.size between.length)
  rw [habove.ancestorsOf hwf, ← habove.ancestorsWithin hbound, hanc, Forest.ancestorsOf]

/-- **The tree under a node shows exactly the nodes that stand under it.** -/
theorem mem_ids_iff (hwf : f.WellFormed) (h : f.Grounded) {top : NodeId} {t : Tree}
    (ht : f.treeOf top = some t) {n : NodeId} : n ∈ t.ids ↔ f.isUnder n top = true := by
  rw [isUnder, List.contains_iff_mem]
  constructor
  · intro hn
    obtain ⟨between, hlast, hanc⟩ := ancestorsOf_of_mem_ids hwf h ht hn
    rw [pathOf, hanc, List.mem_append, List.mem_reverse, List.mem_append, List.mem_singleton]
    rcases List.eq_nil_or_concat' between with rfl | ⟨lower, a, rfl⟩
    · exact Or.inr hlast.symm
    · rw [List.getLastD_concat] at hlast
      exact Or.inl (Or.inl (hlast ▸ List.mem_concat_self))
  · obtain ⟨above, habove⟩ := h n
    induction habove with
    | @root n hroot =>
      rw [pathOf, (Lineage.root hroot).ancestorsOf hwf]
      intro hmem
      rw [← List.mem_singleton.mp hmem]
      exact id_mem_ids_of_treeOf ht
    | @child n p _ hp _ ih =>
      rw [pathOf_child hwf h hp, List.mem_append, List.mem_singleton]
      rintro (hmem | rfl)
      · obtain ⟨C, hC, hparent⟩ := Option.bind_eq_some_iff.mp hp
        obtain ⟨P, hP, hget⟩ := hwf.parent hC hparent
        exact Tree.child_mem_ids (shows_of_treeOf ht) (ih hmem) hP
          (Catalog.mem_items_iff_get?.mpr ⟨_, hget⟩)
      · exact id_mem_ids_of_treeOf ht

/-- **A tree shows no node twice.** -/
theorem nodup_ids (hwf : f.WellFormed) (h : f.Grounded) {bound : Nat} {t : Tree}
    (ht : f.treeWithin bound id = some t) : t.ids.Nodup := by
  induction bound generalizing id t with
  | zero => cases ht
  | succ bound ih =>
    obtain ⟨N, ts, hN, hts, rfl⟩ := treeWithin_succ ht
    have hids := (allShow_of_mapM (fun _ _ => shows_of_treeWithin) _ ts hts).1
    -- the nodes of a child's tree have the child above them, or are it, and then the node itself
    have habove : ∀ s ∈ ts, ∀ n ∈ s.ids, ∃ between : List NodeId, between.getLastD n = s.id ∧
        f.ancestorsOf n = between ++ id :: f.ancestorsOf id := by
      intro s hs n hn
      obtain ⟨c, hc, hcs⟩ := treeWithin_of_mem_mapM _ ts hts s hs
      obtain ⟨between, hlast, hanc⟩ := ancestorsOf_of_mem_ids hwf h hcs hn
      rw [(shows_of_treeWithin hcs).1]
      exact ⟨between, hlast, by
        rw [hanc, ancestorsOf_child hwf h (hwf.mem_children_iff.mp ⟨N, hN, hc⟩)]⟩
    rw [Tree.ids, List.nodup_cons]
    constructor
    · intro hmem
      obtain ⟨s, hs, hn⟩ := Tree.mem_idsOf_iff.mp hmem
      obtain ⟨between, -, hanc⟩ := habove s hs id hn
      have hlength := congrArg List.length hanc
      simp only [List.length_append, List.length_cons] at hlength
      omega
    · rw [Tree.idsOf_eq_flatMap, List.nodup_flatMap]
      constructor
      · intro s hs
        obtain ⟨c, -, hcs⟩ := treeWithin_of_mem_mapM _ ts hts s hs
        exact ih hcs
      · have hnodup : (ts.map Tree.id).Nodup := hids ▸ hwf.nodup_children hN
        refine (List.pairwise_map.mp hnodup).imp_of_mem fun {s s'} hs hs' hne n hn hn' => hne ?_
        obtain ⟨between, hlast, hanc⟩ := habove s hs n hn
        obtain ⟨between', hlast', hanc'⟩ := habove s' hs' n hn'
        rw [← hlast, ← hlast', List.append_cancel_right (hanc.symm.trans hanc')]

end CommandTree.Forest
