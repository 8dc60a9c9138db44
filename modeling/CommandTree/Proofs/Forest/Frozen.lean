import CommandTree.Proofs.Forest.Tree
import Mathlib.Data.List.Basic

/-!
# Nodes that do not change any more

When a command is compiled, it is sealed with all nodes under it. A node is frozen if it is sealed
and so are all nodes above it, up to a command. Nothing is registered on it any more, and it is not
moved, whatever else is built.

* `Frozen.node?_step`: no step changes a node that is frozen
* `Frozen.step`: a node that is frozen stays so
* `Frozen.ancestorsOf_step`: it keeps its place
* `frozen_sealUnder`: sealing a command freezes its tree
-/

namespace CommandTree

namespace Forest

/-- Whether a node and all nodes above it are sealed, up to a command so many steps above it. -/
inductive FrozenBelow (f : Forest) : Nat → NodeId → Prop
  | command {id : NodeId} {N : Node} (hN : f.node? id = some N) (hsealed : N.isSealed = true)
      (hrole : N.role = .root) : FrozenBelow f 0 id
  | child {depth : Nat} {id p : NodeId} {N : Node} (hN : f.node? id = some N)
      (hsealed : N.isSealed = true) (hparent : N.parent = some p) (hp : FrozenBelow f depth p) :
      FrozenBelow f (depth + 1) id

/-- Whether a node and all nodes above it are sealed, up to a command. -/
def Frozen (f : Forest) (id : NodeId) : Prop := ∃ depth ≤ f.size, f.FrozenBelow depth id

variable {f f' : Forest} {id : NodeId} {depth : Nat}

/-! ## What steps leave alone -/

theorem unsealed_of_registerParameter {p : Option Parameter}
    (h : f.registerParameter id p = .ok f') : ∃ n, f.node? id = some n ∧ n.isSealed = false := by
  unfold registerParameter at h
  cases hn : f.nodeAt id with
  | error fault => rw [hn] at h; cases h
  | ok n =>
    rw [hn] at h
    cases p with
    | none => cases h
    | some p =>
      cases hm : checkMutable n with
      | error fault => simp only [bind, Except.bind, hm] at h; cases h
      | ok u => exact ⟨n, nodeAt_eq_ok_iff.mp hn, checkMutable_eq_ok_iff.mp hm⟩

/-- No step takes a node away, nor changes what it says about itself. -/
theorem description_step (hs : Step f f') {n : Node} (hn : f.node? id = some n) :
    ∃ n', f'.node? id = some n' ∧ n'.toDescription = n.toDescription := by
  cases hs with
  | add run h =>
    have hne : id ≠ f.size := by
      rintro rfl
      rw [node?_size] at hn
      cases hn
    exact ⟨n, by rw [node?_add, if_neg hne, hn], rfl⟩
  | child h =>
    obtain ⟨c, P, C, -, hl⟩ := linked_of_registerChild h
    exact ⟨_, hl.node? hn, rfl⟩
  | @parameter _ other _ h =>
    obtain ⟨p', -, hnode⟩ := node?_registerParameter h
    refine ⟨_, by rw [hnode, hn, Option.map_some], ?_⟩
    split <;> rfl
  | sealed top =>
    obtain ⟨b, hn'⟩ := node?_of_sealUnder hn top
    exact ⟨_, hn', rfl⟩

theorem size_step (hs : Step f f') : f.size ≤ f'.size := by
  refine Nat.le_of_not_lt fun hlt => ?_
  -- a node at the first free place of the later forest would still be there
  obtain ⟨n, hn⟩ : ∃ n, f.node? f'.size = some n := ⟨_, List.getElem?_eq_getElem hlt⟩
  obtain ⟨n', hn', -⟩ := description_step hs hn
  rw [node?_size] at hn'
  cases hn'

/-! ## Frozen nodes -/

theorem FrozenBelow.isSealed (h : f.FrozenBelow depth id) {N : Node} (hN : f.node? id = some N) :
    N.isSealed = true := by
  cases h with
  | command hN' hsealed =>
    rw [hN] at hN'
    cases hN'
    exact hsealed
  | child hN' hsealed =>
    rw [hN] at hN'
    cases hN'
    exact hsealed

/-- What a node that is frozen hangs under is sealed. -/
theorem FrozenBelow.parent_isSealed (hwf : f.WellFormed) (h : f.FrozenBelow depth id) {N P : Node}
    {p : NodeId} (hN : f.node? id = some N) (hparent : N.parent = some p)
    (hP : f.node? p = some P) : P.isSealed = true := by
  cases h with
  | command hN' _ hrole =>
    rw [hN] at hN'
    cases hN'
    rw [hwf.parent_of_root hN hrole] at hparent
    cases hparent
  | child hN' _ hparent' hp =>
    rw [hN] at hN'
    cases hN'
    rw [hparent] at hparent'
    cases hparent'
    exact hp.isSealed hP

/-- Registering a child does not change a node that is frozen: it is not the parent, which is not
sealed, and neither the child nor the one that is replaced, which hang under it. -/
theorem FrozenBelow.node?_linked (hwf : f.WellFormed) (h : f.FrozenBelow depth id)
    {parent c : NodeId} {P C : Node} (hl : Linked f f' parent c P C) :
    f'.node? id = f.node? id := by
  rw [hl.after]
  cases hN : f.node? id with
  | none => rfl
  | some N =>
    have hsealed := h.isSealed hN
    have hunder : N.parent ≠ some parent := by
      intro hparent
      have hP := h.parent_isSealed hwf hN hparent hl.parentNode
      rw [hl.unsealed] at hP
      cases hP
    have hparent : id ≠ parent := by
      rintro rfl
      rw [hl.parentNode] at hN
      cases hN
      rw [hl.unsealed] at hsealed
      cases hsealed
    have hchild : id ≠ c := by
      rintro rfl
      rw [hl.childNode] at hN
      cases hN
      cases h with
      | command hN' _ hrole =>
        rw [hl.childNode] at hN'
        cases hN'
        rw [hl.role] at hrole
        cases hrole
      | child hN' _ hp =>
        rw [hl.childNode] at hN'
        cases hN'
        exact hunder (hl.free _ hp ▸ hp)
    have hreplaced : P.children.get? C.key ≠ some id := fun hget =>
      hunder (hl.replaced hwf hget hN).1
    simp [relinked, hparent, hchild, hreplaced]

/-- **No step changes a node that is frozen.** -/
theorem FrozenBelow.node?_step (hwf : f.WellFormed) (hs : Step f f') (h : f.FrozenBelow depth id) :
    f'.node? id = f.node? id := by
  cases hs with
  | add run hd =>
    have hne : id ≠ f.size := by
      rintro rfl
      cases h with
      | command hN => rw [node?_size] at hN; cases hN
      | child hN => rw [node?_size] at hN; cases hN
    rw [node?_add, if_neg hne]
  | child hreg =>
    obtain ⟨c, P, C, -, hl⟩ := linked_of_registerChild hreg
    exact h.node?_linked hwf hl
  | @parameter _ other _ hreg =>
    obtain ⟨p, -, hnode⟩ := node?_registerParameter hreg
    obtain ⟨n, hn, hunsealed⟩ := unsealed_of_registerParameter hreg
    have hne : id ≠ other := by
      rintro rfl
      rw [h.isSealed hn] at hunsealed
      cases hunsealed
    rw [hnode]
    simp [hne]
  | sealed top =>
    rw [node?_sealUnder]
    cases hN : f.node? id with
    | none => rfl
    | some N =>
      have hsame : ({ N with isSealed := true } : Node) = N := by rw [← h.isSealed hN]
      rw [Option.map_some, hsame, ite_self]

theorem FrozenBelow.step (hwf : f.WellFormed) (hs : Step f f') (h : f.FrozenBelow depth id) :
    f'.FrozenBelow depth id := by
  induction h with
  | command hN hsealed hrole =>
    have hsame := (FrozenBelow.command hN hsealed hrole).node?_step hwf hs
    exact .command (hsame.trans hN) hsealed hrole
  | child hN hsealed hparent hp ih =>
    have hsame := (FrozenBelow.child hN hsealed hparent hp).node?_step hwf hs
    exact .child (hsame.trans hN) hsealed hparent ih

/-- A node that is frozen stays so. -/
theorem Frozen.step (hwf : f.WellFormed) (hs : Step f f') (h : f.Frozen id) : f'.Frozen id := by
  obtain ⟨depth, hdepth, hfrozen⟩ := h
  exact ⟨depth, Nat.le_trans hdepth (size_step hs), hfrozen.step hwf hs⟩

theorem Frozen.node?_step (hwf : f.WellFormed) (hs : Step f f') (h : f.Frozen id) :
    f'.node? id = f.node? id := by
  obtain ⟨depth, -, hfrozen⟩ := h
  exact hfrozen.node?_step hwf hs

/-! ## Their places -/

/-- The parents above a node that is frozen end at the command. -/
theorem FrozenBelow.ancestorsWithin_add (hwf : f.WellFormed) (h : f.FrozenBelow depth id)
    (k : Nat) : f.ancestorsWithin (depth + k) id = f.ancestorsWithin depth id := by
  induction h with
  | command hN _ hrole =>
    rw [ancestorsWithin_of_parentOf (hwf.parentOf_command hN hrole),
      ancestorsWithin_of_parentOf (hwf.parentOf_command hN hrole)]
  | @child depth id p N hN _ hparent _ ih =>
    have hpar : f.parentOf id = some p := by
      rw [parentOf, hN]
      exact hparent
    rw [show depth + 1 + k = (depth + k) + 1 by omega, ancestorsWithin, ancestorsWithin, hpar]
    exact congrArg (p :: ·) ih

theorem FrozenBelow.ancestorsOf_eq (hwf : f.WellFormed) (h : f.FrozenBelow depth id)
    (hdepth : depth ≤ f.size) : f.ancestorsOf id = f.ancestorsWithin depth id := by
  rw [ancestorsOf, show f.size = depth + (f.size - depth) by omega]
  exact h.ancestorsWithin_add hwf _

/-- The nodes above a node that is frozen are the same as before, and have not changed. -/
theorem FrozenBelow.ancestors_step (hwf : f.WellFormed) (hs : Step f f')
    (h : f.FrozenBelow depth id) :
    f'.ancestorsWithin depth id = f.ancestorsWithin depth id ∧
      ∀ m ∈ f.ancestorsWithin depth id, f'.node? m = f.node? m := by
  induction h with
  | command => exact ⟨rfl, fun m hm => by cases hm⟩
  | @child depth id p N hN hsealed hparent hp ih =>
    have hsame := (FrozenBelow.child hN hsealed hparent hp).node?_step hwf hs
    have hpar : f.parentOf id = some p := by
      rw [parentOf, hN]
      exact hparent
    have hpar' : f'.parentOf id = some p := by
      rw [parentOf, hsame, hN]
      exact hparent
    rw [ancestorsWithin, ancestorsWithin, hpar, hpar']
    exact ⟨congrArg (p :: ·) ih.1, List.forall_mem_cons.mpr ⟨hp.node?_step hwf hs, ih.2⟩⟩

/-- A node that is frozen keeps its place. -/
theorem Frozen.ancestorsOf_step (hwf : f.WellFormed) (hs : Step f f') (h : f.Frozen id) :
    f'.ancestorsOf id = f.ancestorsOf id := by
  obtain ⟨depth, hdepth, hfrozen⟩ := h
  rw [hfrozen.ancestorsOf_eq hwf hdepth,
    (hfrozen.step hwf hs).ancestorsOf_eq (wellFormed_step hwf hs)
      (Nat.le_trans hdepth (size_step hs)),
    (hfrozen.ancestors_step hwf hs).1]

/-- What runs a node that is frozen keeps its name. -/
theorem Frozen.runnerName_step (hwf : f.WellFormed) (hs : Step f f') (h : f.Frozen id) :
    f'.runnerName id = f.runnerName id := by
  have hnodes : f'.pathNodes id = f.pathNodes id := by
    rw [pathNodes, pathNodes, pathOf, pathOf, h.ancestorsOf_step hwf hs]
    refine List.filterMap_congr fun m hm => ?_
    rcases List.mem_append.mp hm with hm | hm
    · obtain ⟨depth, hdepth, hfrozen⟩ := h
      rw [List.mem_reverse, hfrozen.ancestorsOf_eq hwf hdepth] at hm
      exact (hfrozen.ancestors_step hwf hs).2 m hm
    · rw [List.mem_singleton.mp hm]
      exact h.node?_step hwf hs
  rw [runnerName, runnerName, hnodes]

/-- A node that is frozen has the root that its parent has. -/
theorem Frozen.rootOf_child (hwf : f.WellFormed) (h : f.Frozen id) {N : Node} {p : NodeId}
    (hN : f.node? id = some N) (hparent : N.parent = some p) : f.rootOf id = f.rootOf p := by
  obtain ⟨depth, hdepth, hfrozen⟩ := h
  have hancestors := hfrozen.ancestorsOf_eq hwf hdepth
  cases hfrozen with
  | command hN' _ hrole =>
    rw [hN] at hN'
    cases hN'
    rw [hwf.parent_of_root hN hrole] at hparent
    cases hparent
  | @child depth _ q _ hN' _ hparent' hp =>
    rw [hN] at hN'
    cases hN'
    rw [hparent] at hparent'
    cases hparent'
    have hpar : f.parentOf id = some p := by
      rw [parentOf, hN]
      exact hparent
    have habove : f.ancestorsOf id = p :: f.ancestorsOf p := by
      rw [hancestors, ancestorsWithin, hpar, hp.ancestorsOf_eq hwf (Nat.le_of_succ_le hdepth)]
    rw [rootOf, rootOf, habove, List.getLastD_cons]

/-! ## Sealing a command -/

theorem ancestorsOf_sealUnder (f : Forest) (top id : NodeId) :
    (f.sealUnder top).ancestorsOf id = f.ancestorsOf id := by
  have hsize : (f.sealUnder top).size = f.size := by simp [sealUnder, size]
  rw [ancestorsOf, ancestorsOf, hsize, ancestorsWithin_sealUnder]

/-- Sealing does not change what runs a node is called. -/
theorem runnerName_sealUnder (f : Forest) (top id : NodeId) :
    (f.sealUnder top).runnerName id = f.runnerName id := by
  have hkeys : ((f.sealUnder top).pathNodes id).map Node.key = (f.pathNodes id).map Node.key := by
    rw [pathNodes, pathNodes, pathOf, pathOf, ancestorsOf_sealUnder, List.map_filterMap,
      List.map_filterMap]
    refine List.filterMap_congr fun m _ => ?_
    rw [node?_sealUnder]
    cases f.node? m with
    | none => rfl
    | some M =>
      rw [Option.map_some]
      split <;> rfl
  rw [runnerName, runnerName, hkeys]

theorem rootOf_mem_pathOf (f : Forest) (id : NodeId) : f.rootOf id ∈ f.pathOf id := by
  rw [rootOf, pathOf]
  cases hlast : (f.ancestorsOf id).getLast? with
  | none =>
    rw [List.getLast?_eq_none_iff.mp hlast]
    exact List.mem_singleton_self id
  | some top =>
    rw [List.getLastD_eq_getLast?, hlast]
    exact List.mem_append_left _ (List.mem_reverse.mpr (List.mem_of_getLast? hlast))

/-- All nodes of the tree under a command are sealed with it. -/
theorem node?_sealUnder_of_mem_ids (hwf : f.WellFormed) {root : NodeId} {R : Node}
    (hR : f.node? root = some R) (hrole : R.role = .root) {t : Tree} (ht : f.treeOf root = some t)
    {n : NodeId} (hn : n ∈ t.ids) {N : Node} (hN : f.node? n = some N) :
    (f.sealUnder root).node? n = some { N with isSealed := true } := by
  have hparent : f.parentOf root = none := hwf.parentOf_command hR hrole
  have hunder : f.isUnder n root = true := by
    have hpath := f.rootOf_mem_pathOf n
    rw [rootOf_of_mem_ids hwf ht hparent hn] at hpath
    exact List.contains_iff_mem.mpr hpath
  rw [node?_sealUnder, hN, Option.map_some, if_pos hunder]

/-- Under a node that is frozen, a tree of sealed nodes is frozen. -/
theorem frozenBelow_of_mem_ids (hwf : f.WellFormed) {bound : Nat} {t : Tree} {n : NodeId}
    (ht : f.treeWithin bound id = some t) (hn : n ∈ t.ids)
    (hsealed : ∀ m ∈ t.ids, ∀ M, f.node? m = some M →
      f'.node? m = some { M with isSealed := true })
    (htop : f'.FrozenBelow depth id) :
    ∃ depth', depth' < depth + bound ∧ f'.FrozenBelow depth' n := by
  -- each level of the tree is one step further below the command
  induction bound generalizing id t depth with
  | zero => cases ht
  | succ bound ih =>
    obtain ⟨N, ts, hN, hts, rfl⟩ := treeWithin_succ ht
    rw [Tree.ids, List.mem_cons] at hn
    rcases hn with rfl | hn
    · exact ⟨depth, Nat.lt_add_of_pos_right (Nat.succ_pos _), htop⟩
    · obtain ⟨s, hs, hns⟩ := Tree.mem_idsOf_iff.mp hn
      obtain ⟨c, hc, hcs⟩ := treeWithin_of_mem_mapM _ ts hts s hs
      have hsub : ∀ m ∈ s.ids, m ∈ (Tree.branch id N ts).ids := by
        intro m hm
        rw [Tree.ids]
        exact List.mem_cons_of_mem _ (Tree.ids_subset_of_mem hs hm)
      have hmem : c ∈ s.ids := by
        rw [← (shows_of_treeWithin hcs).1]
        exact Tree.id_mem_ids s
      obtain ⟨key, hkey⟩ := Catalog.mem_items_iff_get?.mp hc
      obtain ⟨C, hC, hparent, -⟩ := hwf.child hN hkey
      obtain ⟨depth', hlt, hfrozen⟩ := ih hcs hns (fun m hm => hsealed m (hsub m hm))
        (.child (hsealed c (hsub c hmem) C hC) rfl hparent htop)
      exact ⟨depth', by omega, hfrozen⟩

/-- **Sealing a command freezes its tree.** -/
theorem frozen_sealUnder (hwf : f.WellFormed) {root : NodeId} {R : Node}
    (hR : f.node? root = some R) (hrole : R.role = .root) {t : Tree} (ht : f.treeOf root = some t)
    {n : NodeId} (hn : n ∈ t.ids) : (f.sealUnder root).Frozen n := by
  have hsealed : ∀ m ∈ t.ids, ∀ M, f.node? m = some M →
      (f.sealUnder root).node? m = some { M with isSealed := true } := fun m hm M =>
    node?_sealUnder_of_mem_ids hwf hR hrole ht hm
  have hsize : (f.sealUnder root).size = f.size := by simp [sealUnder, size]
  have htop : (f.sealUnder root).FrozenBelow 0 root :=
    .command (hsealed root (id_mem_ids_of_treeOf ht) R hR) rfl hrole
  obtain ⟨depth, hdepth, hfrozen⟩ := frozenBelow_of_mem_ids hwf ht hn hsealed htop
  exact ⟨depth, by omega, hfrozen⟩

end Forest

end CommandTree
