import CommandTree.Proofs.Forest.Request
import CommandTree.Proofs.Grammar.Lasting
import CommandTree.Proofs.Grammar.Runners
import CommandTree.Proofs.Host.Language
import Mathlib.Logic.Relation

/-!
# Compiled trees are permanent

Once a command has been compiled, nothing that is requested later changes a node of its tree, on
whatever nodes it is requested: neither what hangs under the node nor its parameters, neither its
parent nor its place. So who may run what has been compiled is settled when it is compiled.

* `Forest.Frozen.steps`: a node that is frozen stays as it is and where it is
* `Forest.constraints_congr`: who may run a node depends on what the node and its root say
* `compiled_tree_permanent`: a compiled tree does not change any more
-/

namespace CommandTree

open Relation

namespace Forest

variable {f f' : Forest} {id : NodeId}

theorem Reachable.steps (hf : f.Reachable) (hs : ReflTransGen Step f f') : f'.Reachable := by
  induction hs with
  | refl => exact hf
  | tail _ hs ih => exact ih.step hs

/-- **However a forest is built further, a node that is frozen stays as it is and where it is.** -/
theorem Frozen.steps (hf : f.Reachable) (hs : ReflTransGen Step f f') (h : f.Frozen id) :
    f'.Frozen id ∧ f'.node? id = f.node? id ∧ f'.ancestorsOf id = f.ancestorsOf id := by
  induction hs with
  | refl => exact ⟨h, rfl, rfl⟩
  | tail hbefore hs ih =>
    obtain ⟨hfrozen, hnode, hancestors⟩ := ih
    have hwf := (hf.steps hbefore).wellFormed
    exact ⟨hfrozen.step hwf hs, (hfrozen.node?_step hwf hs).trans hnode,
      (hfrozen.ancestorsOf_step hwf hs).trans hancestors⟩

/-- Who may run a node depends on its root and on what the two say about themselves. -/
theorem constraints_congr (hroot : f'.rootOf id = f.rootOf id)
    (hnode : (f'.node? id).map Node.toDescription = (f.node? id).map Node.toDescription)
    (htop : (f'.node? (f.rootOf id)).map Node.toDescription
      = (f.node? (f.rootOf id)).map Node.toDescription) :
    f'.effectivePermission id = f.effectivePermission id ∧
      f'.effectiveAudience id = f.effectiveAudience id := by
  have hrestricted : (f'.node? id).any Node.isRestricted = (f.node? id).any Node.isRestricted := by
    have hany := congrArg (Option.any fun d : Description => d.permission.isSome) hnode
    rwa [Option.any_map, Option.any_map] at hany
  -- both come from one node, which says the same about itself in both forests
  have hsource : (f'.constraintSource id).map Node.toDescription
      = (f.constraintSource id).map Node.toDescription := by
    rw [constraintSource, constraintSource, hrestricted, hroot]
    split
    · exact hnode
    · exact htop
  have hpermission := congrArg (Option.bind · Description.permission) hsource
  have haudience := congrArg (Option.elim · Audience.anyone Description.audience) hsource
  simp only [Option.bind_map, Option.elim_map] at hpermission haudience
  exact ⟨hpermission, haudience⟩

end Forest

namespace Host

/-! ## Requests to a host -/

/-- What can be requested of a host before its commands are used. -/
inductive Request where
  /-- Builds its forest further. -/
  | build (request : Forest.Request)
  /-- Compiles a command; none stands for what is no node. -/
  | compile (id : Option NodeId)

/-- The host after a request, whether it was refused or not. -/
def afterOne (h : Host) : Request → Host
  | .build request => { h with forest := h.forest.afterOne request }
  | .compile id => (h.compile id).1

/-- The host after requests. -/
def after (h : Host) (requests : List Request) : Host := requests.foldl afterOne h

theorem afterOne_steps {h : Host} (hf : h.forest.Reachable) (request : Request) :
    ReflTransGen Forest.Step h.forest (h.afterOne request).forest ∧
      Grammar.Kept 0 h.grammar (h.afterOne request).grammar := by
  cases request with
  | build request =>
    refine ⟨?_, Grammar.Kept.refl 0 h.grammar⟩
    rcases Forest.afterOne_cases hf request with hs | hsame
    · exact .single hs
    · show ReflTransGen Forest.Step h.forest (h.forest.afterOne request)
      rw [hsame]
  | compile id =>
    rw [afterOne]
    cases hc : h.compile id with
    | mk h' result =>
      cases result with
      | error fault =>
        obtain rfl := compile_refused hc
        exact ⟨.refl, Grammar.Kept.refl 0 h'.grammar⟩
      | ok word =>
        obtain ⟨root, g, rfl, hcompile, rfl⟩ := compile_eq_ok hc
        exact ⟨.single (.sealed h.forest root),
          (Grammar.compiled_of_compile hf.wellFormed hcompile).kept⟩

theorem after_steps {h : Host} (hf : h.forest.Reachable) (requests : List Request) :
    ReflTransGen Forest.Step h.forest (h.after requests).forest ∧
      Grammar.Kept 0 h.grammar (h.after requests).grammar := by
  unfold after
  induction requests generalizing h with
  | nil => exact ⟨.refl, Grammar.Kept.refl 0 h.grammar⟩
  | cons request rest ih =>
    obtain ⟨hs, hkept⟩ := afterOne_steps hf request
    obtain ⟨hsteps, hkepts⟩ := ih (hf.steps hs)
    exact ⟨hs.trans hsteps, hkept.trans hkepts⟩

/-! ## Compiled trees -/

section Compiled

variable {h h' : Host} {root : NodeId} {word : BranchId}

theorem reachable_of_compile (hf : h.forest.Reachable)
    (hc : h.compile (some root) = (h', .ok word)) : h'.forest.Reachable := by
  obtain ⟨g, -, rfl⟩ := compile_some_eq_ok hc
  exact hf.step (.sealed h.forest root)

/-- What is under a command when it is compiled stays what it was, but that it is sealed. -/
theorem permanent_of_compile (hf : h.forest.Reachable)
    (hc : h.compile (some root) = (h', .ok word)) (later : List Host.Request) {n : NodeId}
    {N : Node} (hN : h.forest.node? n = some N) (hunder : root ∈ h.forest.pathOf n) :
    (h'.after later).forest.node? n = some { N with isSealed := true } ∧
      (h'.after later).forest.ancestorsOf n = h.forest.ancestorsOf n ∧
      h.forest.rootOf n = root := by
  have hwf := hf.wellFormed
  have hf' := reachable_of_compile hf hc
  obtain ⟨hsteps, -⟩ := after_steps hf' later
  obtain ⟨g, hcompile, rfl⟩ := compile_some_eq_ok hc
  obtain ⟨⟨R, hR, hrole⟩, -, -⟩ := Grammar.compile_eq_ok_iff.mp hcompile
  obtain ⟨t, ht⟩ := Forest.treeOf_isSome hwf hf.grounded hR
  have hmem : n ∈ t.ids :=
    (Forest.mem_ids_iff hwf hf.grounded ht).mpr (List.contains_iff_mem.mpr hunder)
  have hfrozen := Forest.frozen_sealUnder hwf hR hrole ht hmem
  have hsealed := Forest.node?_sealUnder_of_mem_ids hwf hR hrole ht hmem hN
  obtain ⟨-, hnode, hancestors⟩ := hfrozen.steps hf' hsteps
  exact ⟨hnode.trans hsealed, hancestors.trans (h.forest.ancestorsOf_sealUnder root n),
    Forest.rootOf_of_mem_ids hwf ht (hwf.parentOf_command hR hrole) hmem⟩

/-- What a command is compiled to calls nodes under it. -/
theorem runners_of_compile (hf : h.forest.Reachable)
    (hc : h.compile (some root) = (h', .ok word)) {b : BranchId} {B : Branch}
    {callback : Callback} (hb : h.grammar.size ≤ b) (hB : h'.grammar.branch? b = some B)
    (hcall : B.callback = some callback) :
    ∃ n N, callback = h.forest.runnerOf n ∧ h.forest.node? n = some N ∧
      root ∈ h.forest.pathOf n := by
  obtain ⟨g, hcompile, rfl⟩ := compile_some_eq_ok hc
  obtain ⟨t, ht, hadds⟩ := Grammar.compile_runners hcompile
  rcases hadds b B hB with hold | hruns
  · exact absurd hb (Nat.not_le_of_lt (Grammar.branch?_lt hold))
  · obtain ⟨n, hn, hrun⟩ := hruns callback hcall
    obtain ⟨s, hs, rfl, -⟩ := Tree.exists_subtree t (Forest.shows_of_treeOf ht) hn
    exact ⟨s.id, s.node, hrun, hs.node?,
      List.contains_iff_mem.mp ((Forest.mem_ids_iff hf.wellFormed hf.grounded ht).mp hn)⟩

/-- Who may run what is under a command stays settled when it is compiled. -/
theorem constraints_of_compile (hf : h.forest.Reachable)
    (hc : h.compile (some root) = (h', .ok word)) (later : List Host.Request) {n : NodeId}
    {N : Node} (hN : h.forest.node? n = some N) (hunder : root ∈ h.forest.pathOf n) :
    (h'.after later).forest.effectivePermission n = h.forest.effectivePermission n ∧
      (h'.after later).forest.effectiveAudience n = h.forest.effectiveAudience n := by
  obtain ⟨hnode, hancestors, hroot⟩ := permanent_of_compile hf hc later hN hunder
  obtain ⟨g, hcompile, -⟩ := compile_some_eq_ok hc
  obtain ⟨⟨R, hR, -⟩, -, -⟩ := Grammar.compile_eq_ok_iff.mp hcompile
  have hself : root ∈ h.forest.pathOf root := List.mem_append_right _ (List.mem_singleton_self root)
  obtain ⟨htop, -⟩ := permanent_of_compile hf hc later hR hself
  refine Forest.constraints_congr (by rw [Forest.rootOf, Forest.rootOf, hancestors]) ?_ ?_
  · rw [hnode, hN]
    rfl
  · rw [hroot, htop, hR]
    rfl

end Compiled

end Host

/--
**A compiled tree does not change any more.** After a command has been compiled, and after any
requests that follow, refused or not, every node under the command is what it was, but that it is
sealed: it has the same children, parameters and parent, the same path, and the command for its
root. What the command was compiled to calls nodes under it only, and the permission and the
audience that these ask for remain.
-/
theorem compiled_tree_permanent {h h' : Host} {root : NodeId} {word : BranchId}
    (hf : h.forest.Reachable) (hc : h.compile (some root) = (h', .ok word))
    (later : List Host.Request) :
    let f := h.forest
    let f' := (h'.after later).forest
    (∀ n N, f.node? n = some N → root ∈ f.pathOf n →
      f'.node? n = some { N with isSealed := true } ∧ f'.pathOf n = f.pathOf n ∧
        f.rootOf n = root ∧ f'.rootOf n = root) ∧
      ∀ b B callback, h.grammar.size ≤ b → h'.grammar.branch? b = some B →
        B.callback = some callback →
        (h'.after later).grammar.branch? b = some B ∧
          ∃ n, callback = f.runnerOf n ∧ root ∈ f.pathOf n ∧
            f'.effectivePermission n = f.effectivePermission n ∧
            f'.effectiveAudience n = f.effectiveAudience n := by
  refine ⟨fun n N hN hunder => ?_, fun b B callback hb hB hcall => ?_⟩
  · obtain ⟨hnode, hancestors, hroot⟩ := Host.permanent_of_compile hf hc later hN hunder
    exact ⟨hnode, by rw [Forest.pathOf, Forest.pathOf, hancestors], hroot,
      by rw [Forest.rootOf, hancestors]; exact hroot⟩
  · obtain ⟨-, hkept⟩ := Host.after_steps (Host.reachable_of_compile hf hc) later
    obtain ⟨n, N, hrun, hN, hunder⟩ := Host.runners_of_compile hf hc hb hB hcall
    exact ⟨hkept.branch (Nat.zero_le b) hB, n, hrun, hunder,
      Host.constraints_of_compile hf hc later hN hunder⟩

/-- What is requested after a command for points has been compiled: its child is to get a child and
to be moved under another node, and more is compiled. -/
def afterPoints : List Host.Request := [
  .build (.declare "root" .root (.string "pay") {} fun _ => .done ()),
  .build (.declare "child" .sub (.string "set") {} fun _ => .done ()),
  .build (.child 1 (some 3)), .build (.child 3 (some 1)), .compile (some 2), .compile (some 0)]

/-- Whatever is tried, the child keeps its place, and it asks for what the command asks for. -/
theorem compiled_tree_permanent_points :
    let h := pointsHost.renewed none
    let h' := (h.compile (some 0)).1
    pointsForest.Reachable ∧ h.compile (some 0) = (h', .ok 5) ∧
      (∃ N, pointsForest.node? 1 = some N ∧
        (h'.after afterPoints).forest.node? 1 = some { N with isSealed := true }) ∧
      (h'.after afterPoints).forest.pathOf 1 = [0, 1] ∧
      (∃ B, (h'.after afterPoints).grammar.branch? 3 = some B ∧
        B.callback = some (pointsForest.runnerOf 1)) ∧
      (h'.after afterPoints).forest.effectivePermission 1 = some "points.use" := by
  intro h h'
  refine ⟨pointsForest_reachable, compile_pointsHost, ?_⟩
  obtain ⟨hnodes, hcalls⟩ := compiled_tree_permanent (h := h) pointsForest_reachable
    compile_pointsHost afterPoints
  obtain ⟨hnode, hpath, -, -⟩ := hnodes 1 _ rfl (by decide)
  obtain ⟨hbranch, n, hrun, -, hpermission, -⟩ := hcalls 3 _ _ (by decide) rfl rfl
  have hn : n = 1 := by
    cases hrun
    rfl
  subst hn
  exact ⟨⟨_, rfl, hnode⟩, hpath, ⟨_, hbranch, rfl⟩, hpermission⟩

end CommandTree
