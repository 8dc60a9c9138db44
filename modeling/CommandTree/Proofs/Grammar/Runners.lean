import CommandTree.Proofs.Grammar.Compiled

/-!
# What compiled trees call

Whatever branches a tree is compiled to, they call nothing but what runs the nodes of the tree, and
redirecting words call nothing at all. So where a compiled word or slot is called, it is for a node
of the tree.

* `Adds.trans`: what is added in two steps is allowed if it is in each of them
* `addTree_runners`: the branches of a compiled tree run nodes of the tree
* `compile_runners`: so do those of a compiled command
-/

namespace CommandTree.Grammar

variable {g g₁ g₂ g' : Grammar} {f : Forest}

/-- Whether all branches of a grammar are those of an earlier one, at their places, or are of an
allowed kind. -/
def Adds (allowed : Branch → Prop) (g g' : Grammar) : Prop :=
  ∀ b B, g'.branch? b = some B → g.branch? b = some B ∨ allowed B

namespace Adds

variable {allowed wider : Branch → Prop}

theorem refl (allowed : Branch → Prop) (g : Grammar) : Adds allowed g g := fun _ _ hB => Or.inl hB

theorem trans (h₁ : Adds allowed g g₁) (h₂ : Adds allowed g₁ g₂) : Adds allowed g g₂ := by
  intro b B hB
  rcases h₂ b B hB with hB | hB
  · exact h₁ b B hB
  · exact Or.inr hB

theorem imp (hwider : ∀ B, allowed B → wider B) (h : Adds allowed g g') : Adds wider g g' :=
  fun b B hB => (h b B hB).imp id (hwider B)

theorem add {B : Branch} (hB : allowed B) : Adds allowed g (g.add B).1 := by
  intro b B' hB'
  rw [branch?_add] at hB'
  split at hB'
  · cases hB'
    exact Or.inr hB
  · exact Or.inl hB'

end Adds

/-- Whether a branch runs one of the given nodes, if it calls anything. -/
def RunsOneOf (f : Forest) (ids : List NodeId) (B : Branch) : Prop :=
  ∀ callback, B.callback = some callback → ∃ n ∈ ids, callback = f.runnerOf n

theorem runsOneOf_of_mem {n : NodeId} {ids : List NodeId} (hn : n ∈ ids) {B : Branch}
    (hB : B.callback = some (f.runnerOf n)) : RunsOneOf f ids B := by
  intro callback hcallback
  rw [hB] at hcallback
  cases hcallback
  exact ⟨n, hn, rfl⟩

theorem RunsOneOf.mono {ids ids' : List NodeId} (hsub : ids ⊆ ids') {B : Branch}
    (h : RunsOneOf f ids B) : RunsOneOf f ids' B := by
  intro callback hcallback
  obtain ⟨n, hn, hrun⟩ := h callback hcallback
  exact ⟨n, hsub hn, hrun⟩

/-! ## What is added for a tree -/

theorem adds_addAliases {allowed : Branch → Prop} (hbare : ∀ B, B.callback = none → allowed B) :
    ∀ (l : List (Name × BranchId)) (g : Grammar) (words : Catalog BranchId),
      Adds allowed g (g.addAliases words l).1
  | [], g, _ => Adds.refl allowed g
  | (_, _) :: rest, _, _ => (Adds.add (hbare _ rfl)).trans (adds_addAliases hbare rest _ _)

theorem adds_addChain {allowed : Branch → Prop} {usage : String} {callback : Callback}
    (hcall : ∀ B, B.callback = some callback → allowed B) :
    ∀ (ps : List Parameter) {g g' : Grammar} {b : BranchId},
      g.addChain usage callback ps = .ok (g', b) → Adds allowed g g'
  | [], _, _, _, h => by cases h
  | [p], g, g', b, h => by
    rw [addChain] at h
    cases h
    exact Adds.add (hcall _ rfl)
  | p :: q :: rest, g, g', b, h => by
    obtain ⟨-, g₁, s, hs, hadd⟩ := addChain_cons_cons h
    cases hadd
    exact (adds_addChain hcall (q :: rest) hs).trans (Adds.add (hcall _ rfl))

theorem adds_addNode {n : NodeId} {N : Node} {compiled : List CompiledChild} {w : BranchId}
    (h : g.addNode f n N compiled = .ok (g', w)) : Adds (RunsOneOf f [n]) g g' := by
  have hbare : ∀ B : Branch, B.callback = none → RunsOneOf f [n] B := by
    intro B hB callback hcallback
    rw [hB] at hcallback
    cases hcallback
  have hcall : ∀ B : Branch, B.callback = some (f.runnerOf n) → RunsOneOf f [n] B := fun B =>
    runsOneOf_of_mem (List.mem_singleton_self n)
  obtain ⟨g₁, words, hr, hcases⟩ := addNode_cases h
  have haliases := adds_addAliases hbare (aliasesOf N.children.keys compiled) g
    (childWords compiled)
  rw [hr] at haliases
  rcases hcases with ⟨-, -, rfl⟩ | ⟨p, ps, g₂, s, -, -, hs, -, rfl⟩
  · exact haliases.trans (Adds.add (hcall _ rfl))
  · exact (haliases.trans (adds_addChain hcall (p :: ps) hs)).trans (Adds.add (hcall _ rfl))

mutual

/-- **The branches of a compiled tree run nodes of the tree.** -/
theorem addTree_runners :
    ∀ (t : Tree) {g g' : Grammar} {w : BranchId}, addTree f g t = .ok (g', w) →
      Adds (RunsOneOf f t.ids) g g'
  | .branch id node children, g, g', w, h => by
    obtain ⟨g₁, compiled, hts, hadd⟩ := addTree_eq_ok h
    rw [Tree.ids]
    refine ((addTrees_runners children hts).imp fun B => ?_).trans
      ((adds_addNode hadd).imp fun B => ?_)
    · exact RunsOneOf.mono (List.subset_cons_self ..)
    · exact RunsOneOf.mono (List.cons_subset_cons id (List.nil_subset _))

theorem addTrees_runners :
    ∀ (ts : List Tree) {g g' : Grammar} {compiled : List CompiledChild},
      addTrees f g ts = .ok (g', compiled) → Adds (RunsOneOf f (Tree.idsOf ts)) g g'
  | [], g, g', compiled, h => by
    rw [addTrees] at h
    cases h
    exact Adds.refl _ g
  | t :: ts, g, g', compiled, h => by
    obtain ⟨g₁, w, rest, ht, hts, -⟩ := addTrees_cons_eq_ok h
    rw [Tree.idsOf]
    refine ((addTree_runners t ht).imp fun B => ?_).trans
      ((addTrees_runners ts hts).imp fun B => ?_)
    · exact RunsOneOf.mono (List.subset_append_left ..)
    · exact RunsOneOf.mono (List.subset_append_right ..)

end

/-- **The branches of a compiled command run nodes of its tree.** -/
theorem compile_runners {root : NodeId} {refusal : UseFault} {f' : Forest} {word : BranchId}
    (h : g.compile f (some root) refusal = .ok (g', f', word)) :
    ∃ t, f.treeOf root = some t ∧ Adds (RunsOneOf f t.ids) g g' := by
  obtain ⟨-, hadd, -⟩ := compile_eq_ok_iff.mp h
  rw [addSubtree] at hadd
  cases ht : f.treeOf root with
  | none =>
    rw [ht] at hadd
    cases hadd
  | some t =>
    rw [ht] at hadd
    exact ⟨t, rfl, addTree_runners t hadd⟩

end CommandTree.Grammar
