import CommandTree.Proofs.Forest.Lineage

/-!
# Seals go down a tree

Sealing a node seals its tree, one node after the other, and nothing else. So in a forest that can
be built, what hangs under a sealed node is sealed: nothing is registered on a sealed node that is
not, and a seal is never broken.

* `foldl_sealNode_ids`: sealing the nodes of a tree in order is sealing its top
* `sealsDown_step`: no step leaves a node unsealed under a sealed one
-/

namespace CommandTree.Forest

variable {f f' : Forest}

/-! ## Node by node -/

/-- The forest in which a node is sealed, and no other. -/
def sealNode (f : Forest) (id : NodeId) : Forest :=
  f.update id fun n => { n with isSealed := true }

theorem node?_foldl_sealNode (ids : List NodeId) (f : Forest) (id : NodeId) :
    (ids.foldl sealNode f).node? id
      = (f.node? id).map fun n => if id ∈ ids then { n with isSealed := true } else n := by
  induction ids generalizing f with
  | nil => simp
  | cons first rest ih =>
    rw [List.foldl_cons, ih, sealNode, node?_update]
    by_cases h : id = first
    · subst h
      rw [if_pos rfl, Option.map_map]
      congr 1
      funext n
      simp
    · rw [if_neg h]
      congr 1
      funext n
      simp [h]

/-- Forests with the same nodes are the same. -/
theorem ext_node? (h : ∀ id, f.node? id = f'.node? id) : f = f' := by
  cases f
  cases f'
  exact congrArg mk (List.ext_getElem? h)

/-- **Sealing the nodes of a tree, one after the other, is sealing its top.** -/
theorem foldl_sealNode_ids (hwf : f.WellFormed) (h : f.Grounded) {top : NodeId} {t : Tree}
    (ht : f.treeOf top = some t) : t.ids.foldl sealNode f = f.sealUnder top := by
  refine ext_node? fun id => ?_
  rw [node?_foldl_sealNode, node?_sealUnder]
  congr 1
  funext n
  by_cases hunder : f.isUnder id top = true
  · rw [if_pos hunder, if_pos ((mem_ids_iff hwf h ht).mpr hunder)]
  · rw [if_neg hunder, if_neg fun hmem => hunder ((mem_ids_iff hwf h ht).mp hmem)]

/-! ## What hangs under sealed nodes -/

/-- Whether all that hangs under sealed nodes is sealed. -/
def SealsDown (f : Forest) : Prop :=
  ∀ {p P c C}, f.node? p = some P → P.isSealed = true → f.node? c = some C → C.parent = some p →
    C.isSealed = true

theorem Linked.sealsDown {parent c : NodeId} {P C : Node} (hl : Linked f f' parent c P C)
    (h : f.SealsDown) : f'.SealsDown := by
  intro q Q' d D' hQ' hsealed hD' hparent
  rw [hl.after] at hQ' hD'
  obtain ⟨Q, hQ, rfl⟩ := Option.map_eq_some_iff.mp hQ'
  obtain ⟨D, hD, rfl⟩ := Option.map_eq_some_iff.mp hD'
  by_cases hdc : d = c
  -- the new parent of the child is not sealed
  · have hq : parent = q := by simpa [relinked, hdc] using hparent
    rw [← hq, hl.parentNode] at hQ
    cases hQ
    exact absurd hl.unsealed (by simpa [relinked] using hsealed)
  · show D.isSealed = true
    refine h hQ hsealed hD ?_
    simp only [relinked, if_neg hdc] at hparent
    split at hparent
    · cases hparent
    · exact hparent

theorem SealsDown.sealUnder (hwf : f.WellFormed) (hg : f.Grounded) (h : f.SealsDown)
    (top : NodeId) : (f.sealUnder top).SealsDown := by
  intro p P' c C' hP' hsealed hC' hparent
  rw [node?_sealUnder] at hP' hC'
  obtain ⟨P, hP, rfl⟩ := Option.map_eq_some_iff.mp hP'
  obtain ⟨C, hC, rfl⟩ := Option.map_eq_some_iff.mp hC'
  have hparent : C.parent = some p := by
    split at hparent <;> exact hparent
  by_cases hc : f.isUnder c top = true
  · rw [if_pos hc]
  · rw [if_neg hc]
    -- the parent does not stand under the top either, so it was sealed before
    have hp : ¬ f.isUnder p top = true := fun hunder =>
      hc (isUnder_child hwf hg (by rw [parentOf, hC]; exact hparent) hunder)
    rw [if_neg hp] at hsealed
    exact h hP hsealed hC hparent

theorem sealsDown_step (hwf : f.WellFormed) (hg : f.Grounded) (h : f.SealsDown) (hs : Step f f') :
    f'.SealsDown := by
  cases hs with
  | add run hd =>
    intro p P c C hP hsealed hC hparent
    rw [node?_add] at hP hC
    split at hC
    · cases hC
      cases hparent
    · split at hP
      · cases hP
        cases hsealed
      · exact h hP hsealed hC hparent
  | child hreg =>
    obtain ⟨c, P, C, -, hl⟩ := linked_of_registerChild hreg
    exact hl.sealsDown h
  | parameter hreg =>
    obtain ⟨p', -, hnode⟩ := node?_registerParameter hreg
    intro p P' c C' hP' hsealed hC' hparent
    rw [hnode] at hP' hC'
    obtain ⟨P, hP, rfl⟩ := Option.map_eq_some_iff.mp hP'
    obtain ⟨C, hC, rfl⟩ := Option.map_eq_some_iff.mp hC'
    have hkept := h hP (by split at hsealed <;> exact hsealed) hC
      (by split at hparent <;> exact hparent)
    split <;> exact hkept
  | sealed top => exact h.sealUnder hwf hg top

/-- **In every forest that can be built, what hangs under a sealed node is sealed.** -/
theorem Reachable.sealsDown (h : f.Reachable) : f.SealsDown := by
  induction h with
  | start =>
    intro p P c C hP
    cases hP
  | step hr hs ih => exact sealsDown_step hr.wellFormed hr.grounded ih hs

end CommandTree.Forest
