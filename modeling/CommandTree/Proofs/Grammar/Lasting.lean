import CommandTree.Proofs.Forest.Frozen
import CommandTree.Proofs.Grammar.Built

/-!
# Words that last

What a command was compiled to stays right for as long as the nodes do not change, and they do not:
they are frozen when the command is compiled. So, while a forest is built further and other commands
are compiled, every word remains the word of its node, with what belongs under it.

* `AllShaped.transport`: where nodes look the same, shapes are the same
* `Lasts.step`, `Lasts.compile`: words last when a forest is built further and compiled
-/

namespace CommandTree

/-! ## Nodes that look the same -/

/-- Whether a node is the same in two forests, but for its seal, and is run by the same. -/
structure Forest.SameAt (f f' : Forest) (n : NodeId) : Prop where
  node : ∃ N b, f.node? n = some N ∧ f'.node? n = some { N with isSealed := b }
  runner : f'.runnerOf n = f.runnerOf n

/-- Whether no node of a forest says anything else about itself in another one. -/
def Forest.Describes (f f' : Forest) : Prop :=
  ∀ n N, f.node? n = some N → ∃ N', f'.node? n = some N' ∧ N'.toDescription = N.toDescription

theorem Forest.SameAt.answering {f f' : Forest} (hwf : f.WellFormed) (hdesc : f.Describes f')
    {n : NodeId} (h : f.SameAt f' n) (key : String) : f'.answering n key = f.answering n key := by
  obtain ⟨N, b, hN, hN'⟩ := h.node
  rw [Forest.answering, Forest.answering, hN, hN']
  dsimp only
  cases hget : N.children.get? key with
  | some c => rfl
  | none =>
    refine List.filter_congr fun c hc => ?_
    obtain ⟨k, hk⟩ := Catalog.mem_items_iff_get?.mp hc
    obtain ⟨C, hC, -⟩ := hwf.child hN hk
    obtain ⟨C', hC', hsame⟩ := hdesc c C hC
    have haliases : C'.aliases = C.aliases := congrArg Description.aliases hsame
    rw [Forest.hasAlias, Forest.hasAlias, hC, hC', Option.any_some, Option.any_some, haliases]

theorem Forest.sameAt_sealUnder {f : Forest} {n : NodeId} {N : Node} (hN : f.node? n = some N)
    (top : NodeId) : f.SameAt (f.sealUnder top) n where
  node := by
    obtain ⟨b, hb⟩ := Forest.node?_of_sealUnder hN top
    exact ⟨N, b, hN, hb⟩
  runner := congrArg (Callback.dispatch n) (f.runnerName_sealUnder top n)

theorem Forest.Frozen.sameAt {f f' : Forest} (hwf : f.WellFormed) (hs : Step f f') {n : NodeId}
    {N : Node} (h : f.Frozen n) (hN : f.node? n = some N) : f.SameAt f' n where
  node := ⟨N, N.isSealed, hN, (h.node?_step hwf hs).trans hN⟩
  runner := congrArg (Callback.dispatch n) (h.runnerName_step hwf hs)

namespace Grammar

variable {g g' : Grammar} {f f' : Forest} {made : BranchId}

theorem IsWordOf.transport {n : NodeId} {b : BranchId} (h : g.IsWordOf f made n b)
    (hsame : f.SameAt f' n) : g.IsWordOf f' made n b := by
  obtain ⟨hm, N, B, hN, hB, hk, hcall⟩ := h
  obtain ⟨N', s, hN', hN''⟩ := hsame.node
  rw [hN] at hN'
  cases hN'
  exact ⟨hm, _, B, hN'', hB, hk, hcall.trans (congrArg some hsame.runner.symm)⟩

theorem ChildrenFor.transport (hwf : f.WellFormed) (hdesc : f.Describes f') {n : NodeId}
    {parameters : List Parameter} {children : Catalog BranchId}
    (h : g.ChildrenFor f made n parameters children) (hsame : f.SameAt f' n)
    (hwords : ∀ {m b}, g.IsWordOf f made m b → f.SameAt f' m) :
    g.ChildrenFor f' made n parameters children where
  answered := fun hc => by
    rw [hsame.answering hwf hdesc] at hc
    obtain ⟨b, hb, hw⟩ := h.answered hc
    exact ⟨b, hb, hw.transport (hwords hw)⟩
  slot := fun hp => by
    rw [hsame.answering hwf hdesc, hsame.runner]
    exact h.slot hp
  other := fun hnone => by
    rw [hsame.answering hwf hdesc] at hnone
    exact h.other hnone

/-- Where all plain words are those of nodes that look the same, their shapes are the same. -/
theorem AllShaped.transport (hwf : f.WellFormed) (hdesc : f.Describes f') (h : g.AllShaped f made)
    (hwords : ∀ {b B name}, made ≤ b → g.branch? b = some B → B.kind = .word name none →
      ∃ n, f.SameAt f' n ∧ g.IsWordOf f made n b) : g.AllShaped f' made := by
  have hsame : ∀ {m b}, g.IsWordOf f made m b → f.SameAt f' m := by
    intro m b hb
    obtain ⟨hm, M, B, -, hB, hk, -⟩ := id hb
    obtain ⟨m', hsame, hb'⟩ := hwords hm hB hk
    exact hb.inj hb' ▸ hsame
  intro n b hlater
  obtain ⟨hm, N', B, hN', hB, hk, -⟩ := id hlater
  obtain ⟨n', hsame', hb⟩ := hwords hm hB hk
  -- the word calls what runs the node, so there is only one node that it can be the word of
  obtain rfl : n = n' := hlater.inj (hb.transport hsame')
  obtain ⟨N, B', hN, hB', hchildren⟩ := h n b hb
  obtain ⟨N'', s, hN'', hSealed⟩ := hsame'.node
  rw [hN] at hN''
  cases hN''
  rw [hN'] at hSealed
  cases hSealed
  exact ⟨_, B', hN', hB', hchildren.transport hwf hdesc hsame' hsame⟩

/-! ## Words that last -/

/-- Whether all plain words, from a place on, are those of nodes that are frozen, and are shaped as
they should be. -/
structure Lasts (g : Grammar) (f : Forest) (made : BranchId) : Prop where
  shaped : g.AllShaped f made
  words : ∀ {b B name}, made ≤ b → g.branch? b = some B → B.kind = .word name none →
    ∃ n, f.Frozen n ∧ g.IsWordOf f made n b

theorem lasts_size (g : Grammar) (f : Forest) : g.Lasts f g.size where
  shaped := allShaped_size g f
  words := fun hm hB _ => absurd hm (Nat.not_le_of_lt (branch?_lt hB))

theorem Lasts.grows (h : g.Lasts f made) (hg : Grows made g g') : g'.Lasts f made where
  shaped := h.shaped.grows hg
  words := fun hm hB hk => by
    obtain ⟨n, hfrozen, hw⟩ := h.words hm (hg.word hm hB hk) hk
    exact ⟨n, hfrozen, hw.mono hg.toKept⟩

theorem Lasts.frozen (h : g.Lasts f made) {n : NodeId} {b : BranchId} (hb : g.IsWordOf f made n b) :
    f.Frozen n := by
  obtain ⟨hm, N, B, -, hB, hk, -⟩ := id hb
  obtain ⟨n', hfrozen, hb'⟩ := h.words hm hB hk
  exact hb.inj hb' ▸ hfrozen

theorem IsWordOf.step (hwf : f.WellFormed) (hs : f.Step f') {n : NodeId} {b : BranchId}
    (h : g.IsWordOf f made n b) (hfrozen : f.Frozen n) : g.IsWordOf f' made n b := by
  obtain ⟨-, N, -, hN, -⟩ := id h
  exact h.transport (hfrozen.sameAt hwf hs hN)

/-- **Words last when a forest is built further.** -/
theorem Lasts.step (hwf : f.WellFormed) (hs : f.Step f') (h : g.Lasts f made) :
    g.Lasts f' made where
  shaped := h.shaped.transport hwf (fun _ _ => Forest.description_step hs) fun hm hB hk => by
    obtain ⟨n, hfrozen, hw⟩ := h.words hm hB hk
    obtain ⟨-, N, -, hN, -⟩ := id hw
    exact ⟨n, hfrozen.sameAt hwf hs hN, hw⟩
  words := fun hm hB hk => by
    obtain ⟨n, hfrozen, hw⟩ := h.words hm hB hk
    exact ⟨n, hfrozen.step hwf hs, hw.step hwf hs hfrozen⟩

/-- **Words last when a command is compiled**, and so does the word that it is compiled to. -/
theorem Lasts.compile (hwf : f.WellFormed) (h : g.Lasts f made) (hm : made ≤ g.size) {root : NodeId}
    {refusal : UseFault} {word : BranchId}
    (hc : g.compile f (some root) refusal = .ok (g', f', word)) :
    g'.Lasts f' made ∧ g'.IsWordOf f' made root word := by
  obtain ⟨⟨R, hR, hrole⟩, hadd, rfl⟩ := compile_eq_ok_iff.mp hc
  rw [addSubtree] at hadd
  cases ht : f.treeOf root with
  | none =>
    rw [ht] at hadd
    cases hadd
  | some t =>
    rw [ht] at hadd
    obtain ⟨hid, hshow⟩ := Forest.shows_of_treeWithin ht
    have hbuilds := addTree_builds t hm hshow hadd
    have hw := isWordOf_addTree hm hshow hadd
    rw [hid] at hw
    have hseal : ∀ {n b}, g'.IsWordOf f made n b → f.SameAt (f.sealUnder root) n := by
      intro n b hb
      obtain ⟨-, N, -, hN, -⟩ := hb
      exact Forest.sameAt_sealUnder hN root
    -- a plain word was there before, or it is that of a node of the tree, which is sealed now
    have hwords : ∀ {b B name}, made ≤ b → g'.branch? b = some B → B.kind = .word name none →
        ∃ n, (f.sealUnder root).Frozen n ∧ g'.IsWordOf f made n b := by
      intro b B name hb hB hk
      rcases hbuilds.words b B name hb hB hk with hold | ⟨n, hn, hb'⟩
      · obtain ⟨n, hfrozen, hb'⟩ := h.words hb hold hk
        exact ⟨n, hfrozen.step hwf (.sealed f root), hb'.mono hbuilds.kept⟩
      · exact ⟨n, Forest.frozen_sealUnder hwf hR hrole ht hn, hb'⟩
    refine ⟨⟨?_, fun hb hB hk => ?_⟩, hw.transport (hseal hw)⟩
    · refine (hbuilds.shaped hwf h.shaped).transport hwf
        (fun _ _ => Forest.description_step (.sealed f root)) fun hb hB hk => ?_
      obtain ⟨n, -, hb'⟩ := hwords hb hB hk
      exact ⟨n, hseal hb', hb'⟩
    · obtain ⟨n, hfrozen, hb'⟩ := hwords hb hB hk
      exact ⟨n, hfrozen, hb'.transport (hseal hb')⟩

end Grammar

end CommandTree
