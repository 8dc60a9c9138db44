import CommandTree.Grammar.Compiled
import CommandTree.Proofs.Forest.Tree
import CommandTree.Proofs.Grammar.Growth

/-!
# The shape of compiled trees

The word of a node has under it, for each key that a child of the node answers to, a word that
stands for the word of that child, and beside these the first slot of the chain of its parameters.
Where several children answer to a key, the word stands for the last of them.

Everything is said of the branches from a place on, so that it stays true of a grammar that already
held others.

* `AllShaped.grows`: the shape stays while the grammar grows
* `IsWordOf.inj`: a branch is the word of one node only
* `AllShaped.children`: what stands under the word of a node
-/

namespace CommandTree

open Text

/-- What runs a node. -/
def Forest.runnerOf (f : Forest) (n : NodeId) : Callback := .dispatch n (f.runnerName n)

namespace Grammar

/-- Whether a branch, no earlier than a place, is the word that a node was compiled to. -/
def IsWordOf (g : Grammar) (f : Forest) (made : BranchId) (n : NodeId) (b : BranchId) : Prop :=
  made ≤ b ∧ ∃ N B, f.node? n = some N ∧ g.branch? b = some B ∧ B.kind = .word N.name none ∧
    B.callback = some (f.runnerOf n)

/-- Whether a word is kept under its key that is a given branch or redirects to it. -/
def WordAt (g : Grammar) (made : BranchId) (children : Catalog BranchId) (key : String)
    (b : BranchId) : Prop :=
  ∃ c C name redirect, children.get? key = some c ∧ made ≤ c ∧ g.branch? c = some C ∧
    C.kind = .word name redirect ∧ name.key = key ∧ redirect.getD c = b

/-- Whether a branch is the first of the slots of parameters, each of which calls a callback. -/
def IsChain (g : Grammar) (made : BranchId) (callback : Callback) :
    List Parameter → BranchId → Prop
  | [], _ => False
  | [p], b => made ≤ b ∧
    g.branch? b = some ⟨.slot p.name (.ofDomain p.domain), .empty, some callback⟩
  | p :: q :: rest, b => made ≤ b ∧ p.greedy = false ∧ ∃ s, IsChain g made callback (q :: rest) s ∧
    g.branch? b
      = some ⟨.slot p.name (.ofDomain p.domain), Catalog.empty.put q.key s, some callback⟩

/-- Whether branches are those that belong under the word of a node with parameters. -/
structure ChildrenFor (g : Grammar) (f : Forest) (made : BranchId) (n : NodeId)
    (parameters : List Parameter) (children : Catalog BranchId) : Prop where
  /-- Under a key that children answer to there is a word for the last of them. -/
  answered : ∀ {key c}, (f.answering n key).getLast? = some c →
    ∃ b, g.WordAt made children key b ∧ g.IsWordOf f made c b
  /-- No child answers to the key of the first parameter, which has its slot there. -/
  slot : ∀ {p ps}, parameters = p :: ps → f.answering n p.key = [] ∧
    ∃ s, children.get? p.key = some s ∧ g.IsChain made (f.runnerOf n) (p :: ps) s
  /-- There is nothing else. -/
  other : ∀ {key}, f.answering n key = [] → (∀ p ps, parameters = p :: ps → key ≠ p.key) →
    children.get? key = none

/-- Whether a branch has under it what belongs under the word of a node. -/
def Shaped (g : Grammar) (f : Forest) (made : BranchId) (n : NodeId) (b : BranchId) : Prop :=
  ∃ N B, f.node? n = some N ∧ g.branch? b = some B ∧
    g.ChildrenFor f made n N.parameters.items B.children

/-- Whether all words of nodes, from a place on, are shaped as they should be. -/
def AllShaped (g : Grammar) (f : Forest) (made : BranchId) : Prop :=
  ∀ n b, g.IsWordOf f made n b → g.Shaped f made n b

variable {g g' : Grammar} {f : Forest} {made : BranchId}

/-! ## Shapes stay while the grammar grows -/

theorem IsWordOf.mono {n : NodeId} {b : BranchId} (h : g.IsWordOf f made n b)
    (hk : Kept made g g') : g'.IsWordOf f made n b := by
  obtain ⟨hm, N, B, hN, hB, hrest⟩ := h
  exact ⟨hm, N, B, hN, hk.branch hm hB, hrest⟩

theorem WordAt.mono {children : Catalog BranchId} {key : String} {b : BranchId}
    (h : g.WordAt made children key b) (hk : Kept made g g') : g'.WordAt made children key b := by
  obtain ⟨c, C, name, redirect, hget, hm, hC, hrest⟩ := h
  exact ⟨c, C, name, redirect, hget, hm, hk.branch hm hC, hrest⟩

theorem IsChain.mono {callback : Callback} (hk : Kept made g g') :
    ∀ {ps : List Parameter} {b : BranchId}, g.IsChain made callback ps b →
      g'.IsChain made callback ps b
  | [], _, h => h
  | [_], _, h => ⟨h.1, hk.branch h.1 h.2⟩
  | _ :: _ :: _, _, ⟨hm, hgreedy, s, hs, hb⟩ =>
    ⟨hm, hgreedy, s, IsChain.mono hk hs, hk.branch hm hb⟩

theorem ChildrenFor.mono {n : NodeId} {parameters : List Parameter} {children : Catalog BranchId}
    (h : g.ChildrenFor f made n parameters children) (hk : Kept made g g') :
    g'.ChildrenFor f made n parameters children where
  answered := fun hc => by
    obtain ⟨b, hb, hw⟩ := h.answered hc
    exact ⟨b, hb.mono hk, hw.mono hk⟩
  slot := fun hp => by
    obtain ⟨hnone, s, hs, hchain⟩ := h.slot hp
    exact ⟨hnone, s, hs, hchain.mono hk⟩
  other := h.other

theorem Shaped.mono {n : NodeId} {b : BranchId} (h : g.Shaped f made n b) (hm : made ≤ b)
    (hk : Kept made g g') : g'.Shaped f made n b := by
  obtain ⟨N, B, hN, hB, hc⟩ := h
  exact ⟨N, B, hN, hk.branch hm hB, hc.mono hk⟩

theorem AllShaped.grows (h : g.AllShaped f made) (hg : Grows made g g') : g'.AllShaped f made := by
  rintro n b ⟨hm, N, B, hN, hB, hk, hc⟩
  have hold : g.branch? b = some B := hg.word hm hB hk
  exact (h n b ⟨hm, N, B, hN, hold, hk, hc⟩).mono hm hg.toKept

theorem allShaped_size (g : Grammar) (f : Forest) : g.AllShaped f g.size := by
  rintro n b ⟨hm, N, B, hN, hB, -⟩
  exact absurd hm (Nat.not_le_of_lt (branch?_lt hB))

/-! ## Words of nodes -/

theorem IsWordOf.redirect?_none {n : NodeId} {b : BranchId} (h : g.IsWordOf f made n b) :
    ∃ B, g.branch? b = some B ∧ B.redirect? = none := by
  obtain ⟨-, N, B, -, hB, hk, -⟩ := h
  exact ⟨B, hB, by rw [Branch.redirect?, hk]⟩

theorem IsWordOf.target {n : NodeId} {b : BranchId} (h : g.IsWordOf f made n b) :
    g.target b = b := by
  obtain ⟨B, hB, hr⟩ := h.redirect?_none
  exact target_of_redirect?_none hB hr

theorem IsWordOf.callbackOf {n : NodeId} {b : BranchId} (h : g.IsWordOf f made n b) :
    g.callbackOf b = some (f.runnerOf n) := by
  rw [Grammar.callbackOf, h.target]
  obtain ⟨-, N, B, -, hB, -, hc⟩ := h
  rw [hB, Option.bind_some, hc]

/-- A branch is the word of one node only. -/
theorem IsWordOf.inj {n m : NodeId} {b : BranchId} (hn : g.IsWordOf f made n b)
    (hm : g.IsWordOf f made m b) : n = m := by
  have hcall := hn.callbackOf.symm.trans hm.callbackOf
  cases hcall
  rfl

theorem AllShaped.children (h : g.AllShaped f made) {n : NodeId} {b : BranchId}
    (hb : g.IsWordOf f made n b) :
    ∃ N, f.node? n = some N ∧
      g.ChildrenFor f made n N.parameters.items (g.childrenOf b) := by
  obtain ⟨N, B, hN, hB, hc⟩ := h n b hb
  refine ⟨N, hN, ?_⟩
  rw [childrenOf, hb.target, hB]
  exact hc

end Grammar

end CommandTree
