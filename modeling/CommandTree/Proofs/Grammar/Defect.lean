import CommandTree.Proofs.Forest.Lineage
import CommandTree.Proofs.Grammar.Built

/-!
# Trees that cannot be compiled

A node keeps its tree from being compiled if one of its parameters is greedy and not the last one,
or if its first parameter is named like a child or an alias of a child. Nothing else does. What is
compiled for a node is held against the words of its children, of which some are redirecting and
some have replaced others; all that counts is whether a child answers to the name.

* `answering_eq_nil_iff`: no child answers to a word exactly if none has it for a name or an alias
* `addNode_decides`: what is compiled for a node, or the defect of the node
* `addTree_decides`: a tree is compiled exactly if none of its nodes has a defect
* `compile_decides`: a command is compiled, or an error names a defect under it
-/

namespace CommandTree

open Text

namespace Forest

variable {f : Forest} {n : NodeId}

/-- What keeps a node from being compiled, as it is told. -/
inductive Defect (f : Forest) (n : NodeId) : DeclarationFault → Prop
  | greedyNotLast {N : Node} {before after : List Parameter} {p q : Parameter}
      (hN : f.node? n = some N) (hp : N.parameters.items = before ++ p :: q :: after)
      (hgreedy : p.greedy = true) : Defect f n (.greedyNotLast p.name.text (f.usageOf n))
  | clash {N C : Node} {p : Parameter} {ps : List Parameter} {c : NodeId}
      (hN : f.node? n = some N) (hp : N.parameters.items = p :: ps)
      (hc : c ∈ N.children.items) (hC : f.node? c = some C)
      (hmatch : C.matchesWord p.name.text = true) : Defect f n (.clash p.name.text (f.usageOf n))

/-- No child answers to a word exactly if none has it for a name or an alias. -/
theorem answering_eq_nil_iff (hwf : f.WellFormed) {N : Node} (hN : f.node? n = some N)
    (word : String) : f.answering n (lowercase word) = [] ↔
      ∀ c ∈ N.children.items, ∀ C, f.node? c = some C → C.matchesWord word = false := by
  rw [← List.head?_eq_none_iff, ← resolve_eq_head? hwf, resolve, hN]
  dsimp only
  cases hget : N.children.get? (lowercase word) with
  | some c =>
    obtain ⟨C, hC, -, hkey, -⟩ := hwf.child hN hget
    have hmatch : C.matchesWord word = true := Node.matchesWord_key hkey.symm
    refine ⟨fun h => (by cases h), fun hnone => ?_⟩
    rw [hnone c (Catalog.mem_items_iff_get?.mpr ⟨_, hget⟩) C hC] at hmatch
    cases hmatch
  | none =>
    rw [List.find?_eq_none]
    simp [Option.any_eq_true]

theorem not_defect_iff {N : Node} (hN : f.node? n = some N) :
    (∀ d, ¬ f.Defect n d) ↔
      (∀ before p q after, N.parameters.items = before ++ p :: q :: after → p.greedy = false) ∧
        ∀ p ps, N.parameters.items = p :: ps → ∀ c ∈ N.children.items, ∀ C,
          f.node? c = some C → C.matchesWord p.name.text = false := by
  constructor
  · intro hnone
    refine ⟨fun before p q after hp => ?_, fun p ps hp c hc C hC => ?_⟩
    · exact Bool.eq_false_iff.mpr fun hgreedy => hnone _ (.greedyNotLast hN hp hgreedy)
    · exact Bool.eq_false_iff.mpr fun hmatch => hnone _ (.clash hN hp hc hC hmatch)
  · rintro ⟨hchain, hwords⟩ d hd
    cases hd with
    | greedyNotLast hN' hp hgreedy =>
      rw [hN] at hN'
      cases hN'
      rw [hchain _ _ _ _ hp] at hgreedy
      cases hgreedy
    | clash hN' hp hc hC hmatch =>
      rw [hN] at hN'
      cases hN'
      rw [hwords _ _ hp _ hc _ hC] at hmatch
      cases hmatch

end Forest

namespace Grammar

variable {g g' : Grammar} {f : Forest} {made : BranchId}

/-- Whether something comes about exactly where no node of some has a defect, and otherwise an error
names a defect of one of them. -/
def Decides {α : Type} (f : Forest) (ids : List NodeId) (result : Except Fault α) : Prop :=
  ((∃ a, result = .ok a) ∧ ∀ n ∈ ids, ∀ d, ¬ f.Defect n d) ∨
    ∃ n ∈ ids, ∃ d, f.Defect n d ∧ result = .error (.declaration d)

theorem Decides.cons {α : Type} {result : Except Fault α} {n : NodeId} {ids : List NodeId}
    (h : Decides f [n] result) (hnone : ∀ m ∈ ids, ∀ d, ¬ f.Defect m d) :
    Decides f (n :: ids) result := by
  rcases h with ⟨hok, hnone'⟩ | ⟨m, hm, d, hd, herror⟩
  · refine Or.inl ⟨hok, fun m hm => ?_⟩
    rcases List.mem_cons.mp hm with rfl | hm
    · exact hnone' m (List.mem_singleton_self m)
    · exact hnone m hm
  · exact Or.inr ⟨m, List.mem_cons.mpr (Or.inl (List.mem_singleton.mp hm)), d, hd, herror⟩

/-! ## Nodes -/

/-- A chain of slots is added unless a parameter is greedy that is not the last one. -/
theorem addChain_decides (usage : String) (callback : Callback) :
    ∀ (p : Parameter) (ps : List Parameter) (g : Grammar),
      ((∃ a, g.addChain usage callback (p :: ps) = .ok a) ∧
          ∀ before q r after, p :: ps = before ++ q :: r :: after → q.greedy = false) ∨
        ∃ before q r after, p :: ps = before ++ q :: r :: after ∧ q.greedy = true ∧
          g.addChain usage callback (p :: ps)
            = .error (.declaration (.greedyNotLast q.name.text usage))
  | p, [], g => by
    refine Or.inl ⟨⟨_, rfl⟩, fun before q r after h => ?_⟩
    have hlength := congrArg List.length h
    simp only [List.length_append, List.length_cons, List.length_nil] at hlength
    omega
  | p, next :: rest, g => by
    rw [addChain]
    by_cases hgreedy : p.greedy = true
    · rw [if_pos hgreedy]
      exact Or.inr ⟨[], p, next, rest, rfl, hgreedy, rfl⟩
    · rw [if_neg hgreedy]
      rcases addChain_decides usage callback next rest g with
        ⟨⟨⟨g₁, s⟩, hs⟩, hnone⟩ | ⟨before, q, r, after, hps, hq, herror⟩
      · rw [hs]
        refine Or.inl ⟨⟨_, rfl⟩, fun before q r after h => ?_⟩
        cases before with
        | nil =>
          cases h
          exact Bool.eq_false_iff.mpr hgreedy
        | cons first before => exact hnone before q r after (List.cons.inj h).2
      · rw [herror]
        exact Or.inr ⟨p :: before, q, r, after, by rw [hps]; rfl, hq, rfl⟩

/-- **What is compiled for a node, or the defect of the node.** -/
theorem addNode_decides (hwf : f.WellFormed) (hm : made ≤ g.size) {n : NodeId} {N : Node}
    (hN : f.node? n = some N) {compiled : List CompiledChild}
    (hc : g.CompiledFor f made N.children.items compiled) :
    Decides f [n] (g.addNode f n N compiled) := by
  have hwords := childrenFor_addAliases hwf hm hN hc
  rw [addNode]
  generalize g.addAliases (childWords compiled) (aliasesOf N.children.keys compiled) = added
    at hwords
  obtain ⟨g₁, words⟩ := added
  dsimp only at hwords ⊢
  cases hp : N.parameters.items with
  | nil =>
    refine Or.inl ⟨⟨_, rfl⟩, fun m hm => ?_⟩
    rw [List.mem_singleton.mp hm, Forest.not_defect_iff hN, hp]
    exact ⟨fun before p q after h => (by simp at h), fun p ps h => (by cases h)⟩
  | cons p ps =>
    dsimp only
    have hanswering : words.contains p.key = false ↔ _ :=
      (hwords.contains_iff p.key).trans (Forest.answering_eq_nil_iff hwf hN p.name.text)
    cases hcontains : words.contains p.key with
    | true =>
      have hclash : ∃ c ∈ N.children.items, ∃ C, f.node? c = some C ∧
          C.matchesWord p.name.text = true := by
        by_contra hnone
        rw [hanswering.mpr fun c hc C hC => Bool.eq_false_iff.mpr fun hmatch =>
          hnone ⟨c, hc, C, hC, hmatch⟩] at hcontains
        cases hcontains
      obtain ⟨c, hc, C, hC, hmatch⟩ := hclash
      exact Or.inr ⟨n, List.mem_singleton_self n, _, .clash hN hp hc hC hmatch, rfl⟩
    | false =>
      rw [if_neg Bool.false_ne_true]
      rcases addChain_decides (f.usageOf n) (f.runnerOf n) p ps g₁ with
        ⟨⟨⟨g₂, s⟩, hs⟩, hchain⟩ | ⟨before, q, r, after, hps, hgreedy, herror⟩
      · rw [show Callback.dispatch n (f.runnerName n) = f.runnerOf n from rfl, hs]
        refine Or.inl ⟨⟨_, rfl⟩, fun m hm => ?_⟩
        rw [List.mem_singleton.mp hm, Forest.not_defect_iff hN, hp]
        refine ⟨hchain, fun p' ps' h => ?_⟩
        cases h
        exact hanswering.mp hcontains
      · rw [show Callback.dispatch n (f.runnerName n) = f.runnerOf n from rfl, herror]
        exact Or.inr ⟨n, List.mem_singleton_self n, _,
          .greedyNotLast hN (hp.trans hps) hgreedy, rfl⟩

/-! ## Trees -/

mutual

/-- **A tree is compiled exactly if none of its nodes has a defect.** -/
theorem addTree_decides (hwf : f.WellFormed) :
    ∀ (t : Tree) {g : Grammar}, made ≤ g.size → t.Shows f →
      Decides f t.ids (addTree f g t)
  | .branch id node children, g, hm, hshow => by
    obtain ⟨hnode, hids, hshows⟩ := hshow
    rw [addTree, Tree.ids]
    rcases addTrees_decides hwf children hm hshows with
      ⟨⟨⟨g₁, compiled⟩, hts⟩, hnone⟩ | ⟨n, hn, d, hd, herror⟩
    · have hm₁ := Nat.le_trans hm (kept_addTrees made children hts).size
      have hcompiled := compiledFor_addTrees hm hshows hts
      rw [hids] at hcompiled
      rw [hts]
      exact (addNode_decides hwf hm₁ hnode hcompiled).cons hnone
    · rw [herror]
      exact Or.inr ⟨n, List.mem_cons_of_mem _ hn, d, hd, rfl⟩

theorem addTrees_decides (hwf : f.WellFormed) :
    ∀ (ts : List Tree) {g : Grammar}, made ≤ g.size → Tree.AllShow f ts →
      Decides f (Tree.idsOf ts) (addTrees f g ts)
  | [], g, _, _ => Or.inl ⟨⟨_, rfl⟩, fun n hn => by rw [Tree.idsOf] at hn; cases hn⟩
  | t :: ts, g, hm, hshow => by
    rw [addTrees, Tree.idsOf]
    rcases addTree_decides hwf t hm hshow.1 with
      ⟨⟨⟨g₁, w⟩, ht⟩, hnone⟩ | ⟨n, hn, d, hd, herror⟩
    · have hm₁ := Nat.le_trans hm (kept_addTree made t ht).size
      rw [ht]
      dsimp only
      rcases addTrees_decides hwf ts hm₁ hshow.2 with
        ⟨⟨⟨g₂, rest⟩, hts⟩, hnone'⟩ | ⟨n, hn, d, hd, herror⟩
      · rw [hts]
        refine Or.inl ⟨⟨_, rfl⟩, fun n hn => ?_⟩
        rcases List.mem_append.mp hn with hn | hn
        · exact hnone n hn
        · exact hnone' n hn
      · rw [herror]
        exact Or.inr ⟨n, List.mem_append_right _ hn, d, hd, rfl⟩
    · rw [herror]
      exact Or.inr ⟨n, List.mem_append_left _ hn, d, hd, rfl⟩

end

/-! ## Commands -/

/-- **A command is compiled, or an error names a defect under it.** -/
theorem compile_decides (hf : f.Reachable) (g : Grammar) {root : NodeId} {R : Node}
    (hR : f.node? root = some R) (hrole : R.role = .root) (refusal : UseFault) :
    (∃ g' word, g.compile f (some root) refusal = .ok (g', f.sealUnder root, word) ∧
        ∀ n d, root ∈ f.pathOf n → ¬ f.Defect n d) ∨
      ∃ n d, root ∈ f.pathOf n ∧ f.Defect n d ∧
        g.compile f (some root) refusal = .error (.declaration d) := by
  have hwf := hf.wellFormed
  obtain ⟨t, ht⟩ := Forest.treeOf_isSome hwf hf.grounded hR
  have hmem : ∀ n, n ∈ t.ids ↔ root ∈ f.pathOf n := fun n =>
    (Forest.mem_ids_iff hwf hf.grounded ht).trans List.contains_iff_mem
  rw [compile_of_root hR hrole, addSubtree, ht]
  dsimp only
  rcases addTree_decides hwf t (Nat.le_refl g.size)
    (Forest.shows_of_treeOf ht) with ⟨⟨⟨g', word⟩, hadd⟩, hnone⟩ | ⟨n, hn, d, hd, herror⟩
  · rw [hadd]
    exact Or.inl ⟨g', word, rfl, fun n d hn => hnone n ((hmem n).mpr hn) d⟩
  · rw [herror]
    exact Or.inr ⟨n, d, (hmem n).mp hn, hd, rfl⟩

end Grammar

end CommandTree
