import CommandTree.Proofs.Forest.Lineage
import CommandTree.Proofs.Grammar.Resolution
import CommandTree.Proofs.Parameter.Agreement

/-!
# The layout of compiled trees

Each node of a compiled tree has one word of its own. Under that word stand the words of the
children, the redirecting words of their aliases and the first slot of the parameters, and nothing
else. They are put there one after the other under their keys, and none takes the place of another
one that is needed: an alias that is a child's name is left out, and where the first slot would take
the place of a word the tree is not compiled at all. Only of several aliases with one key just the
last one stays.

* `laidOut_addAliases`: the words under a node, before the slots of its parameters are added
* `LaidOut.put_slot`: the first slot is put where nothing was
* `BuiltFor.laidOut`: a word that was built has under it what its node asks for
* `compile_laidOut`: the layout of a compiled tree
-/

namespace CommandTree

open Text

namespace Grammar

/-- Whether branches are laid out under the word of a node as its children and its parameters ask
for, given the word of each child. -/
structure LaidOut (g : Grammar) (f : Forest) (made : BranchId) (wordOf : NodeId → BranchId)
    (n : NodeId) (N : Node) (parameters : List Parameter) (children : Catalog BranchId) :
    Prop where
  /-- Each child has its word under its name. -/
  child : ∀ {c C}, c ∈ N.children.items → f.node? c = some C →
    children.get? C.key = some (wordOf c)
  /-- Under an alias that is no child's name there is a word that redirects to the word of the last
  child with that alias. -/
  redirected : ∀ {key c}, key ∉ N.children.keys →
    (N.children.items.filter (f.hasAlias key)).getLast? = some c →
    ∃ C a x, f.node? c = some C ∧ a ∈ C.aliases ∧ a.key = key ∧ children.get? key = some x ∧
      made ≤ x ∧ g.branch? x = some (.bare (.word a (some (wordOf c))))
  /-- Under the name of the first parameter there is the first slot of the chain. -/
  chain : ∀ {p ps}, parameters = p :: ps →
    ∃ s, children.get? p.key = some s ∧ g.IsChain made (f.runnerOf n) (p :: ps) s
  /-- There is nothing else. -/
  only : ∀ {key b}, children.get? key = some b →
    (∃ c C, c ∈ N.children.items ∧ f.node? c = some C ∧ C.key = key) ∨
      (∃ c ∈ N.children.items, f.hasAlias key c = true) ∨
        ∃ p ps, parameters = p :: ps ∧ p.key = key

variable {g g' : Grammar} {f f' : Forest} {made : BranchId} {wordOf : NodeId → BranchId}
  {n : NodeId} {N : Node}

theorem LaidOut.mono {parameters : List Parameter} {children : Catalog BranchId}
    (h : g.LaidOut f made wordOf n N parameters children) (hk : Kept made g g') :
    g'.LaidOut f made wordOf n N parameters children where
  child := h.child
  redirected := fun hnew hlast => by
    obtain ⟨C, a, x, hC, ha, hkey, hget, hx, hbranch⟩ := h.redirected hnew hlast
    exact ⟨C, a, x, hC, ha, hkey, hget, hx, hk.branch hx hbranch⟩
  chain := fun hp => by
    obtain ⟨s, hs, hchain⟩ := h.chain hp
    exact ⟨s, hs, hchain.mono hk⟩
  only := h.only

/-- The words under a node, before the slots of its parameters are added. -/
theorem laidOut_addAliases (hwf : f.WellFormed) (hm : made ≤ g.size) (hN : f.node? n = some N)
    {compiled : List CompiledChild} (hc : g.CompiledFor f made N.children.items compiled)
    (hone : ∀ {c b}, g.IsWordOf f made c b → b = wordOf c) :
    (g.addAliases (childWords compiled) (aliasesOf N.children.keys compiled)).1.LaidOut f made
      wordOf n N []
      (g.addAliases (childWords compiled) (aliasesOf N.children.keys compiled)).2 where
  child := fun {c C} hmem hC => by
    obtain ⟨key, hget⟩ := Catalog.mem_items_iff_get?.mp hmem
    obtain ⟨C', hC', -, rfl, -⟩ := hwf.child hN hget
    rw [hC] at hC'
    cases hC'
    obtain ⟨w, hword, hw⟩ := addAliases_get?_child hwf hm hN hc hget
    rw [hword, hone hw]
  redirected := fun {key c} hnew hlast => by
    obtain ⟨C, a, x, w, hC, ha, hkey, hw, hx, hmx, hbranch⟩ :=
      addAliases_get?_alias hm hc (Catalog.get?_eq_none_iff.mpr hnew) hlast
    exact ⟨C, a, x, hC, ha, hkey, hx, hmx, hone hw ▸ hbranch⟩
  chain := fun hp => by cases hp
  only := fun {key b} hget => by
    cases hchild : N.children.get? key with
    | some c =>
      obtain ⟨C, hC, -, hkey, -⟩ := hwf.child hN hchild
      exact Or.inl ⟨c, C, Catalog.mem_items_iff_get?.mpr ⟨key, hchild⟩, hC, hkey⟩
    | none =>
      -- a word is there only if a child answers to its key, and that is by an alias
      by_contra hnone
      have hfree : f.answering n key = [] := by
        rw [Forest.answering_of_get?_none hN hchild, List.filter_eq_nil_iff]
        exact fun c hmem halias => hnone (Or.inr (Or.inl ⟨c, hmem, halias⟩))
      have hother := (childrenFor_addAliases hwf hm hN hc).other hfree fun _ _ hp => by cases hp
      rw [hother] at hget
      cases hget

/-- The first slot is put where nothing was. -/
theorem LaidOut.put_slot {words : Catalog BranchId} (h : g.LaidOut f made wordOf n N [] words)
    {p : Parameter} {ps : List Parameter} (hclash : words.contains p.key = false) {s : BranchId}
    (hs : g.IsChain made (f.runnerOf n) (p :: ps) s) :
    g.LaidOut f made wordOf n N (p :: ps) (words.put p.key s) := by
  have hstays : ∀ {key x}, words.get? key = some x → (words.put p.key s).get? key = some x := by
    intro key x hx
    have hne : key ≠ p.key := by
      rintro rfl
      rw [Catalog.contains, hx] at hclash
      cases hclash
    rw [Catalog.get?_put, if_neg hne, hx]
  refine ⟨fun hmem hC => hstays (h.child hmem hC), fun hnew hlast => ?_, fun hp => ?_,
    fun {key b} hget => ?_⟩
  · obtain ⟨C, a, x, hC, ha, hkey, hx, hrest⟩ := h.redirected hnew hlast
    exact ⟨C, a, x, hC, ha, hkey, hstays hx, hrest⟩
  · cases hp
    exact ⟨s, Catalog.get?_put_self .., hs⟩
  · by_cases hkey : key = p.key
    · exact Or.inr (Or.inr ⟨p, ps, rfl, hkey.symm⟩)
    · rw [Catalog.get?_put, if_neg hkey] at hget
      rcases h.only hget with hchild | halias | ⟨q, qs, hq, -⟩
      · exact Or.inl hchild
      · exact Or.inr (Or.inl halias)
      · cases hq

/-- **A word that was built has under it what its node asks for.** -/
theorem BuiltFor.laidOut (hwf : f.WellFormed) {b : BranchId} (h : g.BuiltFor f made n b)
    (hone : ∀ {c b}, g.IsWordOf f made c b → b = wordOf c) :
    ∃ N children, f.node? n = some N ∧
      g.branch? b = some ⟨.word N.name none, children, some (f.runnerOf n)⟩ ∧
      g.LaidOut f made wordOf n N N.parameters.items children := by
  obtain ⟨g₀, g₁, N, compiled, words, children, hm, hN, hc, hr, hkept, hb, hcases⟩ :=
    h.exists_children
  have hkept₀ := (grows_addAliases made (aliasesOf N.children.keys compiled) g₀
    (childWords compiled)).toKept
  rw [hr] at hkept₀
  have hwords := laidOut_addAliases hwf hm hN hc fun hw => hone (hw.mono (hkept₀.trans hkept))
  rw [hr] at hwords
  refine ⟨N, children, hN, hb, ?_⟩
  rcases hcases with ⟨hnil, rfl⟩ | ⟨p, ps, s, hp, hclash, hs, rfl⟩
  · rw [hnil]
    exact hwords.mono hkept
  · rw [hp]
    exact (hwords.mono hkept).put_slot hclash hs

/--
**The layout of a compiled tree.** Each node of the tree has a word, that of the root being the one
that the command is compiled to. It bears the name of the node and runs the node. Under it stand,
each under its key, the words of the children, one word for each alias that is no child's name,
which redirects to the word of the last child with that alias, and the chain of slots of the
parameters, in which each slot is named after its parameter, reads what the parameter ranges over,
runs the node, and has but the next slot under it. There is nothing else under it.

Children are in the order in which they were registered, where one that was registered under a name
in use stands in the place of the one that it replaced.
-/
theorem compile_laidOut (hf : f.Reachable) {root : NodeId} {refusal : UseFault} {word : BranchId}
    (h : g.compile f (some root) refusal = .ok (g', f', word)) :
    ∃ wordOf : NodeId → BranchId, wordOf root = word ∧
      ∀ n, root ∈ f.pathOf n → ∃ N children, f.node? n = some N ∧
        g'.branch? (wordOf n) = some ⟨.word N.name none, children, some (f.runnerOf n)⟩ ∧
        g'.LaidOut f g.size wordOf n N N.parameters.items children := by
  have hwf := hf.wellFormed
  have hcompiled := compiled_of_compile hwf h
  obtain ⟨t, ht, hbuilds⟩ := hcompiled.tree
  have hnodup := Forest.nodup_ids hwf hf.grounded ht
  have hnew : ∀ {n b}, ¬ g.IsWordOf f g.size n b := by
    rintro n b ⟨hb, -, B, -, hB, -⟩
    exact Nat.not_le_of_lt (branch?_lt hB) hb
  have hone : ∀ n, ∃ b, ∀ {b'}, g'.IsWordOf f g.size n b' → b' = b := by
    intro n
    by_cases hn : ∃ b, g'.IsWordOf f g.size n b
    · obtain ⟨b, hb⟩ := hn
      refine ⟨b, fun hb' => ?_⟩
      exact ((hbuilds.once hnodup hb' hb).resolve_left hnew).resolve_left hnew
    · exact ⟨0, fun hb' => absurd ⟨_, hb'⟩ hn⟩
  choose wordOf hwordOf using hone
  refine ⟨wordOf, (hwordOf root hcompiled.word).symm, fun n hn => ?_⟩
  rw [← List.contains_iff_mem] at hn
  obtain ⟨b, hb⟩ := hbuilds.all n ((Forest.mem_ids_iff hwf hf.grounded ht).mpr hn)
  rw [← hwordOf n hb.isWordOf]
  exact hb.laidOut hwf fun hw => hwordOf _ hw

/-- The command with two children that share an alias, and with an amount of its own. -/
def servedRivals : Forest :=
  rivals.update 0 fun n => { n with parameters := n.parameters.put "amount" amountParameter }

theorem servedRivals_reachable : servedRivals.Reachable :=
  rivals_reachable.step (.parameter (show _ = .ok _ from rfl :
    rivals.registerParameter 0 (some amountParameter) = _))

/-- The grammar of that command. -/
def servedRivalsGrammar : Grammar :=
  match Grammar.empty.compile servedRivals (some 0) .rootExpectedToCompile with
  | .ok (g, _, _) => g
  | .error _ => .empty

theorem compile_servedRivals :
    Grammar.empty.compile servedRivals (some 0) .rootExpectedToCompile
      = .ok (servedRivalsGrammar, servedRivals.sealUnder 0, 5) := rfl

/-- The shared alias redirects to the word of the second child, and the slot of the amount stands
beside it. -/
theorem compile_laidOut_rivals :
    servedRivals.Reachable ∧
      Grammar.empty.compile servedRivals (some 0) .rootExpectedToCompile
        = .ok (servedRivalsGrammar, servedRivals.sealUnder 0, 5) ∧
      ∃ wordOf : NodeId → BranchId, wordOf 0 = 5 ∧ ∃ children a x s,
        servedRivalsGrammar.branch? 5
          = some ⟨.word ⟨"menu", by decide⟩ none, children, some (servedRivals.runnerOf 0)⟩ ∧
        children.get? "open" = some (wordOf 1) ∧ children.get? "o" = some x ∧
        servedRivalsGrammar.branch? x = some (.bare (.word a (some (wordOf 2)))) ∧
        children.get? "amount" = some s ∧
        servedRivalsGrammar.IsChain 0 (servedRivals.runnerOf 0) [amountParameter] s := by
  refine ⟨servedRivals_reachable, compile_servedRivals, ?_⟩
  obtain ⟨wordOf, hroot, hall⟩ := compile_laidOut servedRivals_reachable compile_servedRivals
  obtain ⟨N, children, hN, hbranch, hlaid⟩ := hall 0 (List.mem_singleton_self 0)
  rw [hroot] at hbranch
  cases hN
  obtain ⟨C, a, x, -, -, -, hx, -, hredirect⟩ := hlaid.redirected (by decide : "o" ∉ _) rfl
  obtain ⟨s, hs, hchain⟩ := hlaid.chain rfl
  have hopen := hlaid.child (List.mem_cons_self ..) (rfl : servedRivals.node? 1 = some _)
  exact ⟨wordOf, hroot, children, a, x, s, hbranch, hopen, hx, hredirect, hs, hchain⟩

end Grammar

end CommandTree
