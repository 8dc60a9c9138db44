import CommandTree.Proofs.Grammar.Compiled

/-!
# Words that are built

Every plain word of a compiled tree was added for a node, after the words of the children of the
node, and nothing has touched it since. So what holds of a word when it is added for a node holds of
all words of the tree. Each node has its word, and one only, because it stands in the tree once.

* `Builds.trans`: what is built in two steps, for different nodes, is built once
* `addTree_builds`: compiling a tree builds one word for each of its nodes
* `BuiltFor.shaped`: a word that was built has the shape that its node asks for
* `compiled_of_compile`: what is known of a command that was compiled
-/

namespace CommandTree

namespace Grammar

variable {g g' : Grammar} {f : Forest} {made : BranchId}

/-! ## Words of nodes -/

/-- The word that is added for a node, and all that is added before it. -/
theorem addNode_word (made : BranchId) {n : NodeId} {N : Node} {compiled : List CompiledChild}
    {w : BranchId} (h : g.addNode f n N compiled = .ok (g', w)) :
    ∃ g₁ children, Grows made g g₁ ∧ w = g₁.size ∧
      g' = (g₁.add ⟨.word N.name none, children, some (f.runnerOf n)⟩).1 := by
  obtain ⟨g₁, words, hr, hcases⟩ := addNode_cases h
  have hgrow := grows_addAliases made (aliasesOf N.children.keys compiled) g (childWords compiled)
  rw [hr] at hgrow
  rcases hcases with ⟨-, hw, hg⟩ | ⟨p, ps, g₂, s, -, -, hs, hw, hg⟩
  · exact ⟨g₁, words, hgrow, hw, hg⟩
  · exact ⟨g₂, words.put p.key s, hgrow.trans (grows_addChain made (p :: ps) hs), hw, hg⟩

theorem isWordOf_addNode (hm : made ≤ g.size) {n : NodeId} {N : Node} (hN : f.node? n = some N)
    {compiled : List CompiledChild} {w : BranchId} (h : g.addNode f n N compiled = .ok (g', w)) :
    g'.IsWordOf f made n w := by
  obtain ⟨g₁, children, hgrow, rfl, rfl⟩ := addNode_word made h
  exact ⟨Nat.le_trans hm hgrow.size, N, _, hN, branch?_add_self .., rfl, rfl⟩

/-- Whether a branch is the word that was added for a node, after the words of its children, and
has been left alone since. -/
def BuiltFor (g : Grammar) (f : Forest) (made : BranchId) (n : NodeId) (b : BranchId) : Prop :=
  ∃ (g₀ g₁ : Grammar) (N : Node) (compiled : List CompiledChild), made ≤ g₀.size ∧
    f.node? n = some N ∧
    g₀.CompiledFor f made N.children.items compiled ∧
    g₀.addNode f n N compiled = .ok (g₁, b) ∧ Kept made g₁ g

theorem BuiltFor.mono {n : NodeId} {b : BranchId} (h : g.BuiltFor f made n b)
    (hk : Kept made g g') : g'.BuiltFor f made n b := by
  obtain ⟨g₀, g₁, N, compiled, hm, hN, hc, hadd, hkept⟩ := h
  exact ⟨g₀, g₁, N, compiled, hm, hN, hc, hadd, hkept.trans hk⟩

theorem BuiltFor.isWordOf {n : NodeId} {b : BranchId} (h : g.BuiltFor f made n b) :
    g.IsWordOf f made n b := by
  obtain ⟨g₀, g₁, N, compiled, hm, hN, -, hadd, hkept⟩ := h
  exact (isWordOf_addNode hm hN hadd).mono hkept

/-- What stands under a word that was built: the words of the children and of their aliases, as they
were added, and the first slot of the parameters, if there are any, where none of these stood. -/
theorem BuiltFor.exists_children {n : NodeId} {b : BranchId} (h : g.BuiltFor f made n b) :
    ∃ (g₀ g₁ : Grammar) (N : Node) (compiled : List CompiledChild) (words children : _),
      made ≤ g₀.size ∧ f.node? n = some N ∧ g₀.CompiledFor f made N.children.items compiled ∧
      g₀.addAliases (childWords compiled) (aliasesOf N.children.keys compiled) = (g₁, words) ∧
      Kept made g₁ g ∧ g.branch? b = some ⟨.word N.name none, children, some (f.runnerOf n)⟩ ∧
      ((N.parameters.items = [] ∧ children = words) ∨
        ∃ p ps s, N.parameters.items = p :: ps ∧ words.contains p.key = false ∧
          g.IsChain made (f.runnerOf n) (p :: ps) s ∧ children = words.put p.key s) := by
  obtain ⟨g₀, g₃, N, compiled, hm, hN, hc, hadd, hkept⟩ := h
  obtain ⟨g₁, words, hr, hcases⟩ := addNode_cases hadd
  have hgrow := grows_addAliases made (aliasesOf N.children.keys compiled) g₀ (childWords compiled)
  rw [hr] at hgrow
  have hm₁ := Nat.le_trans hm hgrow.size
  rcases hcases with ⟨hnil, rfl, rfl⟩ | ⟨p, ps, g₂, s, hp, hclash, hs, rfl, rfl⟩
  · exact ⟨g₀, g₁, N, compiled, words, words, hm, hN, hc, hr, (kept_add ..).trans hkept,
      hkept.branch hm₁ (branch?_add_self ..), Or.inl ⟨hnil, rfl⟩⟩
  · have hgrow₂ := grows_addChain made (p :: ps) hs
    have hm₂ := Nat.le_trans hm₁ hgrow₂.size
    have hkept₂ := (kept_add made g₂ _).trans hkept
    exact ⟨g₀, g₁, N, compiled, words, words.put p.key s, hm, hN, hc, hr,
      hgrow₂.toKept.trans hkept₂, hkept.branch hm₂ (branch?_add_self ..),
      Or.inr ⟨p, ps, s, hp, hclash, (isChain_addChain (p :: ps) hm₁ hs).mono hkept₂, rfl⟩⟩

/-- **A word that was built has the shape that its node asks for.** -/
theorem BuiltFor.shaped (hwf : f.WellFormed) {n : NodeId} {b : BranchId}
    (h : g.BuiltFor f made n b) : g.Shaped f made n b := by
  obtain ⟨g₀, g₁, N, compiled, words, children, hm, hN, hc, hr, hkept, hb, hcases⟩ :=
    h.exists_children
  have hwords := childrenFor_addAliases hwf hm hN hc
  rw [hr] at hwords
  refine ⟨N, _, hN, hb, ?_⟩
  rcases hcases with ⟨hnil, rfl⟩ | ⟨p, ps, s, hp, hclash, hs, rfl⟩
  · rw [hnil]
    exact hwords.mono hkept
  · rw [hp]
    exact (hwords.mono hkept).put_slot hclash hs

/-! ## Words of many nodes -/

/-- Whether all plain words of a grammar, from a place on, that another one does not have are those
of the given nodes. -/
def AddsWordsOf (g g' : Grammar) (f : Forest) (made : BranchId) (ids : List NodeId) : Prop :=
  ∀ b B name, made ≤ b → g'.branch? b = some B → B.kind = .word name none →
    g.branch? b = some B ∨ ∃ n ∈ ids, g'.IsWordOf f made n b

theorem AddsWordsOf.trans {g₁ g₂ g₃ : Grammar} {ids ids' : List NodeId}
    (h : g₁.AddsWordsOf g₂ f made ids) (h' : g₂.AddsWordsOf g₃ f made ids')
    (hk : Kept made g₂ g₃) : g₁.AddsWordsOf g₃ f made (ids ++ ids') := by
  intro b B name hb hB hkind
  rcases h' b B name hb hB hkind with hold | ⟨n, hn, hw⟩
  · rcases h b B name hb hold hkind with hold | ⟨n, hn, hw⟩
    · exact Or.inl hold
    · exact Or.inr ⟨n, List.mem_append_left _ hn, hw.mono hk⟩
  · exact Or.inr ⟨n, List.mem_append_right _ hn, hw⟩

/-- Whether, from a place on, a grammar differs from another one in plain words that were built for
given nodes: each of these has one, and none has two if no node is given twice. -/
structure Builds (g g' : Grammar) (f : Forest) (made : BranchId) (ids : List NodeId) : Prop where
  kept : Kept made g g'
  words : g.AddsWordsOf g' f made ids
  built : ∀ {n b}, g'.IsWordOf f made n b → g.IsWordOf f made n b ∨ g'.BuiltFor f made n b
  all : ∀ n ∈ ids, ∃ b, g'.BuiltFor f made n b
  once : ids.Nodup → ∀ {n b b'}, g'.IsWordOf f made n b → g'.IsWordOf f made n b' →
    g.IsWordOf f made n b ∨ g.IsWordOf f made n b' ∨ b = b'

/-- A word that was not there before is that of one of the nodes. -/
theorem Builds.mem_ids {ids : List NodeId} (h : Builds g g' f made ids) {n : NodeId} {b : BranchId}
    (hb : g'.IsWordOf f made n b) : g.IsWordOf f made n b ∨ n ∈ ids := by
  obtain ⟨hm, N, B, hN, hB, hk, hcall⟩ := id hb
  rcases h.words b B N.name hm hB hk with hold | ⟨m, hmem, hb'⟩
  · exact Or.inl ⟨hm, N, B, hN, hold, hk, hcall⟩
  · exact Or.inr (hb.inj hb' ▸ hmem)

theorem Builds.exists_word {ids : List NodeId} (h : Builds g g' f made ids) {n : NodeId}
    (hn : n ∈ ids) : ∃ b, g'.IsWordOf f made n b := by
  obtain ⟨b, hb⟩ := h.all n hn
  exact ⟨b, hb.isWordOf⟩

theorem Builds.refl (g : Grammar) (f : Forest) (made : BranchId) : Builds g g f made [] where
  kept := Kept.refl made g
  words := fun _ _ _ _ hB _ => Or.inl hB
  built := Or.inl
  all := fun n hn => by cases hn
  once := fun _ {n b b'} hb _ => Or.inl hb

/-- **What is built in two steps, for different nodes, is built once.** -/
theorem Builds.trans {g₁ g₂ g₃ : Grammar} {ids ids' : List NodeId} (h : Builds g₁ g₂ f made ids)
    (h' : Builds g₂ g₃ f made ids') : Builds g₁ g₃ f made (ids ++ ids') where
  kept := h.kept.trans h'.kept
  words := h.words.trans h'.words h'.kept
  built := fun hb => by
    rcases h'.built hb with hold | hnew
    · exact (h.built hold).imp_right fun hb => hb.mono h'.kept
    · exact Or.inr hnew
  all := fun n hn => by
    rcases List.mem_append.mp hn with hn | hn
    · exact (h.all n hn).imp fun b hb => hb.mono h'.kept
    · exact h'.all n hn
  once := fun hnodup {n b b'} hb hb' => by
    obtain ⟨hids, hids', hdisjoint⟩ := List.nodup_append.mp hnodup
    -- a node that has a word from each of the steps would be given for both of them
    have hone : ∀ {c c'}, g₂.IsWordOf f made n c → g₃.IsWordOf f made n c' →
        ¬ g₂.IsWordOf f made n c' → g₁.IsWordOf f made n c := by
      intro c c' hc hc' hnew
      refine (h.mem_ids hc).resolve_right fun hn => ?_
      exact hdisjoint n hn n ((h'.mem_ids hc').resolve_left hnew) rfl
    by_cases hold : g₂.IsWordOf f made n b
    · by_cases hold' : g₂.IsWordOf f made n b'
      · exact h.once hids hold hold'
      · exact Or.inl (hone hold hb' hold')
    · by_cases hold' : g₂.IsWordOf f made n b'
      · exact Or.inr (Or.inl (hone hold' hb hold))
      · exact Or.inr (Or.inr (((h'.once hids' hb hb').resolve_left hold).resolve_left hold'))

theorem Builds.perm {ids ids' : List NodeId} (h : Builds g g' f made ids) (hp : ids.Perm ids') :
    Builds g g' f made ids' where
  kept := h.kept
  words := fun b B name hb hB hk =>
    (h.words b B name hb hB hk).imp_right fun hw => by
      obtain ⟨n, hn, hw⟩ := hw
      exact ⟨n, hp.mem_iff.mp hn, hw⟩
  built := h.built
  all := fun n hn => h.all n (hp.mem_iff.mpr hn)
  once := fun hnodup => h.once (hp.nodup_iff.mpr hnodup)

/-- One word is built for a node. -/
theorem addNode_builds (hm : made ≤ g.size) {n : NodeId} {N : Node} (hN : f.node? n = some N)
    {compiled : List CompiledChild} (hc : g.CompiledFor f made N.children.items compiled)
    {w : BranchId} (h : g.addNode f n N compiled = .ok (g', w)) : Builds g g' f made [n] := by
  have hw := isWordOf_addNode hm hN h
  have hbuilt : g'.BuiltFor f made n w :=
    ⟨g, g', N, compiled, hm, hN, hc, h, Kept.refl made g'⟩
  -- beside aliases and slots there is only the word of the node itself, which comes last
  have hlast : ∀ {b B name}, made ≤ b → g'.branch? b = some B → B.kind = .word name none →
      g.branch? b = some B ∨ b = w := by
    obtain ⟨g₁, children, hgrow, rfl, rfl⟩ := addNode_word made h
    intro b B name hb hB hk
    by_cases hnew : b = g₁.size
    · exact Or.inr hnew
    · rw [branch?_add, if_neg hnew] at hB
      exact Or.inl (hgrow.word hb hB hk)
  have hword : ∀ {m b}, g'.IsWordOf f made m b → g.IsWordOf f made m b ∨ b = w := by
    rintro m b ⟨hb, M, B, hM, hB, hk, hcall⟩
    exact (hlast hb hB hk).imp_left fun hold => ⟨hb, M, B, hM, hold, hk, hcall⟩
  refine ⟨kept_addNode made h, fun b B name hb hB hk => ?_, fun {m b} hb => ?_, ?_,
    fun _ {m b b'} hb hb' => ?_⟩
  · rcases hlast hb hB hk with hold | rfl
    · exact Or.inl hold
    · exact Or.inr ⟨n, List.mem_singleton_self n, hw⟩
  · rcases hword hb with hold | rfl
    · exact Or.inl hold
    · exact Or.inr (hb.inj hw ▸ hbuilt)
  · exact fun m hm => ⟨w, List.mem_singleton.mp hm ▸ hbuilt⟩
  · rcases hword hb with hold | rfl
    · exact Or.inl hold
    · exact Or.inr ((hword hb').imp_right Eq.symm)

/-! ## Trees -/

/-- What compiling a tree gives is the word of its topmost node. -/
theorem isWordOf_addTree {t : Tree} {w : BranchId} (hm : made ≤ g.size) (hshow : t.Shows f)
    (h : addTree f g t = .ok (g', w)) : g'.IsWordOf f made t.id w := by
  cases t with
  | branch id node children =>
    obtain ⟨g₁, compiled, hts, hadd⟩ := addTree_eq_ok h
    have hm₁ := Nat.le_trans hm (kept_addTrees made children hts).size
    exact isWordOf_addNode hm₁ hshow.1 hadd

theorem compiledFor_addTrees {ts : List Tree} {compiled : List CompiledChild} (hm : made ≤ g.size)
    (hshow : Tree.AllShow f ts) (h : addTrees f g ts = .ok (g', compiled)) :
    g'.CompiledFor f made (ts.map Tree.id) compiled := by
  induction ts generalizing g compiled with
  | nil =>
    rw [addTrees] at h
    cases h
    exact .nil
  | cons t ts ih =>
    obtain ⟨g₁, w, rest, ht, hts, rfl⟩ := addTrees_cons_eq_ok h
    have hm₁ := Nat.le_trans hm (kept_addTree made t ht).size
    -- the trees behind are compiled later and leave the word of the first one as it is
    exact .cons ⟨hshow.1.node?, (isWordOf_addTree hm hshow.1 ht).mono (kept_addTrees made ts hts)⟩
      (ih hm₁ hshow.2 hts)

mutual

/-- **Compiling a tree builds one word for each of its nodes.** -/
theorem addTree_builds :
    ∀ (t : Tree) {g g' : Grammar} {w : BranchId}, made ≤ g.size → t.Shows f →
      addTree f g t = .ok (g', w) → Builds g g' f made t.ids
  | .branch id node children, g, g', w, hm, hshow, h => by
    obtain ⟨hnode, hids, hshows⟩ := hshow
    obtain ⟨g₁, compiled, hts, hadd⟩ := addTree_eq_ok h
    have hm₁ := Nat.le_trans hm (kept_addTrees made children hts).size
    have hcompiled := compiledFor_addTrees hm hshows hts
    rw [hids] at hcompiled
    rw [Tree.ids]
    exact ((addTrees_builds children hm hshows hts).trans
      (addNode_builds hm₁ hnode hcompiled hadd)).perm (List.perm_append_singleton ..)

theorem addTrees_builds :
    ∀ (ts : List Tree) {g g' : Grammar} {compiled : List CompiledChild}, made ≤ g.size →
      Tree.AllShow f ts → addTrees f g ts = .ok (g', compiled) →
        Builds g g' f made (Tree.idsOf ts)
  | [], g, g', compiled, _, _, h => by
    rw [addTrees] at h
    cases h
    exact Builds.refl g f made
  | t :: ts, g, g', compiled, hm, hshow, h => by
    obtain ⟨g₁, w, rest, ht, hts, -⟩ := addTrees_cons_eq_ok h
    have hm₁ := Nat.le_trans hm (kept_addTree made t ht).size
    rw [Tree.idsOf]
    exact (addTree_builds t hm hshow.1 ht).trans (addTrees_builds ts hm₁ hshow.2 hts)

end

/-- Where all words have the right shapes, so do those that are built. -/
theorem Builds.shaped (hwf : f.WellFormed) {ids : List NodeId} (hb : Builds g g' f made ids)
    (h : g.AllShaped f made) : g'.AllShaped f made := by
  intro n b hw
  rcases hb.built hw with hold | hbuilt
  · exact (h n b hold).mono hw.1 hb.kept
  · exact hbuilt.shaped hwf

/-! ## Commands -/

/-- What compiling a command gives: a word for every node of its tree, all shaped as they should
be, and nothing that was there before is changed. -/
structure Compiled (g : Grammar) (f : Forest) (root : NodeId) (g' : Grammar) (word : BranchId) :
    Prop where
  node : ∃ N, f.node? root = some N ∧ N.role = .root
  kept : Kept 0 g g'
  shaped : g'.AllShaped f g.size
  word : g'.IsWordOf f g.size root word
  tree : ∃ t, f.treeOf root = some t ∧ Builds g g' f g.size t.ids

theorem compiled_of_compile (hwf : f.WellFormed) {root : NodeId} {refusal : UseFault} {f' : Forest}
    {word : BranchId} (h : g.compile f (some root) refusal = .ok (g', f', word)) :
    g.Compiled f root g' word := by
  obtain ⟨hnode, hadd, -⟩ := compile_eq_ok_iff.mp h
  rw [addSubtree] at hadd
  cases ht : f.treeOf root with
  | none =>
    rw [ht] at hadd
    cases hadd
  | some t =>
    rw [ht] at hadd
    obtain ⟨hid, hshow⟩ := Forest.shows_of_treeWithin ht
    have hbuilds := addTree_builds t (Nat.le_refl g.size) hshow hadd
    exact ⟨hnode, kept_addTree 0 t hadd, hbuilds.shaped hwf (allShaped_size g f),
      hid ▸ isWordOf_addTree (Nat.le_refl g.size) hshow hadd, t, ht, hbuilds⟩

end Grammar

end CommandTree
