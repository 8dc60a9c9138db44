import CommandTree.Proofs.Grammar.Built

/-!
# Words of a compiled tree and children of a node

A word can be looked up twice: among the children of a node, and among the branches under the word
that the node was compiled to. Both find something for the same words. The node finds the first
child that answers to a word, the grammar the last one, so they find the same child unless several
children share an alias that is no child's name.

* `ChildrenFor.hasWord_iff`: what is found under a word is kept under its key
* `words_resolve_alike_iff`: when both look-ups lead to the same child
-/

namespace CommandTree

open Text

/-- Whether several children of a node answer to a word. -/
def Forest.Contested (f : Forest) (n : NodeId) (word : String) : Prop :=
  1 < (f.answering n (lowercase word)).length

instance (f : Forest) (n : NodeId) (word : String) : Decidable (f.Contested n word) :=
  inferInstanceAs (Decidable (_ < _))

namespace Grammar

/-- Whether a branch under another one is a given word. -/
def HasWord (g : Grammar) (b : BranchId) (word : String) (c : BranchId) : Prop :=
  c ∈ (g.childrenOf b).items ∧ (g.branch? c).any (·.matchesWord word) = true

variable {g : Grammar} {f : Forest} {made : BranchId}

/-! ## Words under the word of a node -/

theorem IsChain.isSlot {callback : Callback} {ps : List Parameter} {b : BranchId}
    (h : g.IsChain made callback ps b) : ∃ B, g.branch? b = some B ∧ B.isSlot = true := by
  cases ps with
  | nil => cases h
  | cons p ps =>
    cases ps with
    | nil => exact ⟨_, h.2, rfl⟩
    | cons q rest =>
      obtain ⟨-, -, s, -, hb⟩ := h
      exact ⟨_, hb, rfl⟩

theorem matchesWord_of_isSlot {B : Branch} (h : B.isSlot = true) (word : String) :
    B.matchesWord word = false := by
  cases hk : B.kind with
  | slot name cls => rw [Branch.matchesWord, hk]
  | start => simp [Branch.isSlot, hk] at h
  | word name redirect => simp [Branch.isSlot, hk] at h

/-- What is a given word stands under the key of the word, and children of the node answer to it. -/
theorem ChildrenFor.key_of_matchesWord {n : NodeId} {parameters : List Parameter}
    {children : Catalog BranchId} (h : g.ChildrenFor f made n parameters children) {key : String}
    {c : BranchId} (hc : children.get? key = some c) {word : String}
    (hw : (g.branch? c).any (·.matchesWord word) = true) :
    key = lowercase word ∧ f.answering n key ≠ [] := by
  by_cases hnone : f.answering n key = []
  · exfalso
    have hslot : ∃ p ps, parameters = p :: ps ∧ key = p.key := by
      by_contra hno
      have hne : ∀ p ps, parameters = p :: ps → key ≠ p.key := fun p ps hp he =>
        hno ⟨p, ps, hp, he⟩
      rw [h.other hnone hne] at hc
      cases hc
    obtain ⟨p, ps, hp, rfl⟩ := hslot
    obtain ⟨-, s, hs, hchain⟩ := h.slot hp
    rw [hs] at hc
    cases hc
    obtain ⟨B, hB, hisSlot⟩ := hchain.isSlot
    rw [hB, Option.any_some, matchesWord_of_isSlot hisSlot] at hw
    cases hw
  · obtain ⟨m, hm⟩ := Option.isSome_iff_exists.mp (List.getLast?_isSome.mpr hnone)
    obtain ⟨b, ⟨c', C, name, redirect, hget, -, hC, hk, hname, -⟩, -⟩ := h.answered hm
    rw [hget] at hc
    cases hc
    rw [hC, Option.any_some, Branch.matchesWord, hk] at hw
    exact ⟨hname.symm.trans (eq_of_beq hw).symm, hnone⟩

/-- What is kept under the key of a word is that word, and stands for what it should. -/
theorem WordAt.found {children : Catalog BranchId} {word : String} {b : BranchId} {n : NodeId}
    (h : g.WordAt made children (lowercase word) b) (hb : g.IsWordOf f made n b) :
    ∃ c, children.get? (lowercase word) = some c ∧
      (g.branch? c).any (·.matchesWord word) = true ∧ g.target c = b := by
  obtain ⟨c, C, name, redirect, hget, -, hC, hk, hname, hstands⟩ := h
  refine ⟨c, hget, ?_, ?_⟩
  · rw [hC, Option.any_some, Branch.matchesWord, hk]
    exact beq_iff_eq.mpr hname.symm
  · cases redirect with
    | none =>
      rw [Option.getD_none] at hstands
      rw [hstands, hb.target]
    | some b' =>
      rw [Option.getD_some] at hstands
      subst hstands
      obtain ⟨B, hB, hr⟩ := hb.redirect?_none
      exact target_of_redirect hC (by rw [Branch.redirect?, hk]) hB hr

/-- The word that stands for the last child that answers to a word. -/
theorem ChildrenFor.exists_word {n : NodeId} {parameters : List Parameter}
    {children : Catalog BranchId} (h : g.ChildrenFor f made n parameters children) {word : String}
    {m : NodeId} (hm : (f.answering n (lowercase word)).getLast? = some m) :
    ∃ c, children.get? (lowercase word) = some c ∧
      (g.branch? c).any (·.matchesWord word) = true ∧ g.IsWordOf f made m (g.target c) := by
  obtain ⟨b, hb, hw⟩ := h.answered hm
  obtain ⟨c, hget, hmatch, htarget⟩ := hb.found hw
  exact ⟨c, hget, hmatch, htarget ▸ hw⟩

/-- What is found under a word is kept under its key, and stands for the last child that answers. -/
theorem ChildrenFor.hasWord_iff {n : NodeId} {parameters : List Parameter} {b : BranchId}
    (h : g.ChildrenFor f made n parameters (g.childrenOf b)) {word : String} {c : BranchId} :
    g.HasWord b word c ↔
      (g.childrenOf b).get? (lowercase word) = some c ∧
        ∃ m, (f.answering n (lowercase word)).getLast? = some m ∧
          g.IsWordOf f made m (g.target c) := by
  constructor
  · rintro ⟨hmem, hw⟩
    obtain ⟨key, hkey⟩ := Catalog.mem_items_iff_get?.mp hmem
    obtain ⟨rfl, hne⟩ := h.key_of_matchesWord hkey hw
    obtain ⟨m, hm⟩ := Option.isSome_iff_exists.mp (List.getLast?_isSome.mpr hne)
    obtain ⟨c', hget, -, hword⟩ := h.exists_word hm
    rw [hkey] at hget
    cases hget
    exact ⟨hkey, m, hm, hword⟩
  · rintro ⟨hget, m, hm, -⟩
    obtain ⟨c', hget', hw, -⟩ := h.exists_word hm
    rw [hget] at hget'
    cases hget'
    exact ⟨Catalog.mem_items_iff_get?.mpr ⟨_, hget⟩, hw⟩

/-! ## Both look-ups -/

theorem head?_eq_getLast?_iff {α : Type} {l : List α} (hnd : l.Nodup) {a : α}
    (ha : l.getLast? = some a) : l.head? = some a ↔ ¬ 1 < l.length := by
  cases l with
  | nil => cases ha
  | cons x rest =>
    cases rest with
    | nil => simpa using ha
    | cons y rest =>
      have hmem : a ∈ y :: rest := by
        rw [List.getLast?_cons_cons] at ha
        exact List.mem_of_getLast? ha
      have hne : x ≠ a := by
        rintro rfl
        exact (List.nodup_cons.mp hnd).1 hmem
      simp [hne]

/--
**A word finds the same child of a node and in the grammar, unless it is contested.** Every node of
a compiled tree has a word. Under it, a word is found exactly if the node resolves it; there is one
branch for it at most, and that stands for the word of the child that the node resolves it to
exactly if the children do not contest it.
-/
theorem words_resolve_alike_iff {g g' : Grammar} {f f' : Forest} {root : NodeId}
    {refusal : UseFault} {word : BranchId} {t : Tree} {n : NodeId} (hf : f.Reachable)
    (h : g.compile f (some root) refusal = .ok (g', f', word)) (ht : f.treeOf root = some t)
    (hn : n ∈ t.ids) :
    (∃ b, g'.IsWordOf f g.size n b) ∧
      ∀ b, g'.IsWordOf f g.size n b → ∀ w : String,
        ((∃ c, g'.HasWord b w c) ↔ (f.resolve n w).isSome = true) ∧
        ∀ c, g'.HasWord b w c →
          (∀ c', g'.HasWord b w c' → c' = c) ∧
          ((∃ m, f.resolve n w = some m ∧ g'.IsWordOf f g.size m (g'.target c)) ↔
            ¬ f.Contested n w) := by
  have hwf := hf.wellFormed
  have hcompiled := compiled_of_compile hwf h
  obtain ⟨t', ht', hbuilds⟩ := hcompiled.tree
  rw [ht] at ht'
  cases ht'
  refine ⟨hbuilds.exists_word hn, fun b hb w => ?_⟩
  obtain ⟨N, hN, hchildren⟩ := hcompiled.shaped.children hb
  have hnodup := Forest.answering_nodup hwf n (lowercase w)
  rw [Forest.resolve_eq_head? hwf]
  refine ⟨⟨?_, ?_⟩, fun c hc => ?_⟩
  · rintro ⟨c, hc⟩
    obtain ⟨-, m, hm, -⟩ := hchildren.hasWord_iff.mp hc
    rw [List.isSome_head?]
    exact List.getLast?_isSome.mp (by rw [hm]; rfl)
  · intro hsome
    rw [List.isSome_head?] at hsome
    obtain ⟨m, hm⟩ := Option.isSome_iff_exists.mp (List.getLast?_isSome.mpr hsome)
    obtain ⟨c, hget, -, hw⟩ := hchildren.exists_word hm
    exact ⟨c, hchildren.hasWord_iff.mpr ⟨hget, m, hm, hw⟩⟩
  · obtain ⟨hget, m, hm, hw⟩ := hchildren.hasWord_iff.mp hc
    refine ⟨fun c' hc' => ?_, ?_⟩
    · obtain ⟨hget', -⟩ := hchildren.hasWord_iff.mp hc'
      rw [hget] at hget'
      exact (Option.some.inj hget').symm
    -- the node takes the first child that answers, the grammar the last one
    · rw [Forest.Contested, ← head?_eq_getLast?_iff hnodup hm]
      constructor
      · rintro ⟨m', hm', hw'⟩
        rw [hm', hw'.inj hw]
      · intro hhead
        exact ⟨m, hhead, hw⟩

/-! ## Children that share an alias -/

/-- A child of a node, with one alias. -/
def rival (name : Name) (shared : Name) : Node :=
  ⟨⟨"child", .sub, name, none, none, [shared], .anyone⟩, .empty, .empty, some 0, false,
    fun _ => .done ()⟩

/-- A command with two children that share an alias. -/
def rivals : Forest :=
  ⟨[⟨⟨"root", .root, ⟨"menu", by decide⟩, none, none, [], .anyone⟩,
      (Catalog.empty.put "open" 1).put "order" 2, .empty, none, false, fun _ => .done ()⟩,
    rival ⟨"open", by decide⟩ ⟨"o", by decide⟩, rival ⟨"order", by decide⟩ ⟨"o", by decide⟩]⟩

theorem rivals_reachable : rivals.Reachable := by
  have hmenu : Node.describe "root" .root (.string "menu") {}
      = .ok ⟨"root", .root, ⟨"menu", by decide⟩, none, none, [], .anyone⟩ := rfl
  have hopen : Node.describe "child" .sub (.string "open") { aliases := .tuple [.string "o"] }
      = .ok (rival ⟨"open", by decide⟩ ⟨"o", by decide⟩).toDescription := rfl
  have horder : Node.describe "child" .sub (.string "order") { aliases := .tuple [.string "o"] }
      = .ok (rival ⟨"order", by decide⟩ ⟨"o", by decide⟩).toDescription := rfl
  have hthree := ((Forest.Reachable.start.step (.add (fun _ => .done ()) hmenu)).step
    (.add (fun _ => .done ()) hopen)).step (.add (fun _ => .done ()) horder)
  have hfirst := hthree.step
    (.child (show _ = .ok _ from rfl : Forest.registerChild _ 0 (some 1) = _))
  exact hfirst.step
    (.child (show _ = .ok _ from rfl : Forest.registerChild _ 0 (some 2) = _))

/-- The grammar of the command with the two children. -/
def rivalsGrammar : Grammar :=
  match Grammar.empty.compile rivals (some 0) .rootExpectedToCompile with
  | .ok (g, _, _) => g
  | .error _ => .empty

theorem compile_rivals : Grammar.empty.compile rivals (some 0) .rootExpectedToCompile
    = .ok (rivalsGrammar, rivals.sealUnder 0, 4) := rfl

theorem isWordOf_rivals : rivalsGrammar.IsWordOf rivals 0 0 4 :=
  ⟨Nat.zero_le _, _, _, rfl, rfl, rfl, rfl⟩

/-- A name leads to the same child of the node and in the grammar. -/
theorem words_resolve_alike_name :
    rivals.resolve 0 "OPEN" = some 1 ∧ ¬ rivals.Contested 0 "OPEN" ∧
      ∃ c, rivalsGrammar.HasWord 4 "OPEN" c ∧
        rivalsGrammar.IsWordOf rivals 0 1 (rivalsGrammar.target c) := by
  have hresolve : rivals.resolve 0 "OPEN" = some 1 := rfl
  have hfree : ¬ rivals.Contested 0 "OPEN" := by decide
  obtain ⟨hsome, hword⟩ := (words_resolve_alike_iff rivals_reachable compile_rivals rfl
    (List.mem_cons_self ..)).2 4 isWordOf_rivals "OPEN"
  obtain ⟨c, hc⟩ := hsome.mpr (by rw [hresolve]; rfl)
  obtain ⟨m, hm, hwm⟩ := (hword c hc).2.mpr hfree
  rw [hresolve] at hm
  cases hm
  exact ⟨hresolve, hfree, c, hc, hwm⟩

/-- The shared alias leads to the first child of the node, and to the second one in the grammar. -/
theorem rivals_resolve_apart :
    rivals.Reachable ∧
      Grammar.empty.compile rivals (some 0) .rootExpectedToCompile
        = .ok (rivalsGrammar, rivals.sealUnder 0, 4) ∧
      rivalsGrammar.IsWordOf rivals 0 0 4 ∧ rivals.resolve 0 "o" = some 1 ∧
      ∃ c, rivalsGrammar.HasWord 4 "o" c ∧
        ¬ rivalsGrammar.IsWordOf rivals 0 1 (rivalsGrammar.target c) ∧
        rivalsGrammar.IsWordOf rivals 0 2 (rivalsGrammar.target c) := by
  have hsecond : rivalsGrammar.IsWordOf rivals 0 2 (rivalsGrammar.target 3) :=
    ⟨Nat.zero_le _, _, _, rfl, rfl, rfl, rfl⟩
  refine ⟨rivals_reachable, compile_rivals, isWordOf_rivals, rfl, 3, ⟨by decide, rfl⟩, ?_, hsecond⟩
  intro hfirst
  exact absurd (hfirst.inj hsecond) (by decide)

end Grammar

end CommandTree
