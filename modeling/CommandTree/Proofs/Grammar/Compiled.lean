import CommandTree.Proofs.Grammar.Shape
import Mathlib.Data.List.Forall2

/-!
# What compiling builds

Compiling a tree adds a word for each of its nodes, bottom up: the words of the children, a
redirecting word for each alias, the chain of slots, and the word of the node itself. Nothing that
was there before is changed, so what was built for a child stays as it is while the rest is built.

* `addAliases_get?`: of several aliases with one key the last one is kept
* `isChain_addChain`: the slots of a chain follow each other, and each runs the node
* `childrenFor_addAliases`: what stands under a node, before its parameters are added
* `addNode_cases`: what is added for a node
* `kept_addTree`: compiling adds branches and changes none
-/

namespace CommandTree

open Text

namespace Grammar

variable {g g' : Grammar} {f : Forest} {made : BranchId}

/-! ## Aliases -/

theorem grows_addAliases (made : BranchId) :
    ∀ (l : List (Name × BranchId)) (g : Grammar) (words : Catalog BranchId),
      Grows made g (g.addAliases words l).1
  | [], g, _ => Grows.refl made g
  | (a, target) :: rest, g, words =>
    (grows_add made g fun name h => by cases h).trans (grows_addAliases made rest _ _)

/-- Of several aliases with one key the last one is kept, as a word that redirects; keys of no
alias are left alone. -/
theorem addAliases_get? (key : String) :
    ∀ (l : List (Name × BranchId)) (g : Grammar) (words : Catalog BranchId), made ≤ g.size →
      match (l.filter fun entry => entry.1.key = key).getLast? with
      | some entry => ∃ c, (g.addAliases words l).2.get? key = some c ∧ made ≤ c ∧
          (g.addAliases words l).1.branch? c = some (.bare (.word entry.1 (some entry.2)))
      | none => (g.addAliases words l).2.get? key = words.get? key
  | [], _, _, _ => rfl
  | (a, target) :: rest, g, words, hm => by
    have hm' : made ≤ (g.add (.bare (.word a (some target)))).1.size := by
      rw [size_add]
      exact Nat.le_succ_of_le hm
    have ih := addAliases_get? key rest (g.add (.bare (.word a (some target)))).1
      (words.put a.key g.size) hm'
    rw [addAliases]
    -- an alias further behind replaces this one, so it counts only if there is none
    by_cases hkey : a.key = key
    · rw [List.filter_cons_of_pos (by simpa using hkey), List.getLast?_cons]
      cases hlast : (rest.filter fun entry => entry.1.key = key).getLast? with
      | some entry =>
        rw [hlast] at ih
        exact ih
      | none =>
        rw [hlast] at ih
        have hget : (words.put a.key g.size).get? key = some g.size := by
          rw [Catalog.get?_put, if_pos hkey.symm]
        have hgrow : Grows made _ _ := grows_addAliases made rest
          (g.add (.bare (.word a (some target)))).1 (words.put a.key g.size)
        exact ⟨g.size, ih.trans hget, hm, hgrow.branch hm (branch?_add_self ..)⟩
    · rw [List.filter_cons_of_neg (by simpa using hkey)]
      cases hlast : (rest.filter fun entry => entry.1.key = key).getLast? with
      | some entry =>
        rw [hlast] at ih
        exact ih
      | none =>
        rw [hlast] at ih
        refine ih.trans ?_
        rw [Catalog.get?_put, if_neg (Ne.symm hkey)]

/-! ## Chains -/

/-- A chain of several parameters is the chain of those behind the first one, which is not greedy,
and a slot over it. -/
theorem addChain_cons_cons {usage : String} {callback : Callback} {p q : Parameter}
    {rest : List Parameter} {b : BranchId}
    (h : g.addChain usage callback (p :: q :: rest) = .ok (g', b)) :
    p.greedy = false ∧ ∃ g₁ s, g.addChain usage callback (q :: rest) = .ok (g₁, s) ∧
      g₁.add ⟨.slot p.name (.ofDomain p.domain), Catalog.empty.put q.key s, some callback⟩
        = (g', b) := by
  rw [addChain] at h
  split at h
  · cases h
  · next hgreedy =>
    split at h
    · cases h
    · next g₁ s hs => exact ⟨by simpa using hgreedy, g₁, s, hs, Except.ok.inj h⟩

theorem grows_addChain (made : BranchId) {usage : String} {callback : Callback} :
    ∀ (ps : List Parameter) {g g' : Grammar} {b : BranchId},
      g.addChain usage callback ps = .ok (g', b) → Grows made g g'
  | [], _, _, _, h => by cases h
  | [p], g, g', b, h => by
    rw [addChain] at h
    cases h
    exact grows_add made g fun name hk => by cases hk
  | p :: q :: rest, g, g', b, h => by
    obtain ⟨-, g₁, s, hs, hadd⟩ := addChain_cons_cons h
    cases hadd
    exact (grows_addChain made (q :: rest) hs).trans (grows_add made g₁ fun name hk => by cases hk)

theorem isChain_addChain {usage : String} {callback : Callback} :
    ∀ (ps : List Parameter) {g g' : Grammar} {b : BranchId}, made ≤ g.size →
      g.addChain usage callback ps = .ok (g', b) → g'.IsChain made callback ps b
  | [], _, _, _, _, h => by cases h
  | [p], g, g', b, hm, h => by
    rw [addChain] at h
    cases h
    exact ⟨hm, branch?_add_self ..⟩
  | p :: q :: rest, g, g', b, hm, h => by
    obtain ⟨hgreedy, g₁, s, hs, hadd⟩ := addChain_cons_cons h
    cases hadd
    have hm₁ := Nat.le_trans hm (grows_addChain made (q :: rest) hs).size
    have hchain := isChain_addChain (q :: rest) hm hs
    exact ⟨hm₁, hgreedy, s, hchain.mono (kept_add ..), branch?_add_self ..⟩

/-! ## Compiled children -/

theorem rel_some_left {α β : Type} {r : α → β → Prop} {a : α} {o : Option β}
    (h : Option.Rel r (some a) o) : ∃ b, o = some b ∧ r a b := by
  cases h with
  | some hr => exact ⟨_, rfl, hr⟩

theorem rel_none_left {α β : Type} {r : α → β → Prop} {o : Option β}
    (h : Option.Rel r none o) : o = none := by
  cases h
  rfl

/-- Whether the words of compiled children are those of the nodes at the given places. -/
def CompiledFor (g : Grammar) (f : Forest) (made : BranchId) (ids : List NodeId)
    (compiled : List CompiledChild) : Prop :=
  List.Forall₂ (fun id child => f.node? id = some child.node ∧ g.IsWordOf f made id child.word)
    ids compiled

theorem IsWordOf.wordAt {c : NodeId} {C : Node} {b : BranchId} (h : g.IsWordOf f made c b)
    (hC : f.node? c = some C) {children : Catalog BranchId} (hget : children.get? C.key = some b) :
    g.WordAt made children C.key b := by
  obtain ⟨hm, N, B, hN, hB, hk, -⟩ := h
  rw [hC] at hN
  cases hN
  exact ⟨b, B, C.name, none, hget, hm, hB, hk, rfl, rfl⟩

/-- Children and their words are filed under the same keys. -/
theorem find?_compiled {entries : List (String × NodeId)} {compiled : List CompiledChild}
    (hkey : ∀ entry ∈ entries, ∃ C, f.node? entry.2 = some C ∧ C.key = entry.1)
    (h : g.CompiledFor f made (entries.map Prod.snd) compiled) (key : String) :
    compiled.map (·.node.key) = entries.map Prod.fst ∧
      Option.Rel (g.IsWordOf f made)
        ((entries.find? fun entry => entry.1 = key).map Prod.snd)
        (((compiled.map fun child => (child.node.key, child.word)).find?
          fun entry => entry.1 = key).map Prod.snd) := by
  induction entries generalizing compiled with
  | nil =>
    cases h
    exact ⟨rfl, .none⟩
  | cons entry rest ih =>
    cases h with
    | cons hfirst hrest =>
      rename_i child compiled
      obtain ⟨C, hC, hCk⟩ := hkey entry (List.mem_cons_self ..)
      have hnode : child.node = C := by
        rw [hC] at hfirst
        exact (Option.some.inj hfirst.1).symm
      have hk : child.node.key = entry.1 := by rw [hnode, hCk]
      obtain ⟨hkeys, hrel⟩ := ih (fun e he => hkey e (List.mem_cons_of_mem _ he)) hrest
      refine ⟨by rw [List.map_cons, List.map_cons, hk, hkeys], ?_⟩
      rw [List.map_cons]
      by_cases hek : entry.1 = key
      · rw [List.find?_cons_of_pos (by simpa using hek),
          List.find?_cons_of_pos (by simpa using hk.trans hek)]
        exact .some hfirst.2
      · rw [List.find?_cons_of_neg (by simpa using hek),
          List.find?_cons_of_neg (by simpa [hk] using hek)]
        exact hrel

theorem childWords_get? (hwf : f.WellFormed) {n : NodeId} {N : Node} (hN : f.node? n = some N)
    {compiled : List CompiledChild} (h : g.CompiledFor f made N.children.items compiled)
    (key : String) :
    Option.Rel (g.IsWordOf f made) (N.children.get? key) ((childWords compiled).get? key) := by
  have hkey : ∀ entry ∈ N.children.entries, ∃ C, f.node? entry.2 = some C ∧ C.key = entry.1 := by
    intro entry hmem
    obtain ⟨C, hC, -, hCk, -⟩ := hwf.child hN (Catalog.get?_of_mem_entries hmem)
    exact ⟨C, hC, hCk⟩
  obtain ⟨hkeys, hrel⟩ := find?_compiled hkey h key
  have hentries : (childWords compiled).entries
      = compiled.map fun child => (child.node.key, child.word) := by
    refine Catalog.entries_ofList ?_
    rw [List.map_map, show (Prod.fst ∘ fun child : CompiledChild => (child.node.key, child.word))
      = (·.node.key) from rfl, hkeys]
    exact N.children.nodup
  rw [Catalog.get?, Catalog.get?, hentries]
  exact hrel

/-- The aliases of a child that have a key, among those that are no child's name. -/
theorem filter_aliases {names : List String} {key : String} (hnew : key ∉ names)
    (aliases : List Name) (b : BranchId) :
    (((aliases.filter fun a => !names.contains a.key).map fun a => (a, b)).filter
        fun entry => entry.1.key = key)
      = (aliases.filter fun a => a.key = key).map fun a => (a, b) := by
  rw [List.filter_map, List.filter_filter]
  refine congrArg _ (List.filter_congr fun a _ => ?_)
  by_cases ha : a.key = key
  · simp [ha, hnew]
  · simp [ha]

/-- The last child with an alias is the one whose word the last alias stands for. -/
theorem getLast?_aliasesOf {names : List String} {key : String} (hnew : key ∉ names)
    {ids : List NodeId} {compiled : List CompiledChild} (h : g.CompiledFor f made ids compiled) :
    Option.Rel (fun c entry => g.IsWordOf f made c entry.2 ∧ entry.1.key = key ∧
        ∃ C, f.node? c = some C ∧ entry.1 ∈ C.aliases)
      ((ids.filter (f.hasAlias key)).getLast?)
      (((aliasesOf names compiled).filter fun entry => entry.1.key = key).getLast?) := by
  induction h with
  | nil => exact .none
  | cons hfirst hrest ih =>
    rename_i c child ids compiled
    have hflat : aliasesOf names (child :: compiled)
        = ((child.node.aliases.filter fun a => !names.contains a.key).map fun a => (a, child.word))
          ++ aliasesOf names compiled := rfl
    rw [hflat, List.filter_append, filter_aliases hnew, List.getLast?_append]
    by_cases hown : child.node.aliases.filter (fun a => a.key = key) = []
    · have hnone : ¬ f.hasAlias key c = true := fun ha =>
        (Forest.hasAlias_iff hfirst.1).mp ha hown
      rw [List.filter_cons_of_neg hnone, hown, List.map_nil, List.getLast?_nil, Option.or_none]
      exact ih
    · rw [List.filter_cons_of_pos ((Forest.hasAlias_iff hfirst.1).mpr hown), List.getLast?_cons]
      -- a child further behind decides if there is one, and otherwise this child does
      cases hids : (ids.filter (f.hasAlias key)).getLast? with
      | none =>
        rw [hids] at ih
        obtain ⟨a, ha⟩ := Option.isSome_iff_exists.mp (List.getLast?_isSome.mpr hown)
        obtain ⟨hmem, hkey⟩ := List.mem_filter.mp (List.mem_of_getLast? ha)
        rw [rel_none_left ih, Option.getD_none, Option.none_or, List.getLast?_map, ha]
        exact .some ⟨hfirst.2, by simpa using hkey, child.node, hfirst.1, hmem⟩
      | some d =>
        rw [hids] at ih
        obtain ⟨entry, hentry, hw⟩ := rel_some_left ih
        rw [hentry]
        exact .some hw

theorem filter_aliasesOf_of_mem {names : List String} {key : String} (h : key ∈ names)
    (compiled : List CompiledChild) :
    ((aliasesOf names compiled).filter fun entry => entry.1.key = key) = [] := by
  rw [List.filter_eq_nil_iff]
  rintro ⟨a, b⟩ hmem hkey
  obtain ⟨child, -, hmem⟩ := List.mem_flatMap.mp hmem
  obtain ⟨a', ha', heq⟩ := List.mem_map.mp hmem
  cases heq
  have hkey' : a.key = key := by simpa using hkey
  have hnew := (List.mem_filter.mp ha').2
  rw [hkey'] at hnew
  simp [h] at hnew

section Words

variable {n : NodeId} {N : Node} {compiled : List CompiledChild}

/-- Under the name of a child there is the word that the child was compiled to. -/
theorem addAliases_get?_child (hwf : f.WellFormed) (hm : made ≤ g.size) (hN : f.node? n = some N)
    (h : g.CompiledFor f made N.children.items compiled) {key : String} {c : NodeId}
    (hc : N.children.get? key = some c) :
    ∃ w, (g.addAliases (childWords compiled) (aliasesOf N.children.keys compiled)).2.get? key
        = some w ∧ g.IsWordOf f made c w := by
  have halias := addAliases_get? key (aliasesOf N.children.keys compiled) g
    (childWords compiled) hm
  -- no alias of that key is added
  rw [filter_aliasesOf_of_mem ((Catalog.mem_keys_iff_get? _ _).mpr ⟨_, hc⟩)] at halias
  obtain ⟨w, hword, hw⟩ := rel_some_left (hc ▸ childWords_get? hwf hN h key)
  exact ⟨w, halias.trans hword, hw⟩

/-- Under an alias that is no child's name there is a word that redirects to the word of the last
child with that alias. -/
theorem addAliases_get?_alias (hm : made ≤ g.size)
    (h : g.CompiledFor f made N.children.items compiled) {key : String} {c : NodeId}
    (hnone : N.children.get? key = none)
    (hc : (N.children.items.filter (f.hasAlias key)).getLast? = some c) :
    ∃ C a x w, f.node? c = some C ∧ a ∈ C.aliases ∧ a.key = key ∧ g.IsWordOf f made c w ∧
      (g.addAliases (childWords compiled) (aliasesOf N.children.keys compiled)).2.get? key
        = some x ∧ made ≤ x ∧
      (g.addAliases (childWords compiled) (aliasesOf N.children.keys compiled)).1.branch? x
        = some (.bare (.word a (some w))) := by
  have halias := addAliases_get? key (aliasesOf N.children.keys compiled) g
    (childWords compiled) hm
  have hrel := getLast?_aliasesOf (Catalog.get?_eq_none_iff.mp hnone) h
  rw [hc] at hrel
  obtain ⟨⟨a, w⟩, hentry, hw, hkey, C, hC, ha⟩ := rel_some_left hrel
  rw [hentry] at halias
  obtain ⟨x, hget, hx, hbranch⟩ := halias
  exact ⟨C, a, x, w, hC, ha, hkey, hw, hget, hx, hbranch⟩

/-- The words under a node, before the slots of its parameters are added. -/
theorem childrenFor_addAliases (hwf : f.WellFormed) (hm : made ≤ g.size) (hN : f.node? n = some N)
    (h : g.CompiledFor f made N.children.items compiled) :
    (g.addAliases (childWords compiled) (aliasesOf N.children.keys compiled)).1.ChildrenFor f made n
      [] (g.addAliases (childWords compiled) (aliasesOf N.children.keys compiled)).2 := by
  have hkept := (grows_addAliases made (aliasesOf N.children.keys compiled) g
    (childWords compiled)).toKept
  refine ⟨fun {key c} hc => ?_, fun hp => (by cases hp), fun {key} hnone _ => ?_⟩
  · cases hget : N.children.get? key with
    | some c' =>
      rw [Forest.answering_of_get? hN hget] at hc
      cases hc
      obtain ⟨w, hword, hw⟩ := addAliases_get?_child hwf hm hN h hget
      obtain ⟨C, hC, -, hCk, -⟩ := hwf.child hN hget
      subst hCk
      exact ⟨w, (hw.mono hkept).wordAt hC hword, hw.mono hkept⟩
    | none =>
      rw [Forest.answering_of_get?_none hN hget] at hc
      obtain ⟨C, a, x, w, -, -, hkey, hw, hx, hmx, hbranch⟩ := addAliases_get?_alias hm h hget hc
      exact ⟨w, ⟨x, _, a, some w, hx, hmx, hbranch, rfl, hkey, rfl⟩, hw.mono hkept⟩
  · cases hget : N.children.get? key with
    | some c =>
      rw [Forest.answering_of_get? hN hget] at hnone
      cases hnone
    | none =>
      have halias := addAliases_get? key (aliasesOf N.children.keys compiled) g
        (childWords compiled) hm
      rw [Forest.answering_of_get?_none hN hget] at hnone
      have hrel := getLast?_aliasesOf (Catalog.get?_eq_none_iff.mp hget) h
      rw [hnone] at hrel
      rw [rel_none_left hrel] at halias
      exact halias.trans (rel_none_left (hget ▸ childWords_get? hwf hN h key))

end Words

/-! ## Words of nodes -/

/-- What is added for a node: words for its children and their aliases, a chain of slots if it has
parameters, and its own word. -/
theorem addNode_cases {n : NodeId} {N : Node} {compiled : List CompiledChild} {w : BranchId}
    (h : g.addNode f n N compiled = .ok (g', w)) :
    ∃ g₁ words, g.addAliases (childWords compiled) (aliasesOf N.children.keys compiled)
        = (g₁, words) ∧
      ((N.parameters.items = [] ∧ w = g₁.size ∧
          g' = (g₁.add ⟨.word N.name none, words, some (f.runnerOf n)⟩).1) ∨
        ∃ p ps g₂ s, N.parameters.items = p :: ps ∧ words.contains p.key = false ∧
          g₁.addChain (f.usageOf n) (f.runnerOf n) (p :: ps) = .ok (g₂, s) ∧ w = g₂.size ∧
          g' = (g₂.add ⟨.word N.name none, words.put p.key s, some (f.runnerOf n)⟩).1) := by
  rw [addNode] at h
  generalize g.addAliases (childWords compiled) (aliasesOf N.children.keys compiled) = r at h ⊢
  obtain ⟨g₁, words⟩ := r
  dsimp only at h
  refine ⟨g₁, words, rfl, ?_⟩
  cases hp : N.parameters.items with
  | nil =>
    rw [hp] at h
    cases h
    exact Or.inl ⟨rfl, rfl, rfl⟩
  | cons p ps =>
    rw [hp] at h
    dsimp only at h
    split at h
    · cases h
    · next hclash =>
      split at h
      · cases h
      · next g₂ s hs =>
        cases h
        exact Or.inr ⟨p, ps, g₂, s, rfl, by simpa using hclash, hs, rfl, rfl⟩

theorem kept_addNode (made : BranchId) {n : NodeId} {N : Node} {compiled : List CompiledChild}
    {w : BranchId} (h : g.addNode f n N compiled = .ok (g', w)) : Kept made g g' := by
  obtain ⟨g₁, words, hr, hcases⟩ := addNode_cases h
  have hgrow := grows_addAliases made (aliasesOf N.children.keys compiled) g (childWords compiled)
  rw [hr] at hgrow
  rcases hcases with ⟨-, -, rfl⟩ | ⟨p, ps, g₂, s, -, -, hs, -, rfl⟩
  · exact hgrow.toKept.trans (kept_add ..)
  · exact (hgrow.trans (grows_addChain made (p :: ps) hs)).toKept.trans (kept_add ..)

/-- The words under a node have a key exactly if a child answers to it. -/
theorem ChildrenFor.contains_iff {n : NodeId} {words : Catalog BranchId}
    (h : g.ChildrenFor f made n [] words) (key : String) :
    words.contains key = false ↔ f.answering n key = [] := by
  rw [Catalog.contains, Option.isSome_eq_false_iff, Option.isNone_iff_eq_none]
  refine ⟨fun hnone => ?_, fun hnone => h.other hnone fun _ _ hnil => by cases hnil⟩
  -- a child that answered would have a word there
  by_contra hne
  obtain ⟨c, hlast⟩ := Option.isSome_iff_exists.mp (List.getLast?_isSome.mpr hne)
  obtain ⟨b, ⟨_, _, _, _, hget, -⟩, -⟩ := h.answered hlast
  rw [hnone] at hget
  cases hget

/-- The slot of the first parameter is put beside words none of which has its key. -/
theorem ChildrenFor.put_slot {n : NodeId} {words : Catalog BranchId}
    (h : g.ChildrenFor f made n [] words) {p : Parameter} {ps : List Parameter}
    (hclash : words.contains p.key = false) {s : BranchId}
    (hs : g.IsChain made (f.runnerOf n) (p :: ps) s) :
    g.ChildrenFor f made n (p :: ps) (words.put p.key s) := by
  have hfree := (h.contains_iff p.key).mp hclash
  refine ⟨fun {key c} hlast => ?_, fun hpp => ?_, fun {key} hnone hother => ?_⟩
  · have hne : key ≠ p.key := by
      rintro rfl
      rw [hfree] at hlast
      cases hlast
    obtain ⟨b, ⟨c', C, name, redirect, hget, hrest⟩, hb⟩ := h.answered hlast
    refine ⟨b, ⟨c', C, name, redirect, ?_, hrest⟩, hb⟩
    rw [Catalog.get?_put, if_neg hne, hget]
  · cases hpp
    exact ⟨hfree, s, Catalog.get?_put_self .., hs⟩
  · rw [Catalog.get?_put, if_neg (hother p ps rfl)]
    exact h.other hnone fun _ _ hnil => by cases hnil

/-! ## Trees -/

theorem addTree_eq_ok {id : NodeId} {node : Node} {children : List Tree} {w : BranchId}
    (h : addTree f g (.branch id node children) = .ok (g', w)) :
    ∃ g₁ compiled, addTrees f g children = .ok (g₁, compiled) ∧
      g₁.addNode f id node compiled = .ok (g', w) := by
  rw [addTree] at h
  split at h
  · cases h
  · next g₁ compiled hts => exact ⟨g₁, compiled, hts, h⟩

theorem addTrees_cons_eq_ok {t : Tree} {ts : List Tree} {compiled : List CompiledChild}
    (h : addTrees f g (t :: ts) = .ok (g', compiled)) :
    ∃ g₁ w rest, addTree f g t = .ok (g₁, w) ∧ addTrees f g₁ ts = .ok (g', rest) ∧
      compiled = ⟨t.node, w⟩ :: rest := by
  rw [addTrees] at h
  split at h
  · cases h
  · next g₁ w ht =>
    split at h
    · cases h
    · next g₂ rest hts =>
      cases h
      exact ⟨g₁, w, rest, ht, hts, rfl⟩

mutual

/-- Compiling adds branches and changes none. -/
theorem kept_addTree (made : BranchId) :
    ∀ (t : Tree) {g g' : Grammar} {w : BranchId}, addTree f g t = .ok (g', w) → Kept made g g'
  | .branch id node children, g, g', w, h => by
    obtain ⟨g₁, compiled, hts, hadd⟩ := addTree_eq_ok h
    exact (kept_addTrees made children hts).trans (kept_addNode made hadd)

theorem kept_addTrees (made : BranchId) :
    ∀ (ts : List Tree) {g g' : Grammar} {compiled : List CompiledChild},
      addTrees f g ts = .ok (g', compiled) → Kept made g g'
  | [], g, g', compiled, h => by
    rw [addTrees] at h
    cases h
    exact Kept.refl made g
  | t :: ts, g, g', compiled, h => by
    obtain ⟨g₁, w, rest, ht, hts, -⟩ := addTrees_cons_eq_ok h
    exact (kept_addTree made t ht).trans (kept_addTrees made ts hts)

end

/-! ## Commands -/

/-- A root is compiled by adding its tree, and then its tree is sealed. -/
theorem compile_of_root {root : NodeId} {N : Node} (hN : f.node? root = some N)
    (hrole : N.role = .root) (refusal : UseFault) :
    g.compile f (some root) refusal
      = (g.addSubtree f root).map fun added => (added.1, f.sealUnder root, added.2) := by
  rw [compile, Option.bind_some, hN, Option.map_some]
  dsimp only
  rw [if_pos hrole]
  cases g.addSubtree f root <;> rfl

/-- A command is compiled if it is a root whose tree can be added. -/
theorem compile_eq_ok_iff {root : NodeId} {refusal : UseFault} {f' : Forest} {word : BranchId} :
    g.compile f (some root) refusal = .ok (g', f', word) ↔
      (∃ N, f.node? root = some N ∧ N.role = .root) ∧
        g.addSubtree f root = .ok (g', word) ∧ f' = f.sealUnder root := by
  cases hN : f.node? root with
  | none => simp [compile, hN]
  | some N =>
    by_cases hrole : N.role = .root
    · rw [compile_of_root hN hrole]
      cases g.addSubtree f root with
      | error fault => simp [Except.map]
      | ok added =>
        constructor
        · intro h
          cases h
          exact ⟨⟨N, rfl, hrole⟩, rfl, rfl⟩
        · rintro ⟨-, h, rfl⟩
          cases h
          rfl
    · simp [compile, hN, hrole]

end Grammar

end CommandTree
