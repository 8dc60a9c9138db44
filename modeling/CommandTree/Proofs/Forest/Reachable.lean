import CommandTree.Forest.Registration
import CommandTree.Node.Declaration

/-!
# Forests that can be built

A forest starts without nodes. Then nodes are declared, children and parameters are registered, and
trees are sealed, in any order. However it was built, parents and children of a forest fit each
other: a node hangs under exactly the node among whose children it is, and there under its own key.

* `linked_of_registerChild`: what registering a child takes and changes
* `wellFormed_step`: no step breaks the form of a forest
* `Reachable.wellFormed`: every forest that can be built is well formed
* `Reachable.nodup_words`: the name and the aliases of a node are different words
-/

namespace CommandTree.Forest

/-- One step of building a forest. Steps that are refused change nothing. -/
inductive Step : Forest → Forest → Prop
  | add {f : Forest} {label : String} {role : NodeRole} {name : Datum} {o : Node.Options}
      {d : Description} (run : Call → Outcome Unit) (h : Node.describe label role name o = .ok d) :
      Step f (f.add (.alone d run)).1
  | child {f f' : Forest} {parent : NodeId} {child : Option NodeId}
      (h : f.registerChild parent child = .ok f') : Step f f'
  | parameter {f f' : Forest} {id : NodeId} {p : Option Parameter}
      (h : f.registerParameter id p = .ok f') : Step f f'
  | sealed (f : Forest) (top : NodeId) : Step f (f.sealUnder top)

/-- The forests that can be built. -/
inductive Reachable : Forest → Prop
  | start : Reachable empty
  | step {f f' : Forest} (h : Reachable f) (hs : Step f f') : Reachable f'

/-- Parents and children fit each other, and what is registered is filed under its key. -/
structure WellFormed (f : Forest) : Prop where
  child : ∀ {p P key c}, f.node? p = some P → P.children.get? key = some c →
    ∃ C, f.node? c = some C ∧ C.parent = some p ∧ C.key = key ∧ C.role = .sub
  parent : ∀ {c C p}, f.node? c = some C → C.parent = some p →
    ∃ P, f.node? p = some P ∧ P.children.get? C.key = some c
  parameter : ∀ {id n key p}, f.node? id = some n → n.parameters.get? key = some p → p.key = key

theorem WellFormed.parent_of_root {f : Forest} (h : f.WellFormed) {id : NodeId} {n : Node}
    (hn : f.node? id = some n) (hr : n.role = .root) : n.parent = none := by
  cases hp : n.parent with
  | none => rfl
  | some p =>
    obtain ⟨P, hP, hc⟩ := h.parent hn hp
    obtain ⟨C, hC, -, -, hs⟩ := h.child hP hc
    rw [hn] at hC
    cases hC
    rw [hr] at hs
    cases hs

theorem WellFormed.parentOf_command {f : Forest} (h : f.WellFormed) {id : NodeId} {n : Node}
    (hn : f.node? id = some n) (hr : n.role = .root) : f.parentOf id = none := by
  rw [parentOf, hn]
  exact h.parent_of_root hn hr

theorem WellFormed.parameter_keys {f : Forest} (h : f.WellFormed) {id : NodeId} {n : Node}
    (hn : f.node? id = some n) : n.parameters.items.map Parameter.key = n.parameters.keys := by
  rw [Catalog.items, Catalog.keys, List.map_map]
  refine List.map_congr_left fun entry hmem => ?_
  exact h.parameter hn ((Catalog.mem_entries_iff_get? _ _ _).mp hmem)

theorem WellFormed.nodup_keys {f : Forest} (h : f.WellFormed) {id : NodeId} {n : Node}
    (hn : f.node? id = some n) : (n.parameters.items.map Parameter.key).Nodup := by
  rw [h.parameter_keys hn]
  exact n.parameters.nodup

theorem WellFormed.nodup_names {f : Forest} (h : f.WellFormed) {id : NodeId} {n : Node}
    (hn : f.node? id = some n) : (n.parameters.items.map (·.name.text)).Nodup := by
  have hkeys := h.nodup_keys hn
  have hsame : n.parameters.items.map Parameter.key
      = (n.parameters.items.map (·.name.text)).map Text.lowercase := by
    rw [List.map_map]
    rfl
  rw [hsame] at hkeys
  exact List.Pairwise.of_map Text.lowercase (fun a b hne he => hne (by rw [he])) hkeys

/-- A parameter is found under its own key. -/
theorem WellFormed.get?_key {f : Forest} (h : f.WellFormed) {id : NodeId} {n : Node}
    (hn : f.node? id = some n) {p : Parameter} (hp : p ∈ n.parameters.items) :
    n.parameters.get? p.key = some p := by
  obtain ⟨entry, hmem, rfl⟩ := List.mem_map.mp hp
  have hget := (Catalog.mem_entries_iff_get? _ _ _).mp hmem
  rw [h.parameter hn hget]
  exact hget

/-! ## What a step changes -/

theorem node?_update (f : Forest) (id other : NodeId) (change : Node → Node) :
    (f.update id change).node? other
      = if other = id then (f.node? other).map change else f.node? other := by
  by_cases h : other = id
  · subst h
    rw [node?_update_self, if_pos rfl]
  · rw [node?_update_ne f (Ne.symm h), if_neg h]

theorem nodeAt_eq_ok_iff {f : Forest} {id : NodeId} {n : Node} :
    f.nodeAt id = .ok n ↔ f.node? id = some n := by
  unfold nodeAt
  cases f.node? id <;> simp

/-- A node after a child has been registered: the parent has one more entry, the child hangs under
the parent, and the child that was replaced has no parent. -/
def relinked (parent child : NodeId) (key : String) (previous : Option NodeId) (id : NodeId)
    (n : Node) : Node :=
  { n with
    children := if id = parent then n.children.put key child else n.children
    parent := if id = child then some parent else if previous = some id then none else n.parent }

@[simp] theorem relinked_key (parent child : NodeId) (key : String)
    (previous : Option NodeId) (id : NodeId) (n : Node) :
    (relinked parent child key previous id n).key = n.key := rfl

theorem node?_detached (f : Forest) (previous : Option NodeId) (child id : NodeId) :
    (f.detached previous child).node? id
      = (f.node? id).map fun n =>
        if id ≠ child ∧ previous = some id then { n with parent := none } else n := by
  cases previous with
  | none => simp [detached]
  | some q =>
    rw [detached]
    by_cases hq : q = child
    · have hn : ∀ n : Node, (if id ≠ child ∧ some q = some id then { n with parent := none } else n)
          = n := fun n => if_neg fun h => h.1 ((Option.some.inj h.2).symm.trans hq)
      rw [if_pos hq, funext hn, Option.map_id']
    · rw [if_neg hq, node?_update]
      by_cases hid : id = q
      · subst hid
        simp [hq]
      · have hne : ¬ some q = some id := fun h => hid (Option.some.inj h).symm
        simp [hid, hne]

/-- Detaching the child that is replaced and attaching the new one changes the links and nothing
else. -/
theorem node?_attached_detached (f : Forest) {parent child : NodeId} (hne : child ≠ parent)
    (key : String) (previous : Option NodeId) (id : NodeId) :
    ((f.detached previous child).attached parent child key).node? id
      = (f.node? id).map (relinked parent child key previous id) := by
  rw [attached, node?_update, node?_update, node?_detached]
  by_cases hc : id = child
  · have hp : id ≠ parent := fun he => hne (hc.symm.trans he)
    rw [if_pos hc, if_neg hp, Option.map_map]
    congr 1
    funext n
    simp [relinked, hc, hne]
  · rw [if_neg hc]
    by_cases hp : id = parent
    · rw [if_pos hp, Option.map_map]
      congr 1
      funext n
      by_cases hq : previous = some id <;> simp [relinked, hp, hp ▸ hq, hne.symm]
    · rw [if_neg hp]
      congr 1
      funext n
      by_cases hq : previous = some id <;> simp [relinked, hc, hp, hq]

theorem checkParent_eq_ok_iff {f : Forest} {parent : NodeId} {n : Node} :
    f.checkParent parent n = .ok () ↔ ∀ p, n.parent = some p → p = parent := by
  unfold checkParent
  cases n.parent with
  | none => simp
  | some p =>
    by_cases hp : p = parent <;> simp [hp]

/-- What registering a child takes and changes: the parent is not sealed and does not stand under
the child, the child hangs under no other node, and only links change. -/
structure Linked (f f' : Forest) (parent child : NodeId) (P C : Node) : Prop where
  parentNode : f.node? parent = some P
  childNode : f.node? child = some C
  role : C.role = .sub
  unsealed : P.isSealed = false
  noCircle : child ∉ f.pathOf parent
  free : ∀ p, C.parent = some p → p = parent
  after : ∀ id, f'.node? id
    = (f.node? id).map (relinked parent child C.key (P.children.get? C.key) id)

theorem linked_of_registerChild {f f' : Forest} {parent : NodeId} {child : Option NodeId}
    (h : f.registerChild parent child = .ok f') :
    ∃ c P C, child = some c ∧ Linked f f' parent c P C := by
  unfold registerChild at h
  cases hP : f.nodeAt parent with
  | error fault => rw [hP] at h; cases h
  | ok P =>
    rw [hP] at h
    cases child with
    | none => cases h
    | some c =>
      cases hC : f.nodeAt c with
      | error fault => simp only [bind, Except.bind, hC] at h; cases h
      | ok C =>
        simp only [bind, Except.bind, hC] at h
        by_cases hrole : C.role = .root
        · rw [if_pos hrole] at h
          cases h
        · rw [if_neg hrole] at h
          have hsub : C.role = .sub := by
            cases hr : C.role with
            | root => exact absurd hr hrole
            | sub => rfl
          cases hmut : checkMutable P with
          | error fault => rw [hmut] at h; cases h
          | ok u =>
            rw [hmut] at h
            by_cases hpath : c ∈ f.pathOf parent
            · simp only [hpath, if_true] at h
              cases h
            · simp only [hpath, if_false] at h
              cases hpar : f.checkParent parent C with
              | error fault => rw [hpar] at h; cases h
              | ok u =>
                rw [hpar] at h
                cases h
                have hne : c ≠ parent := fun he => hpath (by simp [pathOf, he])
                refine ⟨c, P, C, rfl, nodeAt_eq_ok_iff.mp hP, nodeAt_eq_ok_iff.mp hC, hsub,
                  checkMutable_eq_ok_iff.mp hmut, hpath, checkParent_eq_ok_iff.mp hpar, ?_⟩
                exact node?_attached_detached f hne C.key _

theorem node?_registerParameter {f f' : Forest} {id : NodeId} {p : Option Parameter}
    (h : f.registerParameter id p = .ok f') :
    ∃ p', p = some p' ∧ ∀ other, f'.node? other = (f.node? other).map fun n =>
      if other = id then { n with parameters := n.parameters.put p'.key p' } else n := by
  unfold registerParameter at h
  cases hn : f.nodeAt id with
  | error fault => rw [hn] at h; cases h
  | ok n =>
    rw [hn] at h
    cases p with
    | none => cases h
    | some p' =>
      cases hm : checkMutable n with
      | error fault => simp only [bind, Except.bind, hm] at h; cases h
      | ok u =>
        simp only [bind, Except.bind, hm] at h
        cases h
        refine ⟨p', rfl, fun other => ?_⟩
        rw [node?_update]
        by_cases ho : other = id <;> simp [ho]

/-! ## No step breaks the form -/

theorem WellFormed.empty : Forest.empty.WellFormed where
  child := fun h => by cases h
  parent := fun h => by cases h
  parameter := fun h => by cases h

/-- Changes that leave all links alone keep a forest well formed. -/
theorem WellFormed.of_map {f f' : Forest} (h : f.WellFormed) {change : NodeId → Node → Node}
    (hnode : ∀ id, f'.node? id = (f.node? id).map (change id))
    (hdesc : ∀ id n, (change id n).toDescription = n.toDescription)
    (hchildren : ∀ id n, (change id n).children = n.children)
    (hparent : ∀ id n, (change id n).parent = n.parent)
    (hparam : ∀ id n key p, (change id n).parameters.get? key = some p →
      n.parameters.get? key = some p ∨ p.key = key) : f'.WellFormed where
  child := by
    intro p P' key c hp hc
    rw [hnode] at hp
    obtain ⟨P, hP, rfl⟩ := Option.map_eq_some_iff.mp hp
    rw [hchildren] at hc
    obtain ⟨C, hC, hCp, hCk, hCr⟩ := h.child hP hc
    have hname : (change c C).name = C.name := congrArg Description.name (hdesc c C)
    refine ⟨change c C, by rw [hnode, hC]; rfl, by rw [hparent, hCp], ?_, ?_⟩
    · rw [← hCk, Node.key, Node.key, hname]
    · rw [← hCr]
      exact congrArg Description.role (hdesc c C)
  parent := by
    intro c C' p hc hp
    rw [hnode] at hc
    obtain ⟨C, hC, rfl⟩ := Option.map_eq_some_iff.mp hc
    rw [hparent] at hp
    obtain ⟨P, hP, hPc⟩ := h.parent hC hp
    have hname : (change c C).name = C.name := congrArg Description.name (hdesc c C)
    refine ⟨change p P, by rw [hnode, hP]; rfl, ?_⟩
    rw [hchildren, Node.key, hname]
    exact hPc
  parameter := by
    intro id n' key p hn hp
    rw [hnode] at hn
    obtain ⟨n, hold, rfl⟩ := Option.map_eq_some_iff.mp hn
    rcases hparam id n key p hp with hmem | hkey
    · exact h.parameter hold hmem
    · exact hkey

theorem node?_size (f : Forest) : f.node? f.size = none := by
  rw [node?, size, List.getElem?_eq_none (Nat.le_refl _)]

theorem WellFormed.add {f : Forest} (h : f.WellFormed) (d : Description)
    (run : Call → Outcome Unit) : (f.add (.alone d run)).1.WellFormed := by
  have hold : ∀ {id n}, f.node? id = some n → (f.add (.alone d run)).1.node? id = some n := by
    intro id n hn
    have hne : id ≠ f.size := by
      rintro rfl
      rw [node?_size] at hn
      cases hn
    rw [node?_add, if_neg hne, hn]
  have hcases : ∀ {id n}, (f.add (.alone d run)).1.node? id = some n →
      n = .alone d run ∨ f.node? id = some n := by
    intro id n hn
    rw [node?_add] at hn
    split at hn
    · cases hn
      exact Or.inl rfl
    · exact Or.inr hn
  refine ⟨?_, ?_, ?_⟩
  · intro p P key c hP hc
    rcases hcases hP with rfl | hP
    · cases hc
    · obtain ⟨C, hC, hrest⟩ := h.child hP hc
      exact ⟨C, hold hC, hrest⟩
  · intro c C p hC hp
    rcases hcases hC with rfl | hC
    · cases hp
    · obtain ⟨P, hP, hPc⟩ := h.parent hC hp
      exact ⟨P, hold hP, hPc⟩
  · intro id n key p hn hp
    rcases hcases hn with rfl | hn
    · cases hp
    · exact h.parameter hn hp

section Linked

variable {f f' : Forest} {parent c : NodeId} {P C : Node}

theorem Linked.node? (hl : Linked f f' parent c P C) {id : NodeId} {n : Node}
    (hn : f.node? id = some n) :
    f'.node? id = some (relinked parent c C.key (P.children.get? C.key) id n) := by
  rw [hl.after, hn, Option.map_some]

/-- The child that is replaced hangs under the same parent, under the same key. -/
theorem Linked.replaced (hl : Linked f f' parent c P C) (h : f.WellFormed) {q : NodeId}
    (hq : P.children.get? C.key = some q) {Q : Node} (hQ : f.node? q = some Q) :
    Q.parent = some parent ∧ Q.key = C.key := by
  obtain ⟨Q', hQ', hQp, hQk, -⟩ := h.child hl.parentNode hq
  rw [hQ] at hQ'
  cases hQ'
  exact ⟨hQp, hQk⟩

/-- Children under other keys, or of other nodes, stay as they are. -/
theorem Linked.child_kept (hl : Linked f f' parent c P C) (h : f.WellFormed) {p d : NodeId}
    {P₀ : Node} {key : String} (hP₀ : f.node? p = some P₀) (hget : P₀.children.get? key = some d)
    (hne : p = parent → key ≠ C.key) :
    ∃ D, f'.node? d = some D ∧ D.parent = some p ∧ D.key = key ∧ D.role = .sub := by
  obtain ⟨D, hD, hDp, hDk, hDr⟩ := h.child hP₀ hget
  have hdc : d ≠ c := by
    rintro rfl
    rw [hl.childNode] at hD
    cases hD
    exact hne (hl.free p hDp) hDk.symm
  have hdq : P.children.get? C.key ≠ some d := by
    intro hq
    obtain ⟨hQp, hQk⟩ := hl.replaced h hq hD
    exact hne (Option.some.inj (hDp.symm.trans hQp)) (hDk.symm.trans hQk)
  exact ⟨_, hl.node? hD, by simp [relinked, hdc, hdq, hDp], hDk, hDr⟩

theorem Linked.child_fits (hl : Linked f f' parent c P C) (h : f.WellFormed) {p d : NodeId}
    {P' : Node} {key : String} (hp : f'.node? p = some P') (hd : P'.children.get? key = some d) :
    ∃ D, f'.node? d = some D ∧ D.parent = some p ∧ D.key = key ∧ D.role = .sub := by
  rw [hl.after] at hp
  obtain ⟨P₀, hP₀, rfl⟩ := Option.map_eq_some_iff.mp hp
  by_cases hpp : p = parent
  · have hd' : (P₀.children.put C.key c).get? key = some d := by
      simpa [relinked, hpp] using hd
    rw [Catalog.get?_put] at hd'
    split at hd'
    · next hkey =>
      cases hd'
      exact ⟨_, hl.node? hl.childNode, by simp [relinked, hpp], hkey.symm, hl.role⟩
    · next hkey => exact hl.child_kept h hP₀ hd' fun _ => hkey
  · have hd' : P₀.children.get? key = some d := by
      simpa [relinked, hpp] using hd
    exact hl.child_kept h hP₀ hd' fun he => absurd he hpp

theorem Linked.parent_fits (hl : Linked f f' parent c P C) (h : f.WellFormed) {d p : NodeId}
    {D' : Node} (hd : f'.node? d = some D') (hp : D'.parent = some p) :
    ∃ P', f'.node? p = some P' ∧ P'.children.get? D'.key = some d := by
  rw [hl.after] at hd
  obtain ⟨D, hD, rfl⟩ := Option.map_eq_some_iff.mp hd
  by_cases hdc : d = c
  · have hpp : parent = p := by simpa [relinked, hdc] using hp
    have hDC : D = C := by
      rw [hdc, hl.childNode] at hD
      exact (Option.some.inj hD).symm
    refine ⟨_, hl.node? (hpp ▸ hl.parentNode), ?_⟩
    simp [relinked, hpp, hDC, hdc, Node.key]
  · -- a node that still hangs somewhere has not been replaced, so its parent still has it
    have hdq : P.children.get? C.key ≠ some d := by
      intro hq
      simp [relinked, hdc, hq] at hp
    have hp' : D.parent = some p := by simpa [relinked, hdc, hdq] using hp
    obtain ⟨P₀, hP₀, hget⟩ := h.parent hD hp'
    refine ⟨_, hl.node? hP₀, ?_⟩
    rw [relinked_key]
    by_cases hpp : p = parent
    · have hPP : P₀ = P := by
        rw [hpp, hl.parentNode] at hP₀
        exact (Option.some.inj hP₀).symm
      have hkey : D.key ≠ C.key := by
        intro he
        rw [he, hPP] at hget
        exact hdq hget
      simp [relinked, hpp, Catalog.get?_put, hkey, hget]
    · simpa [relinked, hpp] using hget

end Linked

theorem WellFormed.registerChild {f f' : Forest} (h : f.WellFormed) {parent : NodeId}
    {child : Option NodeId} (hreg : f.registerChild parent child = .ok f') : f'.WellFormed := by
  obtain ⟨c, P, C, -, hl⟩ := linked_of_registerChild hreg
  refine ⟨hl.child_fits h, hl.parent_fits h, ?_⟩
  intro id n' key p hn hp
  rw [hl.after] at hn
  obtain ⟨n, hold, rfl⟩ := Option.map_eq_some_iff.mp hn
  exact h.parameter hold hp

theorem WellFormed.registerParameter {f f' : Forest} (h : f.WellFormed) {id : NodeId}
    {p : Option Parameter} (hreg : f.registerParameter id p = .ok f') : f'.WellFormed := by
  obtain ⟨p', -, hnode⟩ := node?_registerParameter hreg
  refine h.of_map hnode ?_ ?_ ?_ ?_
  · intro other n
    split <;> rfl
  · intro other n
    split <;> rfl
  · intro other n
    split <;> rfl
  · intro other n key q hq
    split at hq
    · rw [Catalog.get?_put] at hq
      split at hq
      · next hkey =>
        cases hq
        exact Or.inr hkey.symm
      · exact Or.inl hq
    · exact Or.inl hq

theorem WellFormed.sealUnder {f : Forest} (h : f.WellFormed) (top : NodeId) :
    (f.sealUnder top).WellFormed := by
  refine h.of_map (node?_sealUnder f top) ?_ ?_ ?_ ?_
  · intro id n
    split <;> rfl
  · intro id n
    split <;> rfl
  · intro id n
    split <;> rfl
  · intro id n key p hp
    split at hp <;> exact Or.inl hp

theorem wellFormed_step {f f' : Forest} (h : f.WellFormed) (hs : Step f f') : f'.WellFormed := by
  cases hs with
  | add run hd => exact h.add _ run
  | child hreg => exact h.registerChild hreg
  | parameter hreg => exact h.registerParameter hreg
  | sealed => exact h.sealUnder _

/-- **Every forest that can be built is well formed.** -/
theorem Reachable.wellFormed {f : Forest} (h : f.Reachable) : f.WellFormed := by
  induction h with
  | start => exact WellFormed.empty
  | step _ hs ih => exact wellFormed_step ih hs

/-! ## What nodes say about themselves -/

/-- A node says what it was declared with. -/
theorem Reachable.declared {f : Forest} (h : f.Reachable) {id : NodeId} {n : Node}
    (hn : f.node? id = some n) :
    ∃ label role name o, Node.describe label role name o = .ok n.toDescription := by
  induction h generalizing id n with
  | start => cases hn
  | step _ hs ih =>
    cases hs with
    | add run hd =>
      rw [node?_add] at hn
      split at hn
      · cases hn
        exact ⟨_, _, _, _, hd⟩
      · exact ih hn
    | child hreg =>
      obtain ⟨c, P, C, -, hl⟩ := linked_of_registerChild hreg
      rw [hl.after] at hn
      obtain ⟨n₀, hn₀, rfl⟩ := Option.map_eq_some_iff.mp hn
      have hd := ih hn₀
      exact hd
    | parameter hreg =>
      obtain ⟨p, -, hnode⟩ := node?_registerParameter hreg
      rw [hnode] at hn
      obtain ⟨n₀, hn₀, rfl⟩ := Option.map_eq_some_iff.mp hn
      have hd := ih hn₀
      split <;> exact hd
    | sealed top =>
      rw [node?_sealUnder] at hn
      obtain ⟨n₀, hn₀, rfl⟩ := Option.map_eq_some_iff.mp hn
      have hd := ih hn₀
      split <;> exact hd

/-- The name of a node and its aliases have keys that differ from each other. -/
theorem Reachable.nodup_words {f : Forest} (h : f.Reachable) {id : NodeId} {n : Node}
    (hn : f.node? id = some n) : (n.key :: n.aliases.map Name.key).Nodup := by
  obtain ⟨label, role, name, o, hd⟩ := h.declared hn
  obtain ⟨names, haliases⟩ := Node.exists_keptAliases_of_describe hd
  obtain ⟨hnodup, hseen⟩ := Node.keptAliases_keys [n.key] names
  rw [List.nodup_cons, haliases]
  refine ⟨fun hmem => ?_, hnodup⟩
  obtain ⟨a, ha, hkey⟩ := List.mem_map.mp hmem
  exact hseen a ha (List.mem_singleton.mpr hkey)

end CommandTree.Forest
