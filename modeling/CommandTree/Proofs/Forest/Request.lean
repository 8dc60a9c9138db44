import CommandTree.Proofs.Forest.Sealing
import Mathlib.Data.List.Chain

/-!
# Requests to a forest

Forests are built by requests: to declare a node, to register a child or a parameter, and to seal a
tree. A request is carried out step by step, and what has been changed when it is refused stays
changed. All its questions are asked before the first change, so in fact a request is either done
completely or changes nothing; and one that is done is a step of building.

* `registering_eq`, `registeringParameter_eq`, `sealing_eq`: what is done step by step is what
  registering and sealing do at once
* `Request.carryOut_cases`: a request is a step of building, or is refused and changes nothing
* `Reachable.after`: whatever is requested, the forest is one that can be built
* `built_in_order`: what holds of a forest after any requests
-/

namespace CommandTree.Forest

open Text

/-- What is done to a forest step by step. A refusal ends it and takes nothing back. -/
abbrev Procedure := EStateM Fault Forest

/-- Asks something of the forest as it is by now. -/
def asking {α : Type} (question : Forest → Except Fault α) : Procedure α := fun f =>
  match question f with
  | .ok a => .ok a f
  | .error fault => .error fault f

/-- Changes the forest. -/
def changing (change : Forest → Forest) : Procedure Unit := fun f => .ok () (change f)

/-- What changes a forest completely, or not at all. -/
def atOnce (change : Forest → Except Fault Forest) : Procedure Unit := fun f =>
  match change f with
  | .ok f' => .ok () f'
  | .error fault => .error fault f

/-- Asking before something is done at once is doing all of it at once. -/
theorem asking_bind_atOnce {α : Type} (question : Forest → Except Fault α)
    (change : α → Forest → Except Fault Forest) :
    (asking question >>= fun a => atOnce (change a))
      = atOnce fun f => question f >>= fun a => change a f := by
  funext f
  simp only [bind, EStateM.bind, asking, atOnce]
  cases question f <;> rfl

theorem changing_bind (change change' : Forest → Forest) :
    (changing change >>= fun _ => changing change') = changing fun f => change' (change f) := rfl

theorem changing_eq_atOnce (change : Forest → Forest) :
    changing change = atOnce fun f => .ok (change f) := rfl

/-! ## Registering -/

/-- Refuses what may not be a child of a node. -/
def checkRole (p c : Node) : Except Fault Unit :=
  if c.role = .root then .error (.node (.childExpected p.label)) else .ok ()

/-- Refuses a child that its parent stands under. -/
def checkCircle (f : Forest) (parent child : NodeId) (c : Node) : Except Fault Unit :=
  if child ∈ f.pathOf parent then .error (.node (.underItself c.label c.name.text)) else .ok ()

/-- Registers a child: after all questions, the child that is replaced loses its parent, the new
one is entered at its parent, and is given it. -/
def registering (parent : NodeId) : Option NodeId → Procedure Unit
  | none => do
    let p ← asking (·.nodeAt parent)
    atOnce fun _ => .error (.node (.childExpected p.label))
  | some child => do
    let p ← asking (·.nodeAt parent)
    let c ← asking (·.nodeAt child)
    let _ ← asking fun _ => checkRole p c
    let _ ← asking fun _ => checkMutable p
    let _ ← asking (·.checkCircle parent child c)
    let _ ← asking (·.checkParent parent c)
    changing (·.detached (p.children.get? c.key) child)
    changing (·.update parent fun n => { n with children := n.children.put c.key child })
    changing (·.update child fun n => { n with parent := some parent })

theorem registerChild_some (f : Forest) (parent child : NodeId) :
    f.registerChild parent (some child) = (do
      let p ← f.nodeAt parent
      let c ← f.nodeAt child
      let _ ← checkRole p c
      let _ ← checkMutable p
      let _ ← f.checkCircle parent child c
      let _ ← f.checkParent parent c
      .ok ((f.detached (p.children.get? c.key) child).attached parent child c.key)) := by
  unfold registerChild
  refine bind_congr fun p => bind_congr fun c => ?_
  unfold checkRole checkCircle
  split
  · rfl
  · refine bind_congr fun _ => ?_
    split <;> rfl

theorem registering_eq (parent : NodeId) (child : Option NodeId) :
    registering parent child = atOnce (·.registerChild parent child) := by
  cases child with
  | none =>
    rw [registering, asking_bind_atOnce]
    rfl
  | some child =>
    simp only [registering, changing_bind]
    simp only [changing_eq_atOnce, asking_bind_atOnce, registerChild_some]
    rfl

/-- Registers a parameter. -/
def registeringParameter (id : NodeId) : Option Parameter → Procedure Unit
  | none => do
    let n ← asking (·.nodeAt id)
    atOnce fun _ => .error (.node (.parameterExpected n.label))
  | some p => do
    let n ← asking (·.nodeAt id)
    let _ ← asking fun _ => checkMutable n
    changing (·.update id fun n => { n with parameters := n.parameters.put p.key p })

theorem registeringParameter_eq (id : NodeId) (p : Option Parameter) :
    registeringParameter id p = atOnce (·.registerParameter id p) := by
  cases p <;> simp only [registeringParameter, changing_eq_atOnce, asking_bind_atOnce] <;> rfl

/-- Declares a node. -/
def declaring (label : String) (role : NodeRole) (name : Datum) (o : Node.Options)
    (run : Call → Outcome Unit) : Procedure Unit := do
  let d ← asking fun _ => Node.describe label role name o
  changing fun f => (f.add (.alone d run)).1

theorem declaring_eq (label : String) (role : NodeRole) (name : Datum) (o : Node.Options)
    (run : Call → Outcome Unit) :
    declaring label role name o run
      = atOnce fun f =>
          Node.describe label role name o >>= fun d => .ok (f.add (.alone d run)).1 := by
  unfold declaring
  simp only [changing_eq_atOnce, asking_bind_atOnce]

/-! ## Sealing -/

mutual

/-- Seals the nodes of a tree, the topmost first. -/
def sealingTree : Tree → Procedure Unit
  | .branch id _ children => do
    changing (·.sealNode id)
    sealingTrees children

/-- Seals the nodes of trees, one tree after the other. -/
def sealingTrees : List Tree → Procedure Unit
  | [] => changing fun f => f
  | t :: ts => do
    sealingTree t
    sealingTrees ts

end

mutual

theorem sealingTree_eq : ∀ t : Tree, sealingTree t = changing fun f => t.ids.foldl sealNode f
  | .branch id node children => by
    rw [sealingTree, sealingTrees_eq children, changing_bind, Tree.ids]
    rfl

theorem sealingTrees_eq :
    ∀ ts : List Tree, sealingTrees ts = changing fun f => (Tree.idsOf ts).foldl sealNode f
  | [] => by
    rw [sealingTrees, Tree.idsOf]
    rfl
  | t :: ts => by
    rw [sealingTrees, sealingTree_eq t, sealingTrees_eq ts, changing_bind, Tree.idsOf]
    simp only [List.foldl_append]

end

/-- Seals a node and all that is under it. -/
def sealing (top : NodeId) : Procedure Unit := do
  let t ← asking fun f => (f.treeOf top).elim (.error (.node .absent)) .ok
  sealingTree t

/-- Sealing a node comes to an end, and seals what stands under it at once. -/
theorem sealing_eq {f : Forest} (hwf : f.WellFormed) (hg : f.Grounded) {top : NodeId} {N : Node}
    (hN : f.node? top = some N) : sealing top f = .ok () (f.sealUnder top) := by
  obtain ⟨t, ht⟩ := treeOf_isSome hwf hg hN
  simp only [sealing, bind, EStateM.bind, asking, ht, Option.elim_some, sealingTree_eq, changing,
    foldl_sealNode_ids hwf hg ht]

theorem sealing_absent {f : Forest} {top : NodeId} (hN : f.node? top = none) :
    sealing top f = .error (.node .absent) f := by
  have ht : f.treeOf top = none := by
    cases ht : f.treeOf top with
    | none => rfl
    | some t =>
      have hnode := (shows_of_treeOf ht).node?
      rw [(shows_of_treeWithin ht).1, hN] at hnode
      cases hnode
  simp only [sealing, bind, EStateM.bind, asking, ht, Option.elim_none]

/-! ## Requests -/

/-- What can be requested of a forest. -/
inductive Request where
  /-- Declares a node of its own. -/
  | declare (label : String) (role : NodeRole) (name : Datum) (options : Node.Options)
    (run : Call → Outcome Unit)
  /-- Registers a child on a node; none stands for what is no node. -/
  | child (parent : NodeId) (child : Option NodeId)
  /-- Registers a parameter on a node; none stands for what is no parameter. -/
  | parameter (id : NodeId) (parameter : Option Parameter)
  /-- Seals a node and all that is under it. -/
  | sealed (top : NodeId)

namespace Request

/-- Does what is requested, step by step. -/
def carryOut : Request → Procedure Unit
  | .declare label role name o run => declaring label role name o run
  | .child parent c => registering parent c
  | .parameter id p => registeringParameter id p
  | .sealed top => sealing top

theorem atOnce_cases {f : Forest} {change : Forest → Except Fault Forest}
    (hstep : ∀ f', change f = .ok f' → f.Step f') :
    (∃ f', atOnce change f = .ok () f' ∧ f.Step f') ∨
      ∃ fault, atOnce change f = .error fault f := by
  unfold atOnce
  cases hc : change f with
  | ok f' => exact Or.inl ⟨f', rfl, hstep f' hc⟩
  | error fault => exact Or.inr ⟨fault, rfl⟩

/-- **A request is a step of building, or it is refused and changes nothing.** -/
theorem carryOut_cases {f : Forest} (hf : f.Reachable) (r : Request) :
    (∃ f', r.carryOut f = .ok () f' ∧ f.Step f') ∨ ∃ fault, r.carryOut f = .error fault f := by
  cases r with
  | declare label role name o run =>
    rw [carryOut, declaring_eq]
    refine atOnce_cases fun f' h => ?_
    cases hd : Node.describe label role name o with
    | error fault => rw [hd] at h; cases h
    | ok d =>
      rw [hd] at h
      cases h
      exact .add run hd
  | child parent c =>
    rw [carryOut, registering_eq]
    exact atOnce_cases fun f' => .child
  | parameter id p =>
    rw [carryOut, registeringParameter_eq]
    exact atOnce_cases fun f' => .parameter
  | sealed top =>
    rw [carryOut]
    cases hN : f.node? top with
    | some N => exact Or.inl ⟨_, sealing_eq hf.wellFormed hf.grounded hN, .sealed f top⟩
    | none => exact Or.inr ⟨_, sealing_absent hN⟩

end Request

/-- The forest after a request, whether it was refused or not. -/
def afterOne (f : Forest) (r : Request) : Forest :=
  match r.carryOut f with
  | .ok _ f' | .error _ f' => f'

/-- The forest after requests. -/
def after (f : Forest) (requests : List Request) : Forest := requests.foldl afterOne f

theorem afterOne_cases {f : Forest} (hf : f.Reachable) (r : Request) :
    f.Step (f.afterOne r) ∨ f.afterOne r = f := by
  unfold afterOne
  rcases r.carryOut_cases hf with ⟨f', h, hs⟩ | ⟨fault, h⟩
  · rw [h]
    exact Or.inl hs
  · rw [h]
    exact Or.inr rfl

/-- Whatever is requested, the forest is one that can be built. -/
theorem Reachable.after {f : Forest} (hf : f.Reachable) (requests : List Request) :
    (f.after requests).Reachable := by
  unfold Forest.after
  induction requests generalizing f with
  | nil => exact hf
  | cons r rest ih =>
    rw [List.foldl_cons]
    refine ih ?_
    rcases afterOne_cases hf r with hs | hsame
    · exact hf.step hs
    · rwa [hsame]

/-! ## What holds after any requests -/

/-- What holds of the links and the seals of a forest. -/
structure InOrder (f : Forest) : Prop where
  /-- A node is among the children of another one exactly if that is its parent. -/
  child_iff : ∀ p c, (∃ P, f.node? p = some P ∧ c ∈ P.children.items) ↔ f.parentOf c = some p
  /-- A child is kept under its name in lower case. -/
  key : ∀ p P entry, f.node? p = some P → entry ∈ P.children.entries →
    ∃ C, f.node? entry.2 = some C ∧ entry.1 = lowercase C.name.text
  /-- No node is a child twice. -/
  once : ∀ p P, f.node? p = some P → P.children.items.Nodup
  /-- Going from parent to parent comes to an end and to no node twice. The path of a node consists
  of the nodes that are met, and its root is the last of them. -/
  ends : ∀ id, ∃ above, f.Lineage id above ∧ (id :: above).Nodup ∧
    f.pathOf id = above.reverse ++ [id] ∧ f.rootOf id = above.getLastD id
  /-- A root has no parent. -/
  parentOf_root : ∀ id, f.parentOf (f.rootOf id) = none
  /-- A path starts at the root, -/
  path_head? : ∀ id, (f.pathOf id).head? = some (f.rootOf id)
  /-- ends at the node, -/
  path_getLast? : ∀ id, (f.pathOf id).getLast? = some id
  /-- and leads from parents to children. -/
  path_isChain : ∀ id, (f.pathOf id).IsChain fun p c => f.parentOf c = some p
  /-- The children of a sealed node are sealed. -/
  seals : ∀ p P c C, f.node? p = some P → P.isSealed = true → c ∈ P.children.items →
    f.node? c = some C → C.isSealed = true

theorem Reachable.inOrder {f : Forest} (hf : f.Reachable) : f.InOrder where
  child_iff := fun _ _ => hf.wellFormed.mem_children_iff
  key := fun p P entry hP hentry => by
    obtain ⟨C, hC, -, hkey, -⟩ := hf.wellFormed.child hP (Catalog.get?_of_mem_entries hentry)
    exact ⟨C, hC, hkey.symm⟩
  once := fun p P hP => hf.wellFormed.nodup_children hP
  ends := fun id => by
    obtain ⟨above, habove⟩ := hf.grounded id
    have hancestors := habove.ancestorsOf hf.wellFormed
    exact ⟨above, habove, habove.nodup, by rw [pathOf, hancestors], by rw [rootOf, hancestors]⟩
  parentOf_root := fun id => by
    obtain ⟨above, habove⟩ := hf.grounded id
    rw [rootOf, habove.ancestorsOf hf.wellFormed]
    exact habove.parentOf_getLastD
  path_head? := fun id => by
    rw [pathOf, rootOf, List.head?_append, List.head?_reverse, List.getLastD_eq_getLast?]
    cases (f.ancestorsOf id).getLast? <;> rfl
  path_getLast? := f.pathOf_getLast
  path_isChain := fun id => by
    obtain ⟨above, habove⟩ := hf.grounded id
    rw [pathOf, habove.ancestorsOf hf.wellFormed, ← List.reverse_cons]
    exact List.isChain_reverse.mpr habove.isChain
  seals := fun p P c C hP hsealed hc hC => by
    have hparent := hf.wellFormed.mem_children_iff.mp ⟨P, hP, hc⟩
    rw [parentOf, hC, Option.bind_some] at hparent
    exact hf.sealsDown hP hsealed hC hparent

/--
**Whatever is requested of a forest, its links and seals stay in order, and a request that is
refused changes nothing.** Parents and children fit each other, the parents above a node come to an
end, and what is under a sealed node is sealed: after any requests to declare nodes, to register
children and parameters and to seal trees, in any order, refused or not.
-/
theorem built_in_order (requests : List Request) :
    (empty.after requests).InOrder ∧
      ∀ (request : Request) (fault : Fault) (f' : Forest),
        request.carryOut (empty.after requests) = .error fault f' → f' = empty.after requests := by
  have hf := Reachable.start.after requests
  refine ⟨hf.inOrder, fun request fault f' h => ?_⟩
  rcases request.carryOut_cases hf with ⟨f'', hdone, -⟩ | ⟨fault', hrefused⟩
  · rw [hdone] at h
    cases h
  · rw [hrefused] at h
    cases h
    rfl

/-- A child that is registered stands under its node, and the node cannot be registered under it. -/
example :
    let f := empty.after [.declare "child" .sub (.string "a") {} fun _ => .done (),
      .declare "child" .sub (.string "b") {} fun _ => .done (), .child 0 (some 1),
      .child 1 (some 0)]
    f.pathOf 1 = [0, 1] ∧ f.rootOf 0 = 0 := by
  decide

end CommandTree.Forest
