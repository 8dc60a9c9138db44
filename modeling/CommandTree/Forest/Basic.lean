import CommandTree.Node.Basic

/-!
# Forests of nodes

A forest holds all nodes, each at its place. The parents of the nodes tie them into trees; a chain
of parents is followed no further than there are nodes, which is as far as a chain without a circle
can go.

* `node?_update_self`, `node?_update_ne`: a change at one place leaves the others alone
* `node?_add`: a node that is added is found, and all others are found as before
* `pathOf_getLast`: the path of a node ends at it
-/

namespace CommandTree

open Text

/-- All nodes, each at its place. -/
structure Forest where
  nodes : List Node

namespace Forest

/-- The forest without nodes. -/
def empty : Forest := ⟨[]⟩

instance : Inhabited Forest := ⟨empty⟩

/-- The number of nodes. -/
def size (f : Forest) : Nat := f.nodes.length

/-- The node at a place. -/
def node? (f : Forest) (id : NodeId) : Option Node := f.nodes[id]?

/-- The forest with a node at a new place, and that place. -/
def add (f : Forest) (n : Node) : Forest × NodeId := (⟨f.nodes ++ [n]⟩, f.size)

/-- The forest with the node at a place changed. -/
def update (f : Forest) (id : NodeId) (change : Node → Node) : Forest := ⟨f.nodes.modify id change⟩

theorem node?_add (f : Forest) (n : Node) (id : NodeId) :
    (f.add n).1.node? id = if id = f.size then some n else f.node? id := by
  show (f.nodes ++ [n])[id]? = _
  rcases Nat.lt_trichotomy id f.size with h | h | h
  · rw [if_neg (Nat.ne_of_lt h)]
    exact List.getElem?_append_left h
  · subst h
    rw [if_pos rfl]
    simp [size]
  · rw [if_neg (Nat.ne_of_gt h)]
    have hlen : (f.nodes ++ [n]).length ≤ id := by
      rw [List.length_append]
      exact h
    rw [List.getElem?_eq_none hlen, node?, List.getElem?_eq_none (Nat.le_of_lt h)]

@[simp] theorem node?_update_self (f : Forest) (id : NodeId) (change : Node → Node) :
    (f.update id change).node? id = (f.node? id).map change := by
  simp [update, node?]

theorem node?_update_ne (f : Forest) {id other : NodeId} (h : id ≠ other) (change : Node → Node) :
    (f.update id change).node? other = f.node? other := by
  simp [update, node?, h]

@[simp] theorem size_update (f : Forest) (id : NodeId) (change : Node → Node) :
    (f.update id change).size = f.size := by
  simp [update, size]

/-! ## Parents -/

/-- The parent of a node. -/
def parentOf (f : Forest) (id : NodeId) : Option NodeId := (f.node? id).bind Node.parent

/-- The parents above a node, the nearest first, no more than `bound` of them. -/
def ancestorsWithin (f : Forest) : Nat → NodeId → List NodeId
  | 0, _ => []
  | bound + 1, id =>
    match f.parentOf id with
    | some parent => parent :: ancestorsWithin f bound parent
    | none => []

/-- The parents above a node, the nearest first. -/
def ancestorsOf (f : Forest) (id : NodeId) : List NodeId := f.ancestorsWithin f.size id

/-- The nodes from the root of a tree down to a node. -/
def pathOf (f : Forest) (id : NodeId) : List NodeId := (f.ancestorsOf id).reverse ++ [id]

/-- The root of the tree that a node stands in. -/
def rootOf (f : Forest) (id : NodeId) : NodeId := (f.ancestorsOf id).getLastD id

theorem pathOf_getLast (f : Forest) (id : NodeId) : (f.pathOf id).getLast? = some id := by
  simp [pathOf]

theorem rootOf_of_parentOf {f : Forest} {id : NodeId} (h : f.parentOf id = none) :
    f.rootOf id = id := by
  have hanc : f.ancestorsOf id = [] := by
    unfold ancestorsOf
    cases f.size with
    | zero => rfl
    | succ n => simp [ancestorsWithin, h]
  simp [rootOf, hanc]

/-- The nodes on the path of a node. -/
def pathNodes (f : Forest) (id : NodeId) : List Node := (f.pathOf id).filterMap f.node?

/-! ## Lines of usage -/

/-- The names of the children of a node, in order. -/
def childNames (f : Forest) (n : Node) : List String :=
  (n.children.items.filterMap f.node?).map (·.name.text)

/-- The line of usage of a node: its path, its children, and its parameters. -/
def usageOf (f : Forest) (id : NodeId) : String :=
  let path := (f.pathNodes id).map (·.name.text)
  match f.node? id with
  | none => " ".intercalate path
  | some n =>
    let children :=
      if n.children.entries.isEmpty then [] else ["<" ++ "|".intercalate (f.childNames n) ++ ">"]
    " ".intercalate (path ++ children ++ n.parameters.items.map Parameter.usage)

/-- The name of what runs a node. -/
def runnerName (f : Forest) (id : NodeId) : String :=
  "execute_" ++ "_".intercalate ((f.pathNodes id).map Node.key)

/-! ## Children by word -/

/-- The child of a node that a word leads to: the one of that name, or else the first one that
answers to the word. -/
def resolve (f : Forest) (id : NodeId) (word : String) : Option NodeId :=
  match f.node? id with
  | none => none
  | some n =>
    match n.children.get? (lowercase word) with
    | some child => some child
    | none => n.children.items.find? fun child => (f.node? child).any (·.matchesWord word)

end Forest

end CommandTree
