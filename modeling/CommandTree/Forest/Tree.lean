import CommandTree.Forest.Basic

/-!
# Trees of nodes

The tree under a node of a forest, as one piece: each node with its place and with the trees of its
children, in order. It is what is shown of a node, and what is compiled.

* `Tree.ids_subset_of_mem`: the nodes of a child's tree are among those of the whole tree
-/

namespace CommandTree

open Text

/-- A node with its place and the trees of its children. -/
inductive Tree where
  | branch (id : NodeId) (node : Node) (children : List Tree)

namespace Tree

/-- The place of the topmost node. -/
def id : Tree → NodeId
  | .branch id _ _ => id

/-- The topmost node. -/
def node : Tree → Node
  | .branch _ node _ => node

/-- The trees under the topmost node. -/
def children : Tree → List Tree
  | .branch _ _ children => children

mutual

/-- The places of all nodes of the tree, the topmost first. -/
def ids : Tree → List NodeId
  | .branch id _ children => id :: idsOf children

/-- The places of all nodes of trees. -/
def idsOf : List Tree → List NodeId
  | [] => []
  | t :: ts => ids t ++ idsOf ts

end

theorem ids_subset_of_mem {t : Tree} {ts : List Tree} (h : t ∈ ts) : t.ids ⊆ idsOf ts := by
  induction ts with
  | nil => cases h
  | cons first rest ih =>
    intro id hid
    rw [idsOf, List.mem_append]
    rcases List.mem_cons.1 h with rfl | h
    · exact Or.inl hid
    · exact Or.inr (ih h hid)

/-- A text that need not be there, as it is shown. -/
def optionalShown (s : Option String) : String :=
  match s with
  | none => Datum.null.shown
  | some s => quoted s

/-- Entries as they are shown, given how each item is. -/
def entriesShown (entries : List (String × String)) : String :=
  "\x7b" ++ ", ".intercalate (entries.map fun entry => quoted entry.1 ++ ": " ++ entry.2) ++ "\x7d"

/-- A node as it is shown, given how its children are. -/
def nodeShown (n : Node) (children : List String) : String :=
  n.label ++ "(name=" ++ quoted n.name.text
    ++ ", permission=" ++ optionalShown n.permission
    ++ ", description=" ++ optionalShown n.description
    ++ ", aliases=" ++ tupleShown (n.aliases.map fun a => quoted a.text)
    ++ ", executor=" ++ n.audience.shown
    ++ ", children=" ++ entriesShown (n.children.keys.zip children)
    ++ ", arguments="
    ++ entriesShown (n.parameters.entries.map fun entry => (entry.1, entry.2.shown)) ++ ")"

mutual

/-- The tree as it is shown. -/
def shown : Tree → String
  | .branch _ node children => nodeShown node (shownAll children)

/-- Trees as they are shown. -/
def shownAll : List Tree → List String
  | [] => []
  | t :: ts => shown t :: shownAll ts

end

end Tree

namespace Forest

/-- The tree under a node, no more than `bound` nodes deep. -/
def treeWithin (f : Forest) : Nat → NodeId → Option Tree
  | 0, _ => none
  | bound + 1, id => do
    let node ← f.node? id
    let children ← node.children.items.mapM (f.treeWithin bound)
    some (.branch id node children)

/-- The tree under a node. In a forest without circles no tree is deeper than there are nodes. -/
def treeOf (f : Forest) (id : NodeId) : Option Tree := f.treeWithin f.size id

end Forest

end CommandTree
