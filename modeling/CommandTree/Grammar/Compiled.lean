import CommandTree.Forest.Registration
import CommandTree.Forest.Tree
import CommandTree.Grammar.Basic

/-!
# Compiled trees

A tree of nodes is compiled to branches of a grammar: each node to a word, with the words of its
children under it, a redirecting word for each alias of a child that is no child's name, and the
chain of its parameters, one slot after the other. Each word and each slot runs the node that it
was made for, so parameters at the end can be left out.

A tree cannot be compiled if a greedy parameter is not the last one of its node, or if the first
parameter is named like a word beside it.

* `compile_sealed`: a command that has been compiled is sealed with all that is under it
-/

namespace CommandTree

open Text

namespace Grammar

/-- The grammar with the chain of slots for parameters, and the first of the slots. -/
def addChain (g : Grammar) (usage : String) (callback : Callback) :
    List Parameter → Except Fault (Grammar × BranchId)
  | [] => .error (.datum (.notEnough 1 0))
  | [p] => .ok (g.add ⟨.slot p.name (.ofDomain p.domain), .empty, some callback⟩)
  | p :: next :: rest =>
    if p.greedy then .error (.declaration (.greedyNotLast p.name.text usage))
    else
      match addChain g usage callback (next :: rest) with
      | .error f => .error f
      | .ok (g, id) =>
        .ok (g.add ⟨.slot p.name (.ofDomain p.domain), Catalog.empty.put next.key id,
          some callback⟩)

/-- A child of a node that has been compiled: the node, and the word that it was compiled to. -/
structure CompiledChild where
  node : Node
  word : BranchId

/-- The words of children by their keys. -/
def childWords (children : List CompiledChild) : Catalog BranchId :=
  Catalog.ofList (children.map fun child => (child.node.key, child.word))

/-- The aliases of children that are no child's name, each with the word that it stands for. -/
def aliasesOf (names : List String) (children : List CompiledChild) : List (Name × BranchId) :=
  children.flatMap fun child =>
    (child.node.aliases.filter fun a => !names.contains a.key).map fun a => (a, child.word)

/-- The grammar and the words under a node, with a redirecting word for each alias. -/
def addAliases (g : Grammar) (words : Catalog BranchId) :
    List (Name × BranchId) → Grammar × Catalog BranchId
  | [] => (g, words)
  | (a, target) :: rest =>
    let (g, id) := g.add (.bare (.word a (some target)))
    addAliases g (words.put a.key id) rest

/-- The grammar with the word of a node whose children have been compiled. -/
def addNode (g : Grammar) (f : Forest) (id : NodeId) (n : Node) (children : List CompiledChild) :
    Except Fault (Grammar × BranchId) :=
  let callback : Callback := .dispatch id (f.runnerName id)
  let (g, words) := g.addAliases (childWords children) (aliasesOf n.children.keys children)
  match n.parameters.items with
  | [] => .ok (g.add ⟨.word n.name none, words, some callback⟩)
  -- only the first slot stands beside words, so only its key can clash
  | first :: rest =>
    if words.contains first.key then
      .error (.declaration (.clash first.name.text (f.usageOf id)))
    else
      match g.addChain (f.usageOf id) callback (first :: rest) with
      | .error fault => .error fault
      | .ok (g, slot) => .ok (g.add ⟨.word n.name none, words.put first.key slot, some callback⟩)

mutual

/-- The grammar with the word of a tree. -/
def addTree (f : Forest) (g : Grammar) : Tree → Except Fault (Grammar × BranchId)
  | .branch id node children =>
    match addTrees f g children with
    | .error fault => .error fault
    | .ok (g, compiled) => g.addNode f id node compiled

/-- The grammar with the words of trees. -/
def addTrees (f : Forest) (g : Grammar) : List Tree → Except Fault (Grammar × List CompiledChild)
  | [] => .ok (g, [])
  | t :: ts =>
    match addTree f g t with
    | .error fault => .error fault
    | .ok (g, word) =>
      match addTrees f g ts with
      | .error fault => .error fault
      | .ok (g, compiled) => .ok (g, ⟨t.node, word⟩ :: compiled)

end

/-- The grammar with the word of a node and all that is under it. -/
def addSubtree (g : Grammar) (f : Forest) (id : NodeId) : Except Fault (Grammar × BranchId) :=
  match f.treeOf id with
  | some t => addTree f g t
  | none => .error (.node .absent)

/-- The grammar with the chain of the parameters of a node. -/
def addParameters (g : Grammar) (f : Forest) (id : NodeId) :
    Except Fault (Grammar × BranchId) := do
  let n ← f.nodeAt id
  g.addChain (f.usageOf id) (.dispatch id (f.runnerName id)) n.parameters.items

/-- The grammar with the word of a command of its own, and the forest in which the command is
sealed; none stands for what is no node, and `refusal` is what is said then. -/
def compile (g : Grammar) (f : Forest) (id : Option NodeId) (refusal : UseFault) :
    Except Fault (Grammar × Forest × BranchId) :=
  match id.bind fun id => (f.node? id).map (id, ·) with
  | none => .error (.use refusal)
  | some (id, n) =>
    if n.role = .root then
      match g.addSubtree f id with
      | .ok (g, word) => .ok (g, f.sealUnder id, word)
      | .error fault => .error fault
    else .error (.use refusal)

theorem compile_sealed {g g' : Grammar} {f f' : Forest} {id : NodeId} {refusal : UseFault}
    {word : BranchId} (h : g.compile f (some id) refusal = .ok (g', f', word)) :
    f' = f.sealUnder id := by
  unfold compile at h
  cases hn : f.node? id with
  | none => simp [hn] at h
  | some n =>
    simp only [Option.bind_some, hn, Option.map_some] at h
    split at h
    · split at h
      · cases h; rfl
      · cases h
    · cases h

end Grammar

end CommandTree
