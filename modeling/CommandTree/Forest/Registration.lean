import CommandTree.Forest.Basic

/-!
# Registering children and parameters

Children and parameters are registered on a node one by one. One that is registered under a key that
is in use takes the place of the other, and a child that is replaced has no parent any more. Nothing
can be registered on a node that has been compiled, and a node cannot get under itself.

* `checkMutable_eq_ok_iff`: exactly the nodes that have not been compiled can be changed
* `node?_sealUnder`: sealing changes nothing but the nodes under the one that is sealed
-/

namespace CommandTree.Forest

open Text

/-- The node at a place where there has to be one. -/
def nodeAt (f : Forest) (id : NodeId) : Except Fault Node :=
  match f.node? id with
  | some n => .ok n
  | none => .error (.node .absent)

/-- Refuses changes of a node that has been compiled. -/
def checkMutable (n : Node) : Except Fault Unit :=
  if n.isSealed then .error (.node (.compiled n.label n.name.text)) else .ok ()

theorem checkMutable_eq_ok_iff {n : Node} : checkMutable n = .ok () ↔ n.isSealed = false := by
  unfold checkMutable
  cases n.isSealed <;> simp

/-- Refuses a parent for a child that has another one. -/
def checkParent (f : Forest) (parent : NodeId) (child : Node) : Except Fault Unit :=
  match child.parent with
  | none => .ok ()
  | some other =>
    if other = parent then .ok ()
    else .error (.node (.underAnother child.label child.name.text
      ((f.node? other).elim "" (·.name.text))))

/-- The forest in which a child that was replaced has no parent. -/
def detached (f : Forest) (previous : Option NodeId) (child : NodeId) : Forest :=
  match previous with
  | none => f
  | some previous =>
    if previous = child then f else f.update previous fun n => { n with parent := none }

/-- The forest in which a child hangs under a parent. -/
def attached (f : Forest) (parent child : NodeId) (key : String) : Forest :=
  (f.update parent fun n => { n with children := n.children.put key child }).update child
    fun n => { n with parent := some parent }

/-- The forest in which a child is registered on a node; none stands for what is no node. -/
def registerChild (f : Forest) (parent : NodeId) (child : Option NodeId) : Except Fault Forest := do
  let p ← f.nodeAt parent
  match child with
  | none => .error (.node (.childExpected p.label))
  | some child =>
    let c ← f.nodeAt child
    if c.role = .root then .error (.node (.childExpected p.label))
    else
      -- a sealed parent refuses before it is asked where the child stands
      checkMutable p
      if child ∈ f.pathOf parent then .error (.node (.underItself c.label c.name.text))
      else
        f.checkParent parent c
        .ok ((f.detached (p.children.get? c.key) child).attached parent child c.key)

/-- The forest in which a parameter is registered on a node; none stands for what is no
parameter. -/
def registerParameter (f : Forest) (id : NodeId) (parameter : Option Parameter) :
    Except Fault Forest := do
  let n ← f.nodeAt id
  match parameter with
  | none => .error (.node (.parameterExpected n.label))
  | some p =>
    checkMutable n
    .ok (f.update id fun n => { n with parameters := n.parameters.put p.key p })

/-! ## Sealing -/

/-- Whether a node stands under another one or is that node. -/
def isUnder (f : Forest) (id top : NodeId) : Bool := (f.pathOf id).contains top

/-- The forest in which a node and all nodes under it are sealed. -/
def sealUnder (f : Forest) (top : NodeId) : Forest :=
  ⟨f.nodes.mapIdx fun id n => if f.isUnder id top then { n with isSealed := true } else n⟩

/-- The places of the nodes that are sealed. -/
def sealedNodes (f : Forest) : List NodeId :=
  (List.range f.size).filter fun id => (f.node? id).any Node.isSealed

theorem node?_sealUnder (f : Forest) (top id : NodeId) :
    (f.sealUnder top).node? id
      = (f.node? id).map fun n => if f.isUnder id top then { n with isSealed := true } else n := by
  simp [sealUnder, node?]

end CommandTree.Forest
