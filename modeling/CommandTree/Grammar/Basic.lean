import CommandTree.Node.Basic
import CommandTree.TokenClass

/-!
# Grammars

A grammar is what inputs are read by: branches, each of which reads one token and has branches under
it for the next one. A branch reads a fixed word or a token of a class. A word may redirect to
another word, whose branches and callback it shares. Each branch can have a callback, which makes it
a place where an input may end.

* `branch?_add`: a branch that is added is found, and all others are found as before
* `branch?_attach`: attaching a branch changes only the branch that it is attached to
-/

namespace CommandTree

open Text

/-- The place of a branch in its grammar. -/
abbrev BranchId := Nat

/-- What a callback of a host does with an invocation. -/
inductive HostAction where
  /-- It gives the invocation back. -/
  | giveBack
  /-- It fails. -/
  | fail
  /-- It gives nothing. -/
  | nothing
  /-- It is a function of the host that takes no invocation. -/
  | refuse (kindOfFault : DatumFault)

/-- What is called when an input ends at a branch. -/
inductive Callback where
  /-- A node is run. -/
  | dispatch (target : NodeId) (name : String)
  | host (name : String) (action : HostAction)

/-- The name of a callback. -/
def Callback.name : Callback → String
  | .dispatch _ name => name
  | .host name _ => name

/-- What a branch reads. -/
inductive BranchKind where
  /-- Nothing: inputs start here. -/
  | start
  /-- A word in letters of any case. -/
  | word (name : Name) (redirect : Option BranchId)
  /-- A token of a class, as an argument of a name. -/
  | slot (name : Name) (cls : TokenClass)

/-- A branch of a grammar. -/
structure Branch where
  kind : BranchKind
  children : Catalog BranchId
  callback : Option Callback

namespace Branch

/-- A branch that nothing follows. -/
def bare (kind : BranchKind) : Branch := ⟨kind, .empty, none⟩

/-- The name of the branch. -/
def name (b : Branch) : String :=
  match b.kind with
  | .start => ""
  | .word name _ | .slot name _ => name.text

/-- What the branch is filed under. -/
def key (b : Branch) : String := lowercase b.name

/-- Whether the branch is a word. -/
def isWord (b : Branch) : Bool :=
  match b.kind with
  | .word _ _ => true
  | _ => false

/-- Whether the branch reads a token of a class. -/
def isSlot (b : Branch) : Bool :=
  match b.kind with
  | .slot _ _ => true
  | _ => false

/-- Whether the branch is the given word. -/
def matchesWord (b : Branch) (word : String) : Bool :=
  match b.kind with
  | .word name _ => sameWord word name.text
  | _ => false

/-- The word that the branch redirects to. -/
def redirect? (b : Branch) : Option BranchId :=
  match b.kind with
  | .word _ redirect => redirect
  | _ => none

/-- What the kind of the branch is called. -/
def kindName (b : Branch) : String :=
  match b.kind with
  | .start => "RootNode"
  | .word _ _ => "LiteralNode"
  | .slot _ _ => "ArgumentNode"

/-- The branch as it is shown. -/
def shown (b : Branch) : String :=
  b.kindName ++ "(" ++ quoted b.name ++ ", children=["
    ++ ", ".intercalate (b.children.keys.map quoted) ++ "])"

end Branch

/-- All branches, each at its place. -/
structure Grammar where
  branches : List Branch

namespace Grammar

/-- The grammar without branches. -/
def empty : Grammar := ⟨[]⟩

instance : Inhabited Grammar := ⟨empty⟩

/-- The number of branches. -/
def size (g : Grammar) : Nat := g.branches.length

/-- The branch at a place. -/
def branch? (g : Grammar) (id : BranchId) : Option Branch := g.branches[id]?

/-- The grammar with a branch at a new place, and that place. -/
def add (g : Grammar) (b : Branch) : Grammar × BranchId := (⟨g.branches ++ [b]⟩, g.size)

/-- The grammar with the branch at a place changed. -/
def update (g : Grammar) (id : BranchId) (change : Branch → Branch) : Grammar :=
  ⟨g.branches.modify id change⟩

theorem branch?_add (g : Grammar) (b : Branch) (id : BranchId) :
    (g.add b).1.branch? id = if id = g.size then some b else g.branch? id := by
  show (g.branches ++ [b])[id]? = _
  rcases Nat.lt_trichotomy id g.size with h | h | h
  · rw [if_neg (Nat.ne_of_lt h)]
    exact List.getElem?_append_left h
  · subst h
    rw [if_pos rfl]
    simp [size]
  · rw [if_neg (Nat.ne_of_gt h)]
    have hlen : (g.branches ++ [b]).length ≤ id := by
      rw [List.length_append]
      exact h
    rw [List.getElem?_eq_none hlen, branch?, List.getElem?_eq_none (Nat.le_of_lt h)]

/-- The word that a branch stands for: where a redirecting word leads to in the end, and any other
branch itself. No chain of redirections is longer than there are branches. -/
def targetWithin (g : Grammar) : Nat → BranchId → BranchId
  | 0, id => id
  | bound + 1, id =>
    match (g.branch? id).bind Branch.redirect? with
    | some next => targetWithin g bound next
    | none => id

/-- The word that a branch stands for. -/
def target (g : Grammar) (id : BranchId) : BranchId := g.targetWithin g.size id

/-- The branches under a branch. -/
def childrenOf (g : Grammar) (id : BranchId) : Catalog BranchId :=
  match g.branch? (g.target id) with
  | some b => b.children
  | none => .empty

/-- What is called when an input ends at a branch. -/
def callbackOf (g : Grammar) (id : BranchId) : Option Callback :=
  (g.branch? (g.target id)).bind Branch.callback

/-- The name of a branch. -/
def nameOf (g : Grammar) (id : BranchId) : String := (g.branch? id).elim "" Branch.name

/-- The grammar with a branch attached under another one, under its key. -/
def attach (g : Grammar) (parent child : BranchId) : Grammar :=
  match g.branch? child with
  | some b => g.update parent fun p => { p with children := p.children.put b.key child }
  | none => g

/-- The grammar with a callback at a branch. -/
def setCallback (g : Grammar) (id : BranchId) (callback : Callback) : Grammar :=
  g.update id fun b => { b with callback := some callback }

theorem branch?_attach {g : Grammar} {parent other : BranchId} (h : parent ≠ other)
    (child : BranchId) : (g.attach parent child).branch? other = g.branch? other := by
  unfold attach
  split
  · simp [update, branch?, h]
  · rfl

end Grammar

end CommandTree
