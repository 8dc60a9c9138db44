import CommandTree.Event
import CommandTree.Parameter.Basic

/-!
# Nodes of command trees

A node is a command: its name and aliases, who may run it, its children and its parameters, and what
it does when it is run. Nodes refer to each other by their place in a forest.

* `matchesWord_key`: a node answers to its own name in any case of letters
-/

namespace CommandTree

open Text

/-- The place of a node in its forest. -/
abbrev NodeId := Nat

/-- Whether a node is a command of its own, or belongs under another one. -/
inductive NodeRole where
  | root
  | sub
deriving DecidableEq

/-- What a node says about itself. -/
structure Description where
  /-- The word for the node in messages. -/
  label : String
  role : NodeRole
  name : Name
  permission : Option String
  description : Option String
  aliases : List Name
  audience : Audience

/-- A node of a command tree. -/
structure Node extends Description where
  children : Catalog NodeId
  parameters : Catalog Parameter
  parent : Option NodeId
  /-- Whether the node has been compiled, after which nothing can be registered on it. -/
  isSealed : Bool
  /-- What the node does when it is run. -/
  run : Call → Outcome Unit

namespace Node

/-- What the node is filed under. -/
def key (n : Node) : String := n.name.key

/-- A node of its own, without children and parameters. -/
def alone (d : Description) (run : Call → Outcome Unit) : Node :=
  ⟨d, .empty, .empty, none, false, run⟩

/-- Whether the node asks for a permission of its own. -/
def isRestricted (n : Node) : Bool := n.permission.isSome

/-- Whether the node answers to a word, by its name or by an alias. -/
def matchesWord (n : Node) (word : String) : Bool :=
  sameWord word n.name.text || n.aliases.any fun a => sameWord word a.text

/-- The parameter of a name. -/
def parameter? (n : Node) (name : String) : Option Parameter := n.parameters.get? (lowercase name)

theorem matchesWord_key {n : Node} {word : String} (h : lowercase word = n.key) :
    n.matchesWord word = true := by
  simp only [matchesWord, sameWord, h, Node.key, Name.key, BEq.rfl, Bool.true_or]

end Node

end CommandTree
