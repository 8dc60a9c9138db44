import CommandTree.Grammar.Basic
import CommandTree.Name.Declaration

/-!
# Building grammars by hand

A host can build a grammar branch by branch. What it hands in is checked first: names have to be
single tokens, a redirection has to lead to a word, and only words and slots can be attached.
-/

namespace CommandTree.Grammar

/-- What a host hands in where a branch is asked for. -/
inductive BranchArgument where
  | branch (id : BranchId)
  /-- Nothing. -/
  | nothing
  /-- Something that is no branch. -/
  | other

/-- Whether there is a branch at a place that a host hands in, and it is as asked. -/
def branchThat (g : Grammar) (asked : Branch → Bool) (a : BranchArgument) : Option BranchId :=
  match a with
  | .branch id => if (g.branch? id).any asked then some id else none
  | _ => none

/-- The grammar with a new word, which may redirect to another one. -/
def addWord (g : Grammar) (name : Datum) (redirect : BranchArgument) :
    Except Fault (Grammar × BranchId) := do
  let name ← Name.declare "literal" name
  match redirect with
  | .nothing => .ok (g.add (.bare (.word name none)))
  | redirect =>
    match g.branchThat Branch.isWord redirect with
    | some target => .ok (g.add (.bare (.word name (some target))))
    | none => .error (.use .redirectExpected)

/-- The grammar with a new slot; none stands for what is no class of tokens. -/
def addSlot (g : Grammar) (name : Datum) (cls : Option TokenClass) :
    Except Fault (Grammar × BranchId) := do
  let name ← Name.declare "argument" name
  match cls with
  | some cls => .ok (g.add (.bare (.slot name cls)))
  | none => .error (.use .readerExpected)

/-- The grammar with a branch attached under another one. -/
def attachBranch (g : Grammar) (parent : BranchId) (child : BranchArgument) :
    Except Fault Grammar :=
  match g.branchThat (fun b => b.isWord || b.isSlot) child with
  | some child => .ok (g.attach parent child)
  | none => .error (.use .branchExpected)

/-- The grammar with a callback at a branch; none stands for what cannot be called. -/
def assignCallback (g : Grammar) (id : BranchId) (callback : Option Callback) :
    Except Fault Grammar :=
  match callback with
  | some callback => .ok (g.setCallback id callback)
  | none => .error (.use .callbackNotCallable)

end CommandTree.Grammar
