import CommandTree.Sender
import CommandTree.Value

/-!
# Calls

A call is what a command is run with: who sent the input, the arguments as they were written, and
the values that were bound. Values are looked up by name in any case of letters.

* `get_congr`: the case of the letters of a name does not matter
* `get_of_not_mem`: what was not bound is absent
-/

namespace CommandTree

open Text

/-- What a command is run with. Of the node itself a run learns the name and the line of usage. -/
structure Call where
  /-- Who sent the input, if anyone. -/
  sender : Option Sender
  /-- The name of the command. -/
  command : String
  /-- The line of usage of the command. -/
  usage : String
  values : List (Datum × Datum)
  arguments : List Datum

namespace Call

/-- The call of a command with values, which may be anything that has entries, and arguments, which
may be anything that has members. -/
def declare (sender : Option Sender) (command usage : String) (values arguments : Datum) :
    Except Fault Call := do
  let values ← (values.orElse (.dict [])).entries
  let arguments ← arguments.items
  .ok ⟨sender, command, usage, values, arguments⟩

/-- What is bound to a name, or a default. -/
def find (c : Call) (name : String) (default : Datum) : Datum :=
  (Datum.lookup c.values (lowercase name)).getD default

/-- What is bound to a name, or the absent value. -/
def get (c : Call) (name : String) : Datum := c.find name Value.absent.toDatum

/-- What is bound to a name that a host hands in, or a default. -/
def findNamed (c : Call) (name default : Datum) : Except Fault Datum :=
  match name with
  | .string name => .ok (c.find name default)
  | _ => .error (.use .callKeyNotText)

/-- What is bound to a name that a host hands in, or the absent value. -/
def getNamed (c : Call) (name : Datum) : Except Fault Datum :=
  c.findNamed name Value.absent.toDatum

/-- Whether anything is bound to a name that a host hands in. -/
def binds (c : Call) (name : Datum) : Bool :=
  match name with
  | .string name => (Datum.lookup c.values (lowercase name)).isSome
  | _ => false

/-- Nothing can be bound once the call is made. -/
def assign (_ : Call) (_ _ : Datum) : Except Fault Unit := .error (.use .callReadOnly)

/-- The value that is bound to a name, if it is a value. -/
def valueOf (c : Call) (name : String) : Value :=
  match c.get name with
  | .value type payload => ⟨type, payload⟩
  | d => ⟨none, d⟩

/-- The call as it is shown. -/
def shown (c : Call) : String :=
  "execution-context(sender=" ++ senderShown c.sender ++ ", command=" ++ quoted c.command
    ++ ", values=" ++ (Datum.dict c.values).shown ++ ")"

theorem get_congr (c : Call) {s t : String} (h : lowercase s = lowercase t) :
    c.get s = c.get t := by
  simp [get, find, h]

theorem get_of_not_mem {c : Call} {name : String}
    (h : ∀ entry ∈ c.values, entry.1.string? ≠ some (lowercase name)) :
    c.get name = Value.absent.toDatum := by
  have hnone : c.values.find? (fun entry => entry.1.string? == some (lowercase name)) = none := by
    rw [List.find?_eq_none]
    intro entry hmem
    simpa using h entry hmem
  simp [get, find, Datum.lookup, hnone]

end Call

end CommandTree
