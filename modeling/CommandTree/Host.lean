import CommandTree.Dispatch
import CommandTree.Grammar.Compiled
import CommandTree.Grammar.Registrar
import CommandTree.Grammar.Search

/-!
# Hosts

A host has nodes, a grammar with a registrar, the commands that were registered, and the handler
that is told of reports. Registering a command compiles it and mounts its word; executing an input
reads it and calls the callback where it ends.

* `execute_of_parse_error`: where an input cannot be read, nothing happens
-/

namespace CommandTree

open Text

/-- What an execution gives. -/
inductive Answer where
  | verdict (v : Verdict)
  | invocation (i : Invocation)
  | nothing

/-- All that a host keeps. -/
structure Host where
  forest : Forest
  grammar : Grammar
  registrar : Registrar
  /-- The commands that were registered, by their keys. -/
  registered : Catalog NodeId
  handler : Option Handler

namespace Host

/-- A host without nodes and commands. -/
def create (handler : Option Handler) : Host :=
  let (g, r) := Registrar.create .empty
  ⟨.empty, g, r, .empty, handler⟩

/-- The host with a new registrar and no commands registered. -/
def renewed (h : Host) (handler : Option Handler) : Host :=
  let (g, r) := Registrar.create h.grammar
  { h with grammar := g, registrar := r, registered := .empty, handler := handler }

/-- Mounts a word of the grammar. -/
def mount (h : Host) (word : Grammar.BranchArgument) (description aliases : Datum) :
    Host × Except Fault Unit :=
  let (g, r, mounted) := Registrar.mount h.grammar h.registrar word description aliases
  ({ h with grammar := g, registrar := r }, mounted)

/-! ## Registering commands -/

/-- Compiles a command; none stands for what is no node. -/
def compile (h : Host) (id : Option NodeId) : Host × Except Fault BranchId :=
  match h.grammar.compile h.forest id .rootExpectedToCompile with
  | .error fault => (h, .error fault)
  | .ok (g, f, word) => ({ h with grammar := g, forest := f }, .ok word)

/-- What is logged of a command that was registered. -/
def registeredEvent (n : Node) : Event :=
  let aliases := ", ".intercalate (n.aliases.map (·.text))
  .logged .debug .registration
    ("registered command " ++ quoted n.name.text ++ " (aliases: "
      ++ (if aliases.isEmpty then "none" else aliases) ++ ")") none

/-- A text that need not be there, as a datum. -/
def ofText? (s : Option String) : Datum :=
  match s with
  | none => .null
  | some s => .string s

/-- Compiles a command and mounts its word; none stands for what is no node. -/
def register (h : Host) (id : Option NodeId) : Host × Outcome BranchId :=
  match h.grammar.compile h.forest id .rootExpectedToRegister with
  | .error fault => (h, .fail fault)
  | .ok (g, f, word) =>
    match id.bind fun id => (f.node? id).map (id, ·) with
    | none => (h, .fail (.use .rootExpectedToRegister))
    | some (id, n) =>
      let h := { h with grammar := g, forest := f }
      match h.mount (.branch word) (ofText? n.description)
          (.tuple (n.aliases.map fun a => .string a.text)) with
      | (h, .error fault) => (h, .fail fault)
      | (h, .ok _) =>
        ({ h with registered := h.registered.put n.key id },
          (Outcome.emit (registeredEvent n)).bind fun _ => .done word)

/-- The host with another handler, if what is handed in can be one. -/
def setHandler (h : Host) (handler : Except Fault (Option Handler)) : Host × Except Fault Unit :=
  match handler with
  | .ok handler => ({ h with handler := handler }, .ok ())
  | .error fault => (h, .error fault)

/-! ## Executing inputs -/

/-- Reads an input. -/
def parse (h : Host) (sender : Option Sender) (input : Datum) : Except Fault Invocation :=
  h.grammar.parseDatum h.registrar.start sender input

/-- The raw values of an invocation, by the names of the arguments. -/
def rawValues (i : Invocation) : Datum :=
  .dict (i.arguments.entries.map fun entry => (.string entry.1, entry.2.value.toDatum))

/-- The arguments of an invocation as they were written. -/
def rawArguments (i : Invocation) : Datum :=
  .tuple (i.arguments.items.map fun parsed => .string parsed.raw)

/-- Calls the callback of an invocation. -/
def call (h : Host) (i : Invocation) : Outcome Answer :=
  match i.callback with
  | .dispatch target _ =>
    (dispatch h.forest h.handler i.source target (rawValues i) (rawArguments i)).bind fun v =>
      .done (.verdict v)
  | .host _ .giveBack => .done (.invocation i)
  | .host _ .fail =>
    .fail (.host "RuntimeError"
      ("callback of " ++ " ".intercalate (i.branches.map h.grammar.nameOf)))
  | .host _ .nothing => .done .nothing
  | .host _ (.refuse fault) => .fail (.datum fault)

/-- Reads an input and calls the callback where it ends. -/
def execute (h : Host) (sender : Option Sender) (input : Datum) : Outcome Answer :=
  match h.parse sender input with
  | .error fault => .fail fault
  | .ok i => h.call i

theorem execute_of_parse_error {h : Host} {sender : Option Sender} {input : Datum} {fault : Fault}
    (hp : h.parse sender input = .error fault) : h.execute sender input = .fail fault := by
  simp [execute, hp]

end Host

end CommandTree
