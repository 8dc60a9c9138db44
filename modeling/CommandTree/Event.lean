import CommandTree.Call
import CommandTree.Log

/-!
# Events and outcomes

While a command runs, things happen: something is sent, a handler is called, a line is logged. An
outcome is what has happened, in order, and the result: a value, or the fault that ended it.

* `bind_of_ok`, `bind_of_error`: what happens next is added behind what has happened, and nothing
  happens after a fault
* `emit_bind`: an event that is emitted comes first
-/

namespace CommandTree

/-- Which part of the library has logged something. -/
inductive LogSource where
  | dispatch
  | registration
deriving DecidableEq

/-- Something that has happened. -/
inductive Event where
  /-- Something was sent. -/
  | sent (messages : List Message)
  /-- A node was run. -/
  | ran (call : Call)
  /-- A command has shown one of its values. -/
  | showed (name : String) (value : Value)
  /-- A handler of a host was called with a report. -/
  | handled (handler : String) (sender : Option Sender) (report : Report)
  /-- A line was logged, with the kind of the fault that led to it, if one did. -/
  | logged (severity : Severity) (source : LogSource) (line : String) (fault : Option FaultKind)

/-- What has happened, and how it ended. -/
structure Outcome (α : Type) where
  events : List Event
  result : Except Fault α

namespace Outcome

variable {α β : Type}

/-- Nothing happens. -/
def of (result : Except Fault α) : Outcome α := ⟨[], result⟩

/-- Nothing happens, and the result is a value. -/
def done (a : α) : Outcome α := of (.ok a)

/-- Nothing happens but a fault. -/
def fail (f : Fault) : Outcome α := of (.error f)

/-- One thing happens. -/
def emit (e : Event) : Outcome Unit := ⟨[e], .ok ()⟩

/-- One outcome after the other, unless the first ends in a fault. -/
def bind (o : Outcome α) (next : α → Outcome β) : Outcome β :=
  match o.result with
  | .ok a => ⟨o.events ++ (next a).events, (next a).result⟩
  | .error f => ⟨o.events, .error f⟩

instance : Monad Outcome where
  pure := done
  bind := bind

/-- The outcome, or what is done about the fault that it ends in. -/
def rescue (o : Outcome α) (mend : Fault → Outcome α) : Outcome α :=
  match o.result with
  | .ok _ => o
  | .error f => ⟨o.events ++ (mend f).events, (mend f).result⟩

theorem bind_of_ok {o : Outcome α} {a : α} (h : o.result = .ok a) (next : α → Outcome β) :
    o.bind next = ⟨o.events ++ (next a).events, (next a).result⟩ := by
  simp [bind, h]

theorem bind_of_error {o : Outcome α} {f : Fault} (h : o.result = .error f)
    (next : α → Outcome β) : o.bind next = ⟨o.events, .error f⟩ := by
  simp [bind, h]

theorem emit_bind (e : Event) (next : Unit → Outcome β) :
    (emit e).bind next = ⟨e :: (next ()).events, (next ()).result⟩ := by
  simp [bind, emit]

end Outcome

end CommandTree
