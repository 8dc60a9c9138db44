import CommandTree.Forest.Registration
import CommandTree.Handler
import CommandTree.Parameter.Binding

/-!
# Dispatching calls

A call of a node goes through fixed steps: the sender needs the permission, the sender has to be of
the audience, the raw values are bound to the parameters, and then the node is run. A report that is
made on the way is handed to the handler, or logged where there is none; any other fault is logged.
No fault of the call itself comes out of a dispatch.

Permission and audience come from the same node: from the one that is called if it asks for a
permission of its own, and otherwise from the root of its tree.

* `insist_eq_ok_iff`: only yes will do
* `conclude_result`: a call that was tried ends in a verdict
-/

namespace CommandTree

open Text

/-- How a call has ended. -/
inductive Verdict where
  | success
  | failure
deriving DecidableEq

/-- The verdict as a number. -/
def Verdict.code : Verdict → Nat
  | .success => 1
  | .failure => 0

/-! ## Constraints -/

namespace Forest

/-- The node that says who may run a node. -/
def constraintSource (f : Forest) (target : NodeId) : Option Node :=
  if (f.node? target).any Node.isRestricted then f.node? target else f.node? (f.rootOf target)

/-- The permission that is needed to run a node. -/
def effectivePermission (f : Forest) (target : NodeId) : Option String :=
  (f.constraintSource target).bind fun n => n.permission

/-- The audience that may run a node. -/
def effectiveAudience (f : Forest) (target : NodeId) : Audience :=
  (f.constraintSource target).elim .anyone fun n => n.audience

end Forest

/-- The report that a permission is missing. -/
def permissionReport (permission : String) : Report :=
  ⟨"sender.no-permission", Catalog.empty.put "permission" (.string permission), none⟩

/-- The report that only players are the audience. -/
def playerReport : Report := ⟨"executor-type.player", .empty, none⟩

/-- The report that only the console is the audience. -/
def consoleReport : Report := ⟨"executor-type.console", .empty, none⟩

/-- Refuses with a report unless what was asked is answered with yes. -/
def insist (answer : Except Fault Bool) (refusal : Report) : Except Fault Unit := do
  if ← answer then .ok () else .error (.report refusal)

/-- Refuses senders that are not of an audience. -/
def checkAudience (sender : Option Sender) (audience : Audience) : Except Fault Unit :=
  match audience with
  | .anyone => .ok ()
  | .interactive => do insist (← presentSender sender "interactive").isInteractive playerReport
  | .automated => do insist (← presentSender sender "automated").isAutomated consoleReport

/-- Refuses senders that do not hold a permission, if one is needed. -/
def checkPermission (sender : Option Sender) (permission : Option String) : Except Fault Unit :=
  match permission with
  | none => .ok ()
  | some permission => do
    let s ← presentSender sender "has_permission"
    insist (s.holds (.string permission)) (permissionReport permission)

/-! ## Binding -/

/-- The parameter of a node that a raw value is named for. -/
def parameterFor (n : Node) (name : Datum) : Option Parameter := name.string?.bind n.parameter?

/-- The values with those that raw values are bound to, in order; raw values that are named for no
parameter are passed over. -/
def bindAll (n : Node) (bound : Catalog Value) : List (Datum × Datum) → Except Fault (Catalog Value)
  | [] => .ok bound
  | (name, raw) :: rest =>
    match parameterFor n name with
    | none => bindAll n bound rest
    | some p =>
      match p.bind raw with
      | .error f => .error f
      | .ok v => bindAll n (bound.put p.key v) rest

/-- Values as entries of a call. -/
def callValues (bound : Catalog Value) : Datum :=
  .dict (bound.entries.map fun entry => (.string entry.1, entry.2.toDatum))

/-- The arguments of a call: those that are given, or else the plain texts of the raw values, which
have to have such texts in any case. -/
def callArguments (raw : List (Datum × Datum)) (given : Datum) : Except Fault Datum := do
  let texts ← raw.mapM fun entry => do
    let item ← entry.2.asWritable
    pure (Datum.string item.plain)
  pure (given.orElse (.tuple texts))

/-! ## Dispatching -/

/-- The call that a node is run with. -/
def prepareCall (f : Forest) (sender : Option Sender) (target : NodeId) (n : Node)
    (raw : List (Datum × Datum)) (given : Datum) : Except Fault Call := do
  checkPermission sender (f.effectivePermission target)
  checkAudience sender (f.effectiveAudience target)
  -- raw values are bound only after the sender has passed
  let bound ← bindAll n .empty raw
  let arguments ← callArguments raw given
  Call.declare sender n.name.text (f.usageOf target) (callValues bound) arguments

/-- Runs a node with a call. -/
def runNode (n : Node) (call : Call) : Outcome Unit :=
  (Outcome.emit (.ran call)).bind fun _ => n.run call

/-- What is logged of a fault that is no report. -/
def faultEvent (fault : Fault) : Event :=
  .logged .error .dispatch ("command execution error: " ++ fault.message) (some fault.kind)

/-- What is logged of a report that no handler is told of. -/
def unhandledEvent (r : Report) : Event :=
  .logged .warning .dispatch ("[CommandException] " ++ r.id) none

/-- What is logged of a handler that has failed. -/
def handlerFailedEvent (r : Report) (fault : Fault) : Event :=
  .logged .error .dispatch ("exception handler failed while handling " ++ quoted r.id)
    (some fault.kind)

/-- What is done about a report. -/
def reportTo (handler : Option Handler) (sender : Option Sender) (r : Report) : Outcome Unit :=
  match handler with
  | none => .emit (unhandledEvent r)
  | some h => (h.handle sender r).rescue fun fault => .emit (handlerFailedEvent r fault)

/-- What is done about a fault. -/
def settle (handler : Option Handler) (sender : Option Sender) (fault : Fault) : Outcome Unit :=
  match fault with
  | .report r => reportTo handler sender r
  | fault => .emit (faultEvent fault)

/-- The verdict on what was tried, after its fault has been settled. -/
def conclude (handler : Option Handler) (sender : Option Sender) (tried : Outcome Unit) :
    Outcome Verdict :=
  match tried.result with
  | .ok _ => ⟨tried.events, .ok .success⟩
  | .error fault => ⟨tried.events ++ (settle handler sender fault).events, .ok .failure⟩

/-- Runs a node for a sender, with raw values that may be anything that has entries, and arguments
that may be anything that has members. -/
def dispatch (f : Forest) (handler : Option Handler) (sender : Option Sender) (target : NodeId)
    (raw given : Datum) : Outcome Verdict :=
  match f.nodeAt target, (raw.orElse (.dict [])).entries with
  | .error fault, _ | _, .error fault => .fail fault
  | .ok n, .ok raw =>
    conclude handler sender
      ((Outcome.of (prepareCall f sender target n raw given)).bind (runNode n))

theorem insist_eq_ok_iff {answer : Except Fault Bool} {refusal : Report} :
    insist answer refusal = .ok () ↔ answer = .ok true := by
  rcases answer with fault | _ | _ <;> simp [insist, bind, Except.bind]

theorem conclude_result (handler : Option Handler) (sender : Option Sender)
    (tried : Outcome Unit) :
    (conclude handler sender tried).result
      = .ok (if tried.result.isOk then .success else .failure) := by
  unfold conclude
  cases tried.result <;> rfl

end CommandTree
