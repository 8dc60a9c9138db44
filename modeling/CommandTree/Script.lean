import CommandTree.Handler
import CommandTree.Report.Declaration

/-!
# Scripts

A script is what a node does, as a list of actions: sending texts, showing values, making reports,
failing. The actions are done in order until one fails.
-/

namespace CommandTree

open Text

/-- One thing that a node does. -/
inductive Action where
  | send (text : String)
  /-- Shows the value of a name. -/
  | showValue (name : String)
  /-- Makes a report. -/
  | fail (id : Datum) (context : List (String × Datum))
  /-- Makes a report if the number of a name, which counts as one if it is none or zero, is above
  the greatest that is allowed. -/
  | limit (name : String) (greatest : Int) (id : Datum)
  /-- Fails in a way of the host's own. -/
  | crash (kind text : String)
  /-- Fails as a parse does. -/
  | complain (message : String) (input : Option String) (position : Option Int)

/-- A failure of the host's own; a key that is missing is shown as a text. -/
def hostFault (kind text : String) : Fault :=
  .host kind (if kind = "KeyError" then quoted text else text)

/-- The number of a name in a call, as an amount: one where it is none or zero. -/
def amountOf (call : Call) (name : String) : Except Fault Int := do
  match ← (call.valueOf name).asInteger? with
  | none => .ok 1
  | some n => .ok (if n = 0 then 1 else n)

/-- The report that an amount is above a limit. -/
def limitReport (id : Datum) (greatest amount : Int) : Except Fault Report := do
  let r ← Report.declare id [("limit", .integer greatest)]
  r.extend (.string "amount") (.integer amount)

/-- Makes a report of what was declared. -/
def raiseReport (declared : Except Fault Report) : Fault :=
  match declared with
  | .ok r => .report r
  | .error f => f

namespace Action

/-- Does one action. -/
def perform (call : Call) : Action → Outcome Unit
  | .send text => sendTo call.sender [.text text]
  | .showValue name => .emit (.showed name (call.valueOf name))
  | .fail id context => .fail (raiseReport (Report.declare id context))
  | .limit name greatest id =>
    match amountOf call name with
    | .error f => .fail f
    | .ok amount =>
      if greatest < amount then .fail (raiseReport (limitReport id greatest amount)) else .done ()
  | .crash kind text => .fail (hostFault kind text)
  | .complain message input position => .fail (.parse ⟨.stated message, input, position⟩)

end Action

namespace Script

/-- Does actions in order, until one fails. -/
def run : List Action → Call → Outcome Unit
  | [], _ => .done ()
  | action :: rest, call => (action.perform call).bind fun _ => run rest call

end Script

end CommandTree
