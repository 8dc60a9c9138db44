import CommandTree.Datum.Items
import CommandTree.Text.Styled

/-!
# Senders

A sender is whoever sends inputs: a player, the console, or something else. All that is asked of a
sender is answered by the host: of which class it is, which permissions it holds, and what comes of
sending it something. It may fail instead of answering.

An account is a sender with a name, a kind and permissions; an operator holds all permissions.

* `holds_operator`: an operator holds every permission
* `holds_string`: anyone else holds exactly the permissions that were granted
-/

namespace CommandTree

/-- What is sent to a sender: a text as it is, or a styled text. -/
inductive Message where
  | text (s : String)
  | styled (t : Text.Styled)
deriving DecidableEq

/-- Whoever sends inputs, as the host has it. -/
structure Sender where
  /-- The sender as it is shown. -/
  shown : String
  /-- Whether the sender is interactive. -/
  isInteractive : Except Fault Bool
  /-- Whether the sender is the automated console. -/
  isAutomated : Except Fault Bool
  /-- Whether the sender holds a permission. -/
  holds : Datum → Except Fault Bool
  /-- What comes of sending something to the sender. -/
  receives : List Message → Except Fault Unit

/-- A sender as it is shown, where there may be none. -/
def senderShown : Option Sender → String
  | some s => s.shown
  | none => Datum.null.shown

/-! ## Accounts -/

/-- A sender with a fixed set of permissions. -/
structure Account where
  name : String
  kind : SenderKind
  permissions : List Datum
  operator : Bool

namespace Account

/-- The name of the console where none is given. -/
def consoleName : String := "CONSOLE"

/-- The account of a name, a kind and permissions; whatever counts as true makes an operator. -/
def declare (name kind permissions operator : Datum) : Except Fault Account := do
  let name ← match name with
    | .string name => .ok name
    | _ => .error (.use .senderNameNotText)
  let kind ← match kind with
    | .senderKind kind => .ok kind
    | _ => .error (.use .senderKindExpected)
  let permissions ← match permissions with
    | .string _ => .error (.use .permissionsNotIterable)
    | permissions => permissions.asSet
  .ok ⟨name, kind, permissions, operator.isTrue⟩

/-- A player of a name. -/
def player (name permissions operator : Datum) : Except Fault Account :=
  declare name (.senderKind .player) permissions operator

/-- The console, which holds every permission. -/
def console (name : Datum) : Except Fault Account :=
  declare name (.senderKind .console) (.tuple []) (.boolean true)

/-- Whether the account holds a permission. A set that could be no permission is held by no one. -/
def holds (a : Account) (permission : Datum) : Except Fault Bool :=
  if a.operator then .ok true
  else match permission with
    | .set _ => .ok false
    | permission => do .ok (Datum.memberOf (← permission.asKey) a.permissions)

/-- The sender that an account is; it can be sent anything. -/
def sender (a : Account) : Sender where
  shown := a.kind.word ++ "(" ++ Text.quoted a.name ++ ")"
  isInteractive := .ok (a.kind = .player)
  isAutomated := .ok (a.kind = .console)
  holds := a.holds
  receives _ := .ok ()

variable {a : Account}

theorem holds_operator (h : a.operator = true) (permission : Datum) :
    a.sender.holds permission = .ok true := by
  simp [sender, holds, h]

theorem holds_string (h : a.operator = false) (permission : String) :
    a.sender.holds (.string permission)
      = .ok (Datum.memberOf (.string permission) a.permissions) := by
  simp [sender, holds, h, bind, Except.bind]

end Account

end CommandTree
