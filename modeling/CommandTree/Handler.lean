import CommandTree.Event
import CommandTree.Message.Book

/-!
# Handlers of reports

A handler is told of every report that a command makes, and of the sender whose input led to it. A
book of messages is a handler: it tells the sender what went wrong.
-/

namespace CommandTree

/-- What is told of reports. -/
structure Handler where
  handle : Option Sender → Report → Outcome Unit

/-- The sender that there has to be for something; `member` is what is asked of it. -/
def presentSender (sender : Option Sender) (member : String) : Except Fault Sender :=
  match sender with
  | some s => .ok s
  | none => .error (.datum (.noAttribute Datum.null.kindName member))

/-- Sends something to a sender. -/
def sendTo (sender : Option Sender) (messages : List Message) : Outcome Unit :=
  match presentSender sender "send_message" with
  | .ok s => (Outcome.emit (.sent messages)).bind fun _ => .of (s.receives messages)
  | .error f => .fail f

namespace Handler

/-- What a function of the host itself says when it is called with two things. -/
def refusal (name : String) : Fault :=
  .datum (.argumentCount name "exactly one argument" 2)

/-- The handler that a host hands in, which has to be something that can be called. -/
def declare (d : Datum) : Except Fault (Option Handler) :=
  match d with
  | .unset | .null => .ok none
  | .function _ => .ok (some ⟨fun _ _ => .done ()⟩)
  | .builtin name => .ok (some ⟨fun _ _ => .fail (refusal name)⟩)
  | _ => .error (.use .handlerNotCallable)

/-- A handler that keeps a record under a name, and ends as is said for the report. -/
def recording (name : String) (ending : Report → Except Fault Unit) : Handler :=
  ⟨fun sender report => (Outcome.emit (.handled name sender report)).bind fun _ =>
    .of (ending report)⟩

/-- The handler that tells the sender what a book says, on a terminal. -/
def ofBook (w : Text.Terminal) (book : Message.Book) (house : Message.House) : Handler :=
  ⟨fun sender report =>
    match presentSender sender "send_message" with
    | .error f => .fail f
    | .ok _ =>
      match book.render w house report with
      | .ok text => sendTo sender [.styled text]
      | .error f => .fail f⟩

end Handler

end CommandTree
