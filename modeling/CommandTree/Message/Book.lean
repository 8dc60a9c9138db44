import CommandTree.Message.Template

/-!
# Books of messages

A book holds the messages that senders are told when a command reports something, by the id of the
report. A message of the book itself wins over one of the host's main program, and that over the
usual one; a report without any message gets the one for all others.
-/

namespace CommandTree.Message

open Text

/-- The messages and the styles that the host's main program defines, where it does. -/
structure House where
  messages : Option Datum
  styles : Option Datum

/-- The host's main program when it defines nothing. -/
def House.plain : House := ⟨none, none⟩

/-- The messages of a book. -/
structure Book where
  messages : List (Datum × Datum)
  fallback : String
  colorful : Bool

/-- The usual messages. -/
def usualMessages : List (String × String) :=
  [("sender.no-permission", "you don't have permission to do that (\x7bpermission\x7d)"),
   ("executor-type.player", "this command can only be run by a player"),
   ("executor-type.console", "this command can only be run from the console")]

/-- The message for reports without one. -/
def usualFallback : String := "something went wrong (\x7berror_id\x7d)"

/-- The name of the style of messages. -/
def messageStyle : String := "error-message"

/-- The usual style of messages. -/
def usualStyle : String := "#FF4DA6"

/-- The key of the gap that the id of a report fills. -/
def idKey : String := "error_id"

namespace House

/-- The entries that the main program defines. -/
def entriesOf (defined : Option Datum) : Except Fault (List (Datum × Datum)) :=
  match defined with
  | none => .ok []
  | some d => d.mapping

/-- The style of messages. -/
def style (house : House) : Except Fault String := do
  let styles ← entriesOf house.styles
  match Datum.lookup styles messageStyle with
  | some style => .ok style.plain
  | none => .ok usualStyle

end House

namespace Book

/-- The book of the given messages; a text stands for all messages that are missing, unless none is
given. -/
def declare (messages : Datum) (fallback colorful : Option Datum) : Except Fault Book := do
  let fallback ← match fallback with
    | none => .ok usualFallback
    | some (.string s) => .ok s
    | some _ => .error (.use .fallbackNotText)
  let entries ← (messages.orElse (.dict [])).entries
  .ok ⟨entries, fallback, colorful.all Datum.isTrue⟩

/-- The message for a report of the given id. -/
def template (book : Book) (house : House) (id : String) : Except Fault Datum := do
  -- the main program's messages have to be entries even where they are not needed
  let main ← House.entriesOf house.messages
  match Datum.lookup book.messages id with
  | some message => .ok message
  | none =>
    match Datum.lookup main id with
    | some message => .ok message
    | none =>
      match usualMessages.lookup id with
      | some message => .ok (.string message)
      | none => .ok (.string book.fallback)

/-- What fills the gaps of a message for a report: its context and its id. A gap for anything else
is left as it is. -/
def filling (r : Report) : Filling := fun key =>
  if key = idKey then .string r.id
  else match r.context.get? key with
    | some d => d
    | none => .string ("\x7b" ++ key ++ "\x7d")

/-- The message that tells of a report, for a terminal. -/
def render (w : Terminal) (book : Book) (house : House) (r : Report) : Except Fault Styled := do
  let style ← house.style
  match ← book.template house r.id with
  | .string template =>
    let text ← fillIn (filling r) template
    .ok (Styled.ofText w text (if book.colorful then style else ""))
  | d => .error (.datum (.noAttribute d.kindName "format_map"))

end Book

end CommandTree.Message
