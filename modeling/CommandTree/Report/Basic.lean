import CommandTree.Catalog
import CommandTree.Datum.Shown
import CommandTree.Text.Blank
import CommandTree.Text.Styled

/-!
# Reports

A report tells why a command did not do what was asked: an id, which messages are looked up by, and
a context of named data, which fill the gaps of a message. Reports do not change; extending one
gives another.

* `withEntry_get?`: an extended report has the new entry under its key and all others as before
* `withEntry_id`, `withEntry_cause`: and the id and the cause of the report it was made from
-/

namespace CommandTree

/-- Why a command did not do what was asked. -/
structure Report where
  id : String
  context : Catalog Datum
  /-- The kind of failure that led to the report, if one did. -/
  cause : Option String

namespace Report

/-- The report with an entry put into its context. -/
def withEntry (r : Report) (key : String) (item : Datum) : Report :=
  { r with context := r.context.put key item }

/-- The report with entries put into its context one after the other. -/
def withEntries (r : Report) (entries : List (String × Datum)) : Report :=
  entries.foldl (fun r entry => r.withEntry entry.1 entry.2) r

@[simp] theorem withEntry_id (r : Report) (key : String) (item : Datum) :
    (r.withEntry key item).id = r.id := rfl

@[simp] theorem withEntry_cause (r : Report) (key : String) (item : Datum) :
    (r.withEntry key item).cause = r.cause := rfl

theorem withEntry_get? (r : Report) (key : String) (item : Datum) (other : String) :
    (r.withEntry key item).context.get? other
      = if other = key then some item else r.context.get? other :=
  Catalog.get?_put ..

/-- The report as it is shown. -/
def shown (r : Report) : String :=
  "CommandException(" ++ Text.quoted r.id
    ++ String.join (r.context.entries.map fun entry => ", " ++ entry.1 ++ "=" ++ entry.2.shown)
    ++ ")"

/-- The report as a styled text: the id between brackets, then the context. -/
def styled (w : Text.Terminal) (r : Report) : Text.Styled :=
  let parts := [("[", "dim"), (r.id, "bold #00E5FF"), ("]", "dim")]
    ++ r.context.entries.flatMap fun entry =>
      [(" ", ""), (entry.1, "#9CE19C"), ("=", ""), (entry.2.shown, "")]
  parts.foldl (fun t part => t.append w part.1 part.2) ⟨"", "", []⟩

end Report

end CommandTree
