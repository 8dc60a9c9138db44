import CommandTree.Host
import CommandTree.Node.Declaration
import CommandTree.Parameter.Builder
import CommandTree.Script

/-!
# A small example

The command `points`, under which `add` gives points to a player. Not more than a hundred points can
be given at once.
-/

namespace CommandTree.Demo

/-- The most points that can be given at once. -/
def greatestAmount : Int := 100

/-- What `points` does: it tells how it is used. -/
def runPoints (call : Call) : Outcome Unit := sendTo call.sender [.text ("usage: " ++ call.usage)]

/-- The report that too many points were to be given. -/
def tooMany (amount : Int) : Except Fault Report := do
  let r ← Report.declare (.string "points.too-many") [("limit", .integer greatestAmount)]
  r.extend (.string "amount") (.integer amount)

/-- What `add` does: it gives points to a player. -/
def runAdd (call : Call) : Outcome Unit :=
  match amountOf call "amount" with
  | .error f => .fail f
  | .ok amount =>
    if greatestAmount < amount then .fail (raiseReport (tooMany amount))
    else match (call.valueOf "player").asString? with
      | .error f => .fail f
      | .ok name => sendTo call.sender
        [.text ("gave " ++ integerText amount ++ " points to " ++ name.getD Datum.null.shown)]

/-- The parameter for the player who gets the points. -/
def player : Except Fault Parameter :=
  Parameter.declare Parameter.defaultLabel (.string "player")
    { minLength := .integer 3, maxLength := .integer 16 }

/-- The parameter for the number of points. -/
def amount : Except Fault Parameter := do
  let b ← Parameter.Builder.start Parameter.defaultLabel (.string "amount")
  (((b.set "type" (.valueType .integer)).set "min" (.integer 1)).set "optional"
    (.boolean true)).build

/-- What `add` says about itself. -/
def addDescription : Except Fault Description :=
  Node.describe "add" .sub (.string "add")
    { permission := .string "points.add", aliases := .list [.string "give"] }

/-- What `points` says about itself. -/
def pointsDescription : Except Fault Description :=
  Node.describe "points" .root (.string "points")
    { description := .string "manage points", aliases := .list [.string "pts"] }

/-- The forest of the two commands, and the place of `points`. -/
def forest : Except Fault (Forest × NodeId) := do
  let (f, add) := Forest.empty.add (.alone (← addDescription) runAdd)
  let f ← f.registerParameter add (some (← player))
  let f ← f.registerParameter add (some (← amount))
  let (f, points) := f.add (.alone (← pointsDescription) runPoints)
  let f ← f.registerChild points (some add)
  .ok (f, points)

/-- The message of the example's own report, beside the styles that a host defines. -/
def house (styles : Option Datum) : Message.House :=
  { messages := some (.dict [(.string "points.too-many",
      .string "you can give at most \x7blimit\x7d points at once (tried \x7bamount\x7d)")])
    styles := styles }

/-- The host at which `points` has been registered, with a book of messages for a handler, and the
word of `points`. -/
def host (styles : Option Datum) : Except Fault (Host × NodeId × BranchId) := do
  let (f, points) ← forest
  let book ← Message.Book.declare .unset none none
  let handler := Handler.ofBook .usual book (house styles)
  let (h, registered) :=
    { Host.create (some handler) with forest := f }.register (some points)
  .ok (h, points, ← registered.result)

end CommandTree.Demo
