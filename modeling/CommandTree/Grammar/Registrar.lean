import CommandTree.Datum.Items
import CommandTree.Grammar.Declaration

/-!
# Registrars

A registrar mounts words at the start of a grammar, each with a description and with aliases, for
which redirecting words are mounted beside it. It does one thing after the other: where an alias is
refused, what was mounted before stays.
-/

namespace CommandTree

open Text

/-- Where inputs start, and what is known about the words that were mounted there. -/
structure Registrar where
  start : BranchId
  descriptions : Catalog Datum
  aliases : Catalog (List Datum)

namespace Registrar

/-- A registrar with a start of its own. -/
def create (g : Grammar) : Grammar × Registrar :=
  let (g, start) := g.add (.bare .start)
  (g, ⟨start, .empty, .empty⟩)

/-- The description of the word of a name. -/
def descriptionOf (r : Registrar) (name : String) : Datum :=
  (r.descriptions.get? (lowercase name)).getD .null

/-- The aliases of the word of a name. -/
def aliasesOf (r : Registrar) (name : String) : List Datum :=
  (r.aliases.get? (lowercase name)).getD []

/-- The grammar with a redirecting word at the start for each alias, up to the first alias that is
refused. -/
def mountAliases (g : Grammar) (start word : BranchId) :
    List Datum → Grammar × Except Fault Unit
  | [] => (g, .ok ())
  | a :: rest =>
    match g.addWord a (.branch word) with
    | .error f => (g, .error f)
    | .ok (g, id) => mountAliases (g.attach start id) start word rest

/-- Mounts a word with a description and aliases, which may be anything that has members. -/
def mount (g : Grammar) (r : Registrar) (word : Grammar.BranchArgument)
    (description aliases : Datum) : Grammar × Registrar × Except Fault Unit :=
  match g.branchThat Branch.isWord word with
  | none => (g, r, .error (.use .wordExpected))
  | some word =>
    let key := lowercase (g.nameOf word)
    let g := g.attach r.start word
    let r := { r with descriptions := r.descriptions.put key description }
    -- from here on a refusal leaves the word mounted
    match aliases.items with
    | .error f => (g, r, .error f)
    | .ok items =>
      let r := { r with aliases := r.aliases.put key items }
      let (g, mounted) := mountAliases g r.start word items
      (g, r, mounted)

end Registrar

end CommandTree
