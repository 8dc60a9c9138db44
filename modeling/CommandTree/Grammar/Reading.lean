import CommandTree.Grammar.Basic

/-!
# Reading one word of a grammar

A single word of a grammar can be read at a cursor, apart from any search.
-/

namespace CommandTree.Grammar

open Text

/-- The word of a name, read at a cursor in letters of any case, and the cursor behind it. -/
def readWordAt (name : Name) (c : Cursor) : Except Fault String × Cursor :=
  match c.readWord with
  | .error f => (.error f, c)
  | .ok (word, behind) =>
    if sameWord word name.text then (.ok name.text, behind)
    else (.error (.parse (c.failure (.otherWord name.text))), behind)

end CommandTree.Grammar
