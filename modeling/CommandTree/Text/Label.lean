import CommandTree.Text.Lowercase

/-!
# Labels of types

The label that messages use for a type of node or argument is the name of the type in lower case,
with a hyphen before each capital letter inside it: `SubCommand` is labelled `sub-command`.
-/

namespace CommandTree.Text

/-- Whether the character is a capital letter of ASCII. -/
def isCapital (c : Char) : Bool := 'A' ≤ c && c ≤ 'Z'

/-- The text with a hyphen before each capital letter of ASCII. -/
def hyphenated : List Char → List Char
  | [] => []
  | c :: cs => if isCapital c then '-' :: c :: hyphenated cs else c :: hyphenated cs

/-- The label of a type, from its name. -/
def typeLabel (name : String) : String :=
  match name.toList with
  | [] => ""
  | c :: cs => String.ofList (lower (c :: hyphenated cs))

end CommandTree.Text
