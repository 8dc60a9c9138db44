import CommandTree.Decimal.Order

/-!
# The closed sets of choices

The types that a parameter may have, the audiences that a node may be meant for, and the kinds of
senders. Each is shown by a name in capitals and a word in lower case.

* `ofWord?_word`: each choice is found by its word
-/

namespace CommandTree

/-- The least signed integer of 32 bits. -/
def integerLeast : Int := -2147483648

/-- The greatest signed integer of 32 bits. -/
def integerGreatest : Int := 2147483647

/-- The least signed integer of 64 bits. -/
def longLeast : Int := -9223372036854775808

/-- The greatest signed integer of 64 bits. -/
def longGreatest : Int := 9223372036854775807

/-- The type of a parameter. -/
inductive ValueType where
  | string
  | integer
  | long
  | double
  | boolean
deriving DecidableEq

namespace ValueType

/-- The word for the type. -/
def word : ValueType → String
  | .string => "string"
  | .integer => "integer"
  | .long => "long"
  | .double => "double"
  | .boolean => "boolean"

/-- The name of the type in capitals. -/
def capitals : ValueType → String
  | .string => "STRING"
  | .integer => "INTEGER"
  | .long => "LONG"
  | .double => "DOUBLE"
  | .boolean => "BOOLEAN"

def isNumeric : ValueType → Bool
  | .integer | .long | .double => true
  | .string | .boolean => false

/-- The least and the greatest number of a numeric type. -/
def range? : ValueType → Option (Number × Number)
  | .integer => some (.integer integerLeast, .integer integerGreatest)
  | .long => some (.integer longLeast, .integer longGreatest)
  | .double => some (.double Double.largest.negated, .double Double.largest)
  | .string | .boolean => none

/-- All types, in order. -/
def all : List ValueType := [.string, .integer, .long, .double, .boolean]

/-- The type of a word. -/
def ofWord? (word : String) : Option ValueType := all.find? (·.word == word)

theorem ofWord?_word (t : ValueType) : ofWord? t.word = some t := by
  cases t <;> rfl

end ValueType

/-- Whom a node may be run by: everyone, interactive senders only, or the automated console only. -/
inductive Audience where
  | anyone
  | interactive
  | automated
deriving DecidableEq

namespace Audience

def word : Audience → String
  | .anyone => "any"
  | .interactive => "interactive-only"
  | .automated => "noninteractive-only"

def capitals : Audience → String
  | .anyone => "ANY"
  | .interactive => "INTERACTIVE_ONLY"
  | .automated => "NONINTERACTIVE_ONLY"

/-- All audiences, in order. -/
def all : List Audience := [.anyone, .interactive, .automated]

/-- The audience of a word. -/
def ofWord? (word : String) : Option Audience := all.find? (·.word == word)

theorem ofWord?_word (a : Audience) : ofWord? a.word = some a := by
  cases a <;> rfl

end Audience

/-- What a sender is: an interactive player, the automated console, or something else. -/
inductive SenderKind where
  | player
  | console
  | other
deriving DecidableEq

namespace SenderKind

def word : SenderKind → String
  | .player => "player"
  | .console => "console"
  | .other => "other"

def capitals : SenderKind → String
  | .player => "PLAYER"
  | .console => "CONSOLE"
  | .other => "OTHER"

/-- All kinds, in order. -/
def all : List SenderKind := [.player, .console, .other]

/-- The kind of a word. -/
def ofWord? (word : String) : Option SenderKind := all.find? (·.word == word)

theorem ofWord?_word (k : SenderKind) : ofWord? k.word = some k := by
  cases k <;> rfl

end SenderKind

end CommandTree
