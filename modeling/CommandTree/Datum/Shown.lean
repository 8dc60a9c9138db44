import CommandTree.Datum.Basic
import CommandTree.Decimal.Layout
import CommandTree.Text.Quoted

/-!
# How data are shown

A datum is shown in a form from which its kind can be told: texts between quotes, collections
between brackets, choices with their name and their word. Its plain text differs from that for a
text, which stands for itself, and for a choice, which stands as its name. What holds an integer of
too many digits to be written cannot be shown at all.

* `plain_string`: a text stands for itself
-/

namespace CommandTree

open Text

/-- A choice as it is shown: the set that it is from, its name in capitals, its word. -/
def choiceShown (set capitals word : String) : String :=
  "<" ++ set ++ "." ++ capitals ++ ": '" ++ word ++ "'>"

def ValueType.shown (t : ValueType) : String := choiceShown "ArgType" t.capitals t.word

def Audience.shown (a : Audience) : String := choiceShown "ExecutorType" a.capitals a.word

def SenderKind.shown (k : SenderKind) : String := choiceShown "SenderKind" k.capitals k.word

/-- A truth value as it is shown. -/
def boolShown (b : Bool) : String := if b then "True" else "False"

/-- A byte inside quotes. -/
def byteShown (quote : Char) (byte : UInt8) : List Char :=
  let c := Char.ofNat byte.toNat
  if byte.toNat < 0x7F then escaped quote c else pointEscape c

/-- Bytes as they are shown. -/
def bytesShown (items : List UInt8) : String :=
  let quote := quoteOf (items.map fun byte => Char.ofNat byte.toNat)
  String.ofList ('b' :: quote :: items.flatMap (byteShown quote) ++ [quote])

/-- A tuple whose members are shown as given: the only member is followed by a comma. -/
def tupleShown : List String → String
  | [item] => "(" ++ item ++ ",)"
  | items => "(" ++ ", ".intercalate items ++ ")"

/-- A set whose members are shown as given. -/
def setShown (items : List String) : String :=
  if items.isEmpty then "set()" else "\x7b" ++ ", ".intercalate items ++ "\x7d"

/-- A value whose payload is shown as given. -/
def valueShown (type : Option ValueType) (payload : String) : String :=
  "Value(type=" ++ (match type with | none => "None" | some t => t.shown)
    ++ ", payload=" ++ payload ++ ")"

namespace Datum

mutual

/-- The datum as it is shown. -/
def shown : Datum → String
  | .unset => "Unset"
  | .null => "None"
  | .boolean b => boolShown b
  | .integer n => integerText n
  | .double x => x.text
  | .string s => quoted s
  | .list items => "[" ++ ", ".intercalate (itemsShown items) ++ "]"
  | .tuple items => tupleShown (itemsShown items)
  | .set items => setShown (itemsShown items)
  | .dict entries => "\x7b" ++ ", ".intercalate (entriesShown entries) ++ "\x7d"
  | .bytes items => bytesShown items
  | .valueType t => t.shown
  | .audience a => a.shown
  | .senderKind k => k.shown
  | .value type payload => valueShown type (shown payload)
  | .function name => "<function " ++ name ++ ">"
  | .builtin name => "<built-in function " ++ name ++ ">"
  | .object => "<opaque>"

/-- The members of a collection as they are shown. -/
def itemsShown : List Datum → List String
  | [] => []
  | item :: rest => shown item :: itemsShown rest

/-- The entries of a collection as they are shown. -/
def entriesShown : List (Datum × Datum) → List String
  | [] => []
  | (key, item) :: rest => (shown key ++ ": " ++ shown item) :: entriesShown rest

end

mutual

/-- Whether the datum can be shown: no integer in it has too many digits to be written. -/
def isWritable : Datum → Bool
  | .integer n => isWritableInteger n
  | .list items | .tuple items | .set items => areWritable items
  | .dict entries => entriesAreWritable entries
  | .value _ payload => isWritable payload
  | _ => true

/-- Whether all members of a collection can be shown. -/
def areWritable : List Datum → Bool
  | [] => true
  | item :: rest => isWritable item && areWritable rest

/-- Whether all entries of a collection can be shown. -/
def entriesAreWritable : List (Datum × Datum) → Bool
  | [] => true
  | (key, item) :: rest => isWritable key && isWritable item && entriesAreWritable rest

end

/-- The plain text of the datum. -/
def plain : Datum → String
  | .string s => s
  | .valueType t => "ArgType." ++ t.capitals
  | .audience a => "ExecutorType." ++ a.capitals
  | .senderKind k => "SenderKind." ++ k.capitals
  | d => d.shown

@[simp] theorem plain_string (s : String) : plain (.string s) = s := rfl

end Datum

end CommandTree
