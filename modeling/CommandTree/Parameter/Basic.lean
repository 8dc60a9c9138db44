import CommandTree.Datum.Shown
import CommandTree.Name

/-!
# Parameters

A parameter describes one argument of a command: its name, what it ranges over, and whether its
usage marks it as optional. A parameter holds no value; values are bound to it call by call.

What a parameter ranges over decides which limits it has: numbers have a least and a greatest value,
strings have limits of length and may be greedy, truth values have neither.
-/

namespace CommandTree

/-- What a parameter ranges over. -/
inductive Domain where
  | integer (least greatest : Int)
  | long (least greatest : Int)
  | double (least greatest : Double)
  | boolean
  | string (minLength : Nat) (maxLength : Option Nat) (greedy : Bool)
deriving DecidableEq

namespace Domain

/-- The type of what the domain holds. -/
def type : Domain → ValueType
  | .integer _ _ => .integer
  | .long _ _ => .long
  | .double _ _ => .double
  | .boolean => .boolean
  | .string _ _ _ => .string

/-- Whether the limits are in order and within the range of the type. -/
def Sound : Domain → Prop
  | .integer least greatest =>
    integerLeast ≤ least ∧ least ≤ greatest ∧ greatest ≤ integerGreatest
  | .long least greatest => longLeast ≤ least ∧ least ≤ greatest ∧ greatest ≤ longGreatest
  | .double least greatest =>
    least.isFinite = true ∧ greatest.isFinite = true ∧ least.le greatest = true
  | .boolean => True
  | .string minLength maxLength _ => ∀ m, maxLength = some m → minLength ≤ m

/-- The least and the greatest value, of the domains that hold numbers. -/
def limits? : Domain → Option (Number × Number)
  | .integer least greatest | .long least greatest => some (.integer least, .integer greatest)
  | .double least greatest => some (.double least, .double greatest)
  | .boolean | .string _ _ _ => none

/-- The limits of length, of the domains that hold strings. -/
def lengths? : Domain → Option (Nat × Option Nat)
  | .string minLength maxLength _ => some (minLength, maxLength)
  | _ => none

/-- Whether a value of the domain takes up all the rest of an input. -/
def greedy : Domain → Bool
  | .string _ _ greedy => greedy
  | _ => false

end Domain

/-- One argument of a command, as it is declared. -/
structure Parameter where
  /-- The word for the parameter in messages. -/
  label : String
  name : Name
  domain : Domain
  optional : Bool
  sound : domain.Sound

namespace Parameter

/-- What the parameter is filed under. -/
def key (p : Parameter) : String := p.name.key

def type (p : Parameter) : ValueType := p.domain.type

def greedy (p : Parameter) : Bool := p.domain.greedy

/-- The least value, or null for a parameter without numbers. -/
def least (p : Parameter) : Datum :=
  match p.domain.limits? with
  | some (least, _) => .ofNumber least
  | none => .null

/-- The greatest value, or null for a parameter without numbers. -/
def greatest (p : Parameter) : Datum :=
  match p.domain.limits? with
  | some (_, greatest) => .ofNumber greatest
  | none => .null

/-- The least length, or null for a parameter without strings. -/
def minLength (p : Parameter) : Datum :=
  match p.domain.lengths? with
  | some (minLength, _) => .integer minLength
  | none => .null

/-- The greatest length, or null where there is none. -/
def maxLength (p : Parameter) : Datum :=
  match p.domain.lengths? with
  | some (_, some maxLength) => .integer maxLength
  | _ => .null

/-- How the parameter appears in a line of usage. -/
def usage (p : Parameter) : String :=
  let word := p.name.text ++ if p.greedy then "..." else ""
  if p.optional then "[" ++ word ++ "]" else "<" ++ word ++ ">"

/-- The parameter as it is shown. -/
def shown (p : Parameter) : String :=
  p.label ++ "(name=" ++ Text.quoted p.name.text ++ ", type=" ++ p.type.shown
    ++ ", min=" ++ p.least.shown ++ ", max=" ++ p.greatest.shown
    ++ ", min_len=" ++ p.minLength.shown ++ ", max_len=" ++ p.maxLength.shown
    ++ ", greedy=" ++ boolShown p.greedy ++ ", optional=" ++ boolShown p.optional ++ ")"

end Parameter

end CommandTree
