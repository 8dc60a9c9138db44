import CommandTree.Decimal.Numeral
import CommandTree.Fault

/-!
# Presentations

A gap of a message may say how its content is to be presented: filled up to a width on one side,
with or without a sign, with separators between groups of digits, in a certain notation. This is the
notation for that:

`[[fill]align][sign][z][#][0][width][separator][.precision][code]`
-/

namespace CommandTree.Message

open Text

/-- On which side a presented text is filled up. -/
inductive Alignment where
  /-- The text stands on the left. -/
  | left
  /-- The text stands on the right. -/
  | right
  | center
  /-- The filling stands between the sign of a number and its digits. -/
  | inner
deriving DecidableEq

/-- The alignment that a character stands for. -/
def Alignment.ofChar? (c : Char) : Option Alignment :=
  if c = '<' then some .left
  else if c = '>' then some .right
  else if c = '^' then some .center
  else if c = '=' then some .inner
  else none

/-- How something is to be presented. -/
structure Presentation where
  fill : Char
  alignment : Alignment
  /-- The sign of numbers without a minus, or a minus for none. -/
  sign : Option Char
  /-- Whether a zero loses its minus. -/
  plainZero : Bool
  /-- Whether the base of integers and the point of doubles are shown in any case. -/
  alternate : Bool
  width : Option Nat
  separator : Option Char
  precision : Option Nat
  /-- The notation, unless it is the usual one. -/
  code : Option Char
deriving DecidableEq

/-- The numbers in a template have to be less than this: two to the power of 63. -/
def numberLimit : Nat := 9223372036854775808

/-- A text of so many characters is never made: two to the power of 63, less one. That there is room
for any shorter text is taken for granted. -/
def lengthLimit : Nat := 9223372036854775807

/-- The precision of a double has to be less than this: two to the power of 31. -/
def precisionLimit : Nat := 2147483648

/-- The number that a text begins with, if it begins with one, and the rest. -/
def readNatural (cs : List Char) : Except TemplateFault (Option Nat × List Char) :=
  let (digits, rest) := spanDigits cs
  if numberLimit ≤ digitsValue digits then .error .tooManyDigits
  else .ok (if digits.isEmpty then none else some (digitsValue digits), rest)

/-- The text without a character, if it begins with that, and whether it did. -/
def skipChar (c : Char) (cs : List Char) : Bool × List Char :=
  match cs with
  | d :: rest => if d = c then (true, rest) else (false, cs)
  | [] => (false, [])

/-- The filling and the alignment that a text begins with, and the rest. -/
def readAlignment (cs : List Char) : Option Char × Option Alignment × List Char :=
  match cs with
  | f :: a :: rest =>
    match Alignment.ofChar? a, Alignment.ofChar? f with
    | some side, _ => (some f, some side, rest)
    | none, some side => (none, some side, a :: rest)
    | none, none => (none, none, cs)
  | [a] =>
    match Alignment.ofChar? a with
    | some side => (none, some side, [])
    | none => (none, none, cs)
  | [] => (none, none, [])

/-- The sign that a text begins with, and the rest. -/
def readSign (cs : List Char) : Option Char × List Char :=
  match cs with
  | c :: rest => if c = '+' || c = '-' || c = ' ' then (some c, rest) else (none, cs)
  | [] => (none, [])

/-- The separator that a text begins with, and the rest. -/
def readSeparator (cs : List Char) : Except TemplateFault (Option Char × List Char) :=
  let (comma, cs) := skipChar ',' cs
  let (underscore, cs) := skipChar '_' cs
  if underscore && (comma || (skipChar ',' cs).1) then .error .twoSeparators
  else .ok (if comma then some ',' else if underscore then some '_' else none, cs)

/-- The precision that a text begins with, and the rest. -/
def readPrecision (cs : List Char) : Except TemplateFault (Option Nat × List Char) := do
  let (point, cs) := skipChar '.' cs
  if point then
    match ← readNatural cs with
    | (none, _) => .error .precisionMissing
    | precision => .ok precision
  else .ok (none, cs)

/-- The character that asks for no notation or conversion where one is expected. -/
def noCode : Char := Char.ofNat 0

/-- Whether a separator may stand in a notation. -/
def separatorFits (separator code : Char) : Bool :=
  "defgEG%F".toList.contains code || separator = '_' && "boxX".toList.contains code || code = noCode

/-- What is presented: how it is aligned by default, and by which notation. -/
structure Default where
  alignment : Alignment
  code : Option Char

namespace Presentation

/-- The presentation that a text tells; `kindName` is the kind of what is presented. -/
def ofChars (kindName : String) (usual : Default) (cs : List Char) :
    Except TemplateFault Presentation := do
  let whole := cs
  let (fill, side, cs) := readAlignment cs
  let (sign, cs) := readSign cs
  let (plainZero, cs) := skipChar 'z' cs
  let (alternate, cs) := skipChar '#' cs
  -- a zero that could be a filling is a digit of the width once a filling is given
  let (zero, cs) := if fill.isNone then skipChar '0' cs else (false, cs)
  let (width, cs) ← readNatural cs
  let (separator, cs) ← readSeparator cs
  let (precision, cs) ← readPrecision cs
  let code ← match cs with
    | [] => .ok usual.code
    | [c] => .ok (if usual.code.isNone && c = noCode then none else some c)
    | _ => .error (.specInvalid (String.ofList whole) kindName)
  match separator, code with
  | some s, some c => if separatorFits s c then .ok () else .error (.separatorRefused s c)
  | _, _ => .ok ()
  let usualSide := if zero && usual.alignment = .right then .inner else usual.alignment
  .ok {
    fill := fill.getD (if zero then '0' else ' ')
    alignment := side.getD usualSide
    sign := sign
    plainZero := plainZero
    alternate := alternate
    width := width
    separator := separator
    precision := precision
    code := code }

end Presentation

end CommandTree.Message
