import CommandTree.Decimal.Order
import CommandTree.Decimal.Shortest
import CommandTree.Text.Digit

/-!
# The text of numbers

An integer is written in decimal. A finite double is written with the digits of its shortest
decimal: positionally, with at least one digit on each side of the point, when it is zero or its
first digit is in one of the places from `10 ^ (-4)` to `10 ^ 15`, and otherwise with an exponent of
a sign and at least two digits.
-/

namespace CommandTree

open Text

/-- The text of an integer. -/
def integerText (n : Int) : String :=
  if n < 0 then "-" ++ Nat.repr n.natAbs else Nat.repr n.natAbs

/-- Whether an integer has few enough digits to be written. -/
def isWritableInteger (n : Int) : Bool := decide (n.natAbs < powerOfTen digitLimit)

/-! ## Digits around a point -/

/-- The digits before the point, which stands behind the first `point` digits. -/
def wholePart (digits : List Char) (point : Int) : List Char :=
  if point ≤ 0 then ['0']
  else digits.take point.toNat ++ List.replicate (point.toNat - digits.length) '0'

/-- The digits behind the point, which stands behind the first `point` digits. -/
def fractionPart (digits : List Char) (point : Int) : List Char :=
  if point ≤ 0 then List.replicate (-point).toNat '0' ++ digits else digits.drop point.toNat

/-- An exponent: a sign and at least two digits. -/
def exponentText (exponent : Int) : List Char :=
  let digits := Nat.toDigits 10 exponent.natAbs
  (if exponent < 0 then '-' else '+') :: (List.replicate (2 - digits.length) '0' ++ digits)

/-- Digits with a point behind the first one, and an exponent. -/
def scientificText (digits : List Char) (exponent : Int) : List Char :=
  match digits with
  | [] => []
  | [d] => d :: 'e' :: exponentText exponent
  | d :: ds => d :: '.' :: ds ++ 'e' :: exponentText exponent

/-- Digits with a point behind the first `point` of them, and at least one digit on each side. -/
def positionalText (digits : List Char) (point : Int) : List Char :=
  let fraction := fractionPart digits point
  wholePart digits point ++ '.' :: (if fraction.isEmpty then ['0'] else fraction)

/-- The text of a magnitude. -/
def magnitudeText (pattern : Nat) : List Char :=
  if pattern = 0 then ['0', '.', '0']
  else
    let (significand, exponent) := shortestDecimal pattern
    let digits := Nat.toDigits 10 significand
    let point := digits.length + exponent
    if -4 < point && point ≤ 16 then positionalText digits point
    else scientificText digits (point - 1)

namespace Double

/-- The text of a double. -/
def text : Double → String
  | .nan => "nan"
  | .infinite negative => if negative then "-inf" else "inf"
  | .finite negative pattern =>
    String.ofList (if negative then '-' :: magnitudeText pattern else magnitudeText pattern)

end Double

namespace Number

/-- The text of a number. -/
def text : Number → String
  | .integer n => integerText n
  | .double x => x.text

/-- Whether a number can be written: every double can, and integers of not too many digits. -/
def isWritable : Number → Bool
  | .integer n => isWritableInteger n
  | .double _ => true

end Number

end CommandTree
