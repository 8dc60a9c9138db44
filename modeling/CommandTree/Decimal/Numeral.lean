import CommandTree.Decimal.Double
import CommandTree.Text.Digit

/-!
# Numerals

The two written forms of a number that are read: an integer is an optional sign and digits; a
decimal is an optional sign, digits with at most one point among or around them, and an optional
exponent. Digits are those of any script. No blank, underscore or other base is read.

* `IntegerNumeral.read?_eq_some`: a written integer is read if it has few enough digits
* `spanDigits_length`: nothing is lost when the leading digits are split off
-/

namespace CommandTree

open Text

/-! ## Signs and digits -/

/-- A text without its sign, and whether that is a minus. -/
def splitSign : List Char → Bool × List Char
  | '-' :: cs => (true, cs)
  | '+' :: cs => (false, cs)
  | cs => (false, cs)

/-- The values of the digits that a text begins with, and the rest. -/
def spanDigits : List Char → List Nat × List Char
  | [] => ([], [])
  | c :: cs =>
    match digitValue? c with
    | some d => (d :: (spanDigits cs).1, (spanDigits cs).2)
    | none => ([], c :: cs)

theorem spanDigits_length (cs : List Char) :
    (spanDigits cs).1.length + (spanDigits cs).2.length = cs.length := by
  induction cs with
  | nil => rfl
  | cons c cs ih =>
    simp only [spanDigits]
    split
    · simp only [List.length_cons]; omega
    · simp

/-! ## Written integers -/

/-- A written integer: its sign and the values of its digits. -/
structure IntegerNumeral where
  negative : Bool
  digits : List Nat
deriving DecidableEq

namespace IntegerNumeral

/-- The integer that the text writes, if it is a written integer. -/
def ofChars? (cs : List Char) : Option IntegerNumeral :=
  match spanDigits (splitSign cs).2 with
  | ([], _) => none
  | (digits, []) => some ⟨(splitSign cs).1, digits⟩
  | _ => none

/-- The value of a written integer. -/
def value (numeral : IntegerNumeral) : Int :=
  if numeral.negative then -(digitsValue numeral.digits : Int) else digitsValue numeral.digits

/-- The value of a written integer, unless it has too many digits to be read. -/
def read? (numeral : IntegerNumeral) : Option Int :=
  if numeral.digits.length ≤ digitLimit then some numeral.value else none

theorem read?_eq_some {numeral : IntegerNumeral} {n : Int} :
    numeral.read? = some n ↔ numeral.digits.length ≤ digitLimit ∧ numeral.value = n := by
  by_cases h : numeral.digits.length ≤ digitLimit <;> simp [read?, h]

end IntegerNumeral

/-! ## Written decimals -/

/-- A written decimal: sign, digits before and after the point, exponent. -/
structure DecimalNumeral where
  negative : Bool
  whole : List Nat
  fraction : List Nat
  exponent : Int
deriving DecidableEq

namespace DecimalNumeral

/-- The exponent that ends a written decimal: nothing, or a letter `e` and an integer. -/
def exponentOfChars? : List Char → Option Int
  | [] => some 0
  | c :: cs =>
    if c = 'e' || c = 'E' then (IntegerNumeral.ofChars? cs).map IntegerNumeral.value else none

/-- The decimal that the text writes, if it is a written decimal. -/
def ofChars? (cs : List Char) : Option DecimalNumeral :=
  let (negative, unsigned) := splitSign cs
  let (whole, rest) := spanDigits unsigned
  let (fraction, tail) :=
    match rest with
    | '.' :: after => spanDigits after
    | _ => ([], rest)
  if whole.isEmpty && fraction.isEmpty then none
  else (exponentOfChars? tail).map fun exponent => ⟨negative, whole, fraction, exponent⟩

/--
The double nearest to the value of a written decimal. A value beyond `10 ^ 310` or below
`10 ^ (-330)` is not computed: the first is too large for the format, and the second nearest to
zero.
-/
def value (numeral : DecimalNumeral) : Double :=
  let digits := (numeral.whole ++ numeral.fraction).dropWhile (· == 0)
  let exponent := numeral.exponent - numeral.fraction.length
  let magnitude := digits.length + exponent
  if digits.isEmpty || magnitude < -330 then .ofPattern numeral.negative 0
  else if 310 < magnitude then .infinite numeral.negative
  else if 0 ≤ exponent then
    .ofRatio numeral.negative (digitsValue digits * powerOfTen exponent.toNat) 1
  else .ofRatio numeral.negative (digitsValue digits) (powerOfTen (-exponent).toNat)

end DecimalNumeral

end CommandTree
