import CommandTree.Decimal.Layout

/-!
# Rounded decimals

A double rounded to a number of decimal places, or to a number of significant digits. The rounding
is that of the exact magnitude, and a half goes to the even neighbour.
-/

namespace CommandTree

open Text

/-- The natural number nearest to `num / den`; a half goes to the even neighbour. -/
def nearestNat (num den : Nat) : Nat :=
  if 2 * (num % den) < den then num / den
  else if 2 * (num % den) = den then num / den + num / den % 2
  else num / den + 1

/-! ## Places and digits of a magnitude -/

/-- The magnitude in units of its last place, when it is rounded to that many decimal places. -/
def roundedPlaces (pattern places : Nat) : Nat :=
  nearestNat (units pattern * powerOfTen places) unitsPerOne

/-- The decimal place of the first digit of a magnitude other than zero: zero for the ones, one for
the tens, and so on. Every such magnitude is at least `10 ^ (-330)`. -/
def leadingPlace (pattern : Nat) : Int :=
  (Nat.toDigits 10 (units pattern * powerOfTen 330 / unitsPerOne)).length - 331

/-- The first `count` digits of a magnitude, when it is rounded to that many, and the place of the
first of them. -/
def roundedDigits (pattern count : Nat) : List Char × Int :=
  if pattern = 0 then (List.replicate count '0', 0)
  else
    let place := leadingPlace pattern
    let shift := (count : Int) - 1 - place
    let rounded :=
      if 0 ≤ shift then nearestNat (units pattern * powerOfTen shift.toNat) unitsPerOne
      else nearestNat (units pattern) (unitsPerOne * powerOfTen (-shift).toNat)
    if rounded = powerOfTen count then (Nat.toDigits 10 (powerOfTen (count - 1)), place + 1)
    else (Nat.toDigits 10 rounded, place)

end CommandTree
