import CommandTree.Decimal.Double
import CommandTree.Text.Digit

/-!
# The shortest decimal of a double

A double is written with the fewest digits that still read back as the same double; of the decimals
with so few digits, the nearest one is taken. The decimals with `j` digits less lie on a coarser
grid, so the search goes from coarse grids to fine ones and takes the first that has a point in the
interval of the values that round to the double. The finest grid holds the double itself, so the
search always ends with a point.

All values are counted in fine units of `10 ^ (-1074)`, of which every magnitude is a whole number.

* `gridPoint?_sound`: a grid point that is taken lies in the interval
-/

namespace CommandTree

open Text

/-- The number of fine units in a unit. -/
def fineUnits : Nat := Nat.pow 5 1074

/-- The values that round to one double: twice their limits, and whether those belong to them. -/
structure RoundingInterval where
  twiceLow : Nat
  twiceHigh : Nat
  closed : Bool

namespace RoundingInterval

/-- Whether a value lies in the interval. -/
def holds (interval : RoundingInterval) (value : Nat) : Bool :=
  if interval.closed then decide (interval.twiceLow ≤ 2 * value && 2 * value ≤ interval.twiceHigh)
  else decide (interval.twiceLow < 2 * value && 2 * value < interval.twiceHigh)

/-- The interval of a place, in fine units. -/
def ofPattern (pattern : Nat) : RoundingInterval where
  twiceLow := (units (pattern - 1) + units pattern) * fineUnits
  twiceHigh := (units pattern + units (pattern + 1)) * fineUnits
  closed := pattern % 2 == 0

/-- The multiple of `step` in the interval that is nearest to the value, as a count of steps. -/
def gridPoint? (interval : RoundingInterval) (value step : Nat) : Option Nat :=
  let below := value / step
  match interval.holds (below * step), interval.holds ((below + 1) * step) with
  | true, false => some below
  | false, true => some (below + 1)
  | false, false => none
  -- both neighbours would do: the nearer one is taken, and of two as near the even one
  | true, true =>
    let up := (below + 1) * step - value
    let down := value - below * step
    if down < up || (down == up && below % 2 == 0) then some below else some (below + 1)

theorem gridPoint?_sound {interval : RoundingInterval} {value step m : Nat}
    (h : interval.gridPoint? value step = some m) : interval.holds (m * step) = true := by
  unfold gridPoint? at h
  cases hb : interval.holds (value / step * step) <;>
    cases hu : interval.holds ((value / step + 1) * step) <;>
    simp only [hb, hu] at h
  · cases h
  · cases h; exact hu
  · cases h; exact hb
  · split at h <;> cases h
    · exact hb
    · exact hu

/-- The point of the coarsest grid, no coarser than `10 ^ j`: digits, and the power of its step. -/
def search (interval : RoundingInterval) (value : Nat) : Nat → Nat × Nat
  | 0 => (value, 0)
  | j + 1 =>
    match interval.gridPoint? value (powerOfTen (j + 1)) with
    | some m => (m, j + 1)
    | none => interval.search value j

end RoundingInterval

/-- A power of ten above the number: more than its decimal digits. -/
def decimalBound (n : Nat) : Nat := n.log2 * 30103 / 100000 + 2

/--
The shortest decimal of the magnitude at a place: `(digits, exponent)` stands for
`digits * 10 ^ exponent`.
-/
def shortestDecimal (pattern : Nat) : Nat × Int :=
  let interval := RoundingInterval.ofPattern pattern
  let found := interval.search (units pattern * fineUnits) (decimalBound interval.twiceHigh)
  (found.1, (found.2 : Int) - 1074)

end CommandTree
