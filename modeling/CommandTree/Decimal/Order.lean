import CommandTree.Decimal.Double

/-!
# The order of numbers

Integers of any size and doubles lie on one line, on which they are compared exactly: no integer is
rounded on the way. A double that is not a number has no place on the line, so every comparison with
it fails.

* `Number.lt_integer`, `Number.le_integer`: among integers it is the order of the integers
* `Number.le_trans`: the order is transitive
-/

namespace CommandTree

/-- A place on the number line: a whole number of units, or beyond them all at one end. -/
inductive Place where
  | bottom
  | at (units : Int)
  | top
deriving DecidableEq

namespace Place

/-- Whether the first place lies below the second or is the same. -/
def le : Place → Place → Bool
  | .bottom, _ => true
  | _, .top => true
  | .at a, .at b => decide (a ≤ b)
  | _, _ => false

/-- Whether the first place lies below the second. -/
def lt (a b : Place) : Bool := !le b a

theorem le_refl (a : Place) : le a a = true := by
  cases a <;> simp [le]

theorem le_trans {a b c : Place} (hab : le a b = true) (hbc : le b c = true) : le a c = true := by
  cases a <;> cases b <;> cases c <;> simp_all [le]
  omega

theorem le_total (a b : Place) : le a b = true ∨ le b a = true := by
  cases a <;> cases b <;> simp [le]
  omega

end Place

/-- A number as hosts know it: an integer of any size, or a double. -/
inductive Number where
  | integer (n : Int)
  | double (x : Double)
deriving DecidableEq

/-- The place of a double. -/
def Double.place? : Double → Option Place
  | .nan => none
  | .infinite negative => some (if negative then .bottom else .top)
  | .finite negative pattern => some (.at (Double.signedUnits negative pattern))

namespace Number

/-- The place of a number. -/
def place? : Number → Option Place
  | .integer n => some (.at (unitsPerOne * n))
  | .double x => x.place?

/-- Whether the first number is at most the second. -/
def le (a b : Number) : Bool :=
  match a.place?, b.place? with
  | some p, some q => p.le q
  | _, _ => false

/-- Whether the first number is less than the second. -/
def lt (a b : Number) : Bool :=
  match a.place?, b.place? with
  | some p, some q => p.lt q
  | _, _ => false

/-- Whether the numbers are equal: zeros of both signs are, and what is not a number equals
nothing. -/
def eqv (a b : Number) : Bool := a.le b && b.le a

theorem le_integer (a b : Int) : le (.integer a) (.integer b) = decide (a ≤ b) := by
  simp only [le, place?, Place.le]
  rw [decide_eq_decide]
  exact ⟨fun h => Int.le_of_mul_le_mul_left h unitsPerOne_cast_pos,
    fun h => Int.mul_le_mul_of_nonneg_left h (Int.le_of_lt unitsPerOne_cast_pos)⟩

theorem lt_integer (a b : Int) : lt (.integer a) (.integer b) = decide (a < b) := by
  have h := le_integer b a
  simp only [le, place?] at h
  simp only [lt, place?, Place.lt, h]
  by_cases hab : a < b
  · have : ¬ b ≤ a := by omega
    simp [hab, this]
  · have : b ≤ a := by omega
    simp [hab, this]

theorem le_trans {a b c : Number} (hab : le a b = true) (hbc : le b c = true) :
    le a c = true := by
  unfold le at *
  cases ha : a.place? <;> cases hb : b.place? <;> cases hc : c.place? <;> simp_all
  exact Place.le_trans hab hbc

end Number

namespace Double

/-- Whether the first double is at most the second. -/
def le (x y : Double) : Bool := Number.le (.double x) (.double y)

/-- Whether the first double is less than the second. -/
def lt (x y : Double) : Bool := Number.lt (.double x) (.double y)

/-- The double cut off to an integer that lies between two limits. -/
def saturated (lower upper : Int) : Double → Int
  | .nan => 0
  | .infinite negative => if negative then lower else upper
  | .finite negative pattern => max lower (min upper (truncated negative pattern))

end Double

end CommandTree
