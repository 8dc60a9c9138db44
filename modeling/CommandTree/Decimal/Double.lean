/-!
# Double-precision numbers

The numbers of the 64-bit binary format, kept as what they mean and not as machine words. A finite
number is a sign and a *pattern*, the place of its magnitude in the ascending list of all finite
magnitudes; the magnitude itself is a whole number of *units*, the smallest magnitude there is. All
questions about finite numbers are then questions about natural numbers.

* `units_lt_units`: a larger pattern stands for a larger magnitude
* `units_patternBelow_le`: `patternBelow u` is a pattern of at most `u` units
* `lt_units_patternBelow_succ`: and the next pattern has more
* `nearestPattern_zero`: zero is the double nearest to zero
-/

namespace CommandTree

/-! ## Magnitudes -/

/-- The number of units in one: two to the power of 1074. -/
def unitsPerOne : Nat := 1 <<< 1074

theorem unitsPerOne_pos : 0 < unitsPerOne := by
  rw [unitsPerOne, Nat.one_shiftLeft]
  exact Nat.two_pow_pos 1074

theorem unitsPerOne_cast_pos : (0 : Int) < unitsPerOne := Int.natCast_pos.2 unitsPerOne_pos

/-- The number of magnitudes from a power of two up to the next one: two to the power of 52. -/
def octave : Nat := 4503599627370496

/-- The magnitude that stands at a place of the ascending list of all magnitudes, in units. -/
def units (pattern : Nat) : Nat :=
  if pattern < octave then pattern
  else (octave + pattern % octave) <<< (pattern / octave - 1)

/-- The place of the first magnitude that is too large for the format. -/
def overflowPattern : Nat := 2047 * octave

theorem units_of_lt {p : Nat} (h : p < octave) : units p = p := if_pos h

theorem units_of_le {p : Nat} (h : octave ≤ p) :
    units p = (octave + p % octave) <<< (p / octave - 1) := if_neg (Nat.not_lt_of_le h)

theorem units_of_lt_two_octaves {p : Nat} (h : p < 2 * octave) : units p = p := by
  rcases Nat.lt_or_ge p octave with hp | hp
  · exact units_of_lt hp
  · rw [units_of_le hp]
    simp only [octave] at h hp ⊢
    rw [show p / 4503599627370496 - 1 = 0 by omega, Nat.shiftLeft_zero]
    omega

theorem units_lt_units_succ (p : Nat) : units p < units (p + 1) := by
  rcases Nat.lt_or_ge p octave with h | h
  · have h' : p + 1 < 2 * octave := by
      have hpos : 0 < octave := by decide
      omega
    rw [units_of_lt h, units_of_lt_two_octaves h']
    exact Nat.lt_succ_self p
  · rw [units_of_le h, units_of_le (Nat.le_succ_of_le h), Nat.shiftLeft_eq, Nat.shiftLeft_eq]
    simp only [octave] at h ⊢
    by_cases hm : p % 4503599627370496 + 1 < 4503599627370496
    · have h1 : (p + 1) % 4503599627370496 = p % 4503599627370496 + 1 := by omega
      have h2 : (p + 1) / 4503599627370496 = p / 4503599627370496 := by omega
      rw [h1, h2]
      exact Nat.mul_lt_mul_of_pos_right (by omega) (Nat.two_pow_pos _)
    · have h1 : (p + 1) % 4503599627370496 = 0 := by omega
      have h2 : (p + 1) / 4503599627370496 - 1 = (p / 4503599627370496 - 1) + 1 := by omega
      rw [h1, h2, Nat.pow_succ, Nat.add_zero, ← Nat.mul_assoc, Nat.mul_right_comm]
      exact Nat.mul_lt_mul_of_pos_right (by omega) (Nat.two_pow_pos _)

theorem units_lt_units {p q : Nat} (h : p < q) : units p < units q := by
  induction q with
  | zero => omega
  | succ q ih =>
    rcases Nat.lt_or_ge p q with hlt | hge
    · exact Nat.lt_trans (ih hlt) (units_lt_units_succ q)
    · have : p = q := by omega
      subst this
      exact units_lt_units_succ p

/-! ## Rounding -/

/-- The place of the largest magnitude of at most `u` units. -/
def patternBelow (u : Nat) : Nat :=
  if u < 2 * octave then u
  else (u.log2 - 51) * octave + (u >>> (u.log2 - 52) - octave)

private theorem leading_bits {u : Nat} (h : 2 * octave ≤ u) :
    octave ≤ u >>> (u.log2 - 52) ∧ u >>> (u.log2 - 52) < 2 * octave := by
  simp only [octave] at h ⊢
  have hne : u ≠ 0 := by omega
  have hlog : 53 ≤ u.log2 := (Nat.le_log2 hne).2 (by omega)
  have hle := Nat.log2_self_le hne
  have hlt := Nat.lt_log2_self (n := u)
  rw [Nat.shiftRight_eq_div_pow]
  constructor
  · rw [Nat.le_div_iff_mul_le (Nat.two_pow_pos _)]
    have hpow := Nat.pow_add 2 52 (u.log2 - 52)
    rw [show 52 + (u.log2 - 52) = u.log2 by omega] at hpow
    exact Nat.le_trans (Nat.le_of_eq hpow.symm) hle
  · rw [Nat.div_lt_iff_lt_mul (Nat.two_pow_pos _)]
    have hpow := Nat.pow_add 2 53 (u.log2 - 52)
    rw [show 53 + (u.log2 - 52) = u.log2 + 1 by omega] at hpow
    exact Nat.lt_of_lt_of_le hlt (Nat.le_of_eq hpow)

private theorem units_patternBelow {u : Nat} (h : 2 * octave ≤ u) :
    units (patternBelow u) = (u >>> (u.log2 - 52)) <<< (u.log2 - 52) ∧
    units (patternBelow u + 1) = (u >>> (u.log2 - 52) + 1) <<< (u.log2 - 52) := by
  obtain ⟨h1, h2⟩ := leading_bits h
  have hlog : 53 ≤ u.log2 := by
    simp only [octave] at h
    exact (Nat.le_log2 (by omega)).2 (by omega)
  have hp : patternBelow u = (u.log2 - 51) * octave + (u >>> (u.log2 - 52) - octave) := by
    rw [patternBelow, if_neg (by omega)]
  generalize hs : u >>> (u.log2 - 52) = s at *
  generalize hk : u.log2 - 52 = k at *
  rw [show u.log2 - 51 = k + 1 by omega] at hp
  have hle : octave ≤ patternBelow u := by
    simp only [octave] at *
    omega
  rw [units_of_le hle, units_of_le (Nat.le_succ_of_le hle), hp]
  simp only [octave] at *
  constructor
  · have e1 : ((k + 1) * 4503599627370496 + (s - 4503599627370496)) % 4503599627370496
        = s - 4503599627370496 := by omega
    have e2 : ((k + 1) * 4503599627370496 + (s - 4503599627370496)) / 4503599627370496 - 1
        = k := by omega
    rw [e1, e2, show 4503599627370496 + (s - 4503599627370496) = s by omega]
  · by_cases hm : s + 1 < 9007199254740992
    · have e1 : ((k + 1) * 4503599627370496 + (s - 4503599627370496) + 1) % 4503599627370496
          = s + 1 - 4503599627370496 := by omega
      have e2 : ((k + 1) * 4503599627370496 + (s - 4503599627370496) + 1) / 4503599627370496 - 1
          = k := by omega
      rw [e1, e2, show 4503599627370496 + (s + 1 - 4503599627370496) = s + 1 by omega]
    · have e1 : ((k + 1) * 4503599627370496 + (s - 4503599627370496) + 1) % 4503599627370496
          = 0 := by omega
      have e2 : ((k + 1) * 4503599627370496 + (s - 4503599627370496) + 1) / 4503599627370496 - 1
          = k + 1 := by omega
      rw [e1, e2, show s + 1 = 4503599627370496 * 2 by omega, Nat.shiftLeft_eq, Nat.shiftLeft_eq,
        Nat.pow_succ, Nat.add_zero, Nat.mul_assoc, Nat.mul_comm 2]

theorem units_patternBelow_le (u : Nat) : units (patternBelow u) ≤ u := by
  by_cases h : u < 2 * octave
  · exact Nat.le_of_eq (by rw [patternBelow, if_pos h, units_of_lt_two_octaves h])
  · rw [(units_patternBelow (Nat.le_of_not_lt h)).1, Nat.shiftLeft_eq, Nat.shiftRight_eq_div_pow]
    exact Nat.div_mul_le_self _ _

theorem lt_units_patternBelow_succ (u : Nat) : u < units (patternBelow u + 1) := by
  by_cases h : u < 2 * octave
  · rw [patternBelow, if_pos h]
    exact Nat.lt_of_le_of_lt (Nat.le_of_eq (units_of_lt_two_octaves h).symm) (units_lt_units_succ u)
  · rw [(units_patternBelow (Nat.le_of_not_lt h)).2, Nat.shiftLeft_eq,
      Nat.shiftRight_eq_div_pow, ← Nat.div_lt_iff_lt_mul (Nat.two_pow_pos _)]
    exact Nat.lt_succ_self _

/--
The place of the magnitude nearest to `num / den`; of two that are equally near, the one at the even
place. The answer is `overflowPattern` or more when the format has no magnitude so large.
-/
def nearestPattern (num den : Nat) : Nat :=
  let scaled := unitsPerOne * num
  let below := patternBelow (scaled / den)
  -- twice the value is held against the sum of its two neighbours
  let middle := (units below + units (below + 1)) * den
  if 2 * scaled < middle then below
  else if 2 * scaled = middle then (if below % 2 = 0 then below else below + 1)
  else below + 1

theorem nearestPattern_zero {den : Nat} (h : 0 < den) : nearestPattern 0 den = 0 := by
  have h0 : patternBelow 0 = 0 := by decide
  have h1 : units 0 = 0 := by decide
  have h2 : units (0 + 1) = 1 := by decide
  simp only [nearestPattern, Nat.mul_zero, Nat.zero_div, h0, h1, h2, Nat.zero_add,
    Nat.one_mul, h, if_true]

/-! ## Numbers -/

/-- A number of the 64-bit binary format. -/
inductive Double where
  | nan
  | infinite (negative : Bool)
  | finite (negative : Bool) (pattern : Fin overflowPattern)
deriving DecidableEq

namespace Double

/-- The number of a sign and a place, infinite where the format has no such magnitude. -/
def ofPattern (negative : Bool) (pattern : Nat) : Double :=
  if h : pattern < overflowPattern then .finite negative ⟨pattern, h⟩ else .infinite negative

def zero : Double := .finite false ⟨0, by decide⟩

instance : Inhabited Double := ⟨zero⟩

/-- The largest finite number. -/
def largest : Double := .finite false ⟨overflowPattern - 1, by decide⟩

/-- The number with the other sign. -/
def negated : Double → Double
  | .nan => .nan
  | .infinite negative => .infinite !negative
  | .finite negative pattern => .finite (!negative) pattern

/-- The number nearest to a fraction. -/
def ofRatio (negative : Bool) (num den : Nat) : Double :=
  ofPattern negative (nearestPattern num den)

/-- The number nearest to an integer, if the format reaches so far. -/
def ofInt? (n : Int) : Option Double :=
  match ofRatio (decide (n < 0)) n.natAbs 1 with
  | .finite negative pattern => some (.finite negative pattern)
  | _ => none

/-- The number of units, with its sign, of a finite number. -/
def signedUnits (negative : Bool) (pattern : Nat) : Int :=
  if negative then -(units pattern : Int) else units pattern

/-- The integer that is left when the fraction is cut off, of a finite number. -/
def truncated (negative : Bool) (pattern : Nat) : Int :=
  let whole := units pattern / unitsPerOne
  if negative then -(whole : Int) else whole

/-- Whether the number is finite. -/
def isFinite : Double → Bool
  | .finite _ _ => true
  | _ => false

def isNaN : Double → Bool
  | .nan => true
  | _ => false

/-- Whether the number is zero, of either sign. -/
def isZero : Double → Bool
  | .finite _ pattern => pattern.val == 0
  | _ => false

theorem ofPattern_finite (negative : Bool) (pattern : Fin overflowPattern) :
    ofPattern negative pattern.val = .finite negative pattern := by
  simp [ofPattern]

end Double

end CommandTree
