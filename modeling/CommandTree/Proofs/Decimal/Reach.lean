import CommandTree.Vocabulary

/-!
# How far doubles reach

An integer is taken for the double nearest to it. This fails exactly for the integers that lie at
least as far from zero as the middle between the largest double and the power of two that would come
next; all integers of 64 bits are nearer.

* `Double.ofInt?_eq_none_iff`: the integers that are beyond the doubles
* `Double.exists_ofInt?`: an integer of 64 bits is not
-/

namespace CommandTree

/-- The middle between the largest double and the next power of two, to which ties are rounded. -/
def doubleReach : Nat := Nat.pow 2 1024 - Nat.pow 2 970

theorem units_top : units (overflowPattern - 1) + units overflowPattern
    = 2 * (unitsPerOne * doubleReach) := by
  decide +kernel

theorem units_le_units {p q : Nat} (h : p ≤ q) : units p ≤ units q := by
  rcases Nat.lt_or_eq_of_le h with hlt | rfl
  · exact Nat.le_of_lt (units_lt_units hlt)
  · exact Nat.le_refl _

/-- The nearest magnitude is the one below the value or the one after that. -/
theorem nearestPattern_bounds (num den : Nat) :
    patternBelow (unitsPerOne * num / den) ≤ nearestPattern num den ∧
      nearestPattern num den ≤ patternBelow (unitsPerOne * num / den) + 1 := by
  unfold nearestPattern
  dsimp only
  split
  · omega
  · split
    · split <;> omega
    · omega

/-- The place of the last magnitude is odd, so a tie with the one that would come next goes up. -/
theorem overflowPattern_le_nearestPattern_iff {n : Nat} :
    overflowPattern ≤ nearestPattern n 1 ↔ doubleReach ≤ n := by
  have hle := units_patternBelow_le (unitsPerOne * n)
  have hlt := lt_units_patternBelow_succ (unitsPerOne * n)
  have hbounds := nearestPattern_bounds n 1
  have hodd : (overflowPattern - 1) % 2 = 1 := by decide
  have hpos : overflowPattern - 1 + 1 = overflowPattern := by decide
  have hmiddle : units (overflowPattern - 1) + units overflowPattern ≤ 2 * (unitsPerOne * n) ↔
      doubleReach ≤ n := by
    rw [units_top, Nat.mul_le_mul_left_iff (by decide), Nat.mul_le_mul_left_iff unitsPerOne_pos]
  rw [← hmiddle]
  rw [Nat.div_one] at hbounds
  rcases Nat.lt_trichotomy (patternBelow (unitsPerOne * n) + 1) overflowPattern with h | h | h
  · -- the magnitude above the value is still one of the format
    have htop := units_le_units (Nat.le_sub_one_of_lt h)
    have hnext := units_lt_units (Nat.sub_one_lt_of_lt h)
    omega
  · have hbelow : patternBelow (unitsPerOne * n) = overflowPattern - 1 := by omega
    unfold nearestPattern
    simp only [Nat.div_one, Nat.mul_one, hbelow, hpos]
    constructor
    · intro hover
      refine Nat.le_of_not_lt fun hsmall => ?_
      rw [if_pos hsmall] at hover
      omega
    · intro hmid
      have hup : ¬ (overflowPattern - 1) % 2 = 0 := by omega
      rw [if_neg (Nat.not_lt_of_le hmid), if_neg hup]
      split <;> exact Nat.le_refl _
  · have htop := units_le_units (Nat.le_of_lt_succ h)
    have hnext := units_le_units (Nat.sub_le overflowPattern 1)
    omega

namespace Double

/-- **An integer is beyond the doubles exactly if it lies beyond their reach.** -/
theorem ofInt?_eq_none_iff {n : Int} : ofInt? n = none ↔ doubleReach ≤ n.natAbs := by
  rw [← overflowPattern_le_nearestPattern_iff]
  unfold ofInt? ofRatio ofPattern
  by_cases h : nearestPattern n.natAbs 1 < overflowPattern
  · rw [dif_pos h]
    exact iff_of_false nofun (Nat.not_le_of_lt h)
  · rw [dif_neg h]
    exact iff_of_true rfl (Nat.le_of_not_lt h)

/-- What an integer is taken for is finite. -/
theorem isFinite_of_ofInt? {n : Int} {x : Double} (h : ofInt? n = some x) :
    x.isFinite = true := by
  unfold ofInt? at h
  split at h
  · cases h
    rfl
  · cases h

theorem exists_ofInt?_iff {n : Int} : (∃ x, ofInt? n = some x) ↔ n.natAbs < doubleReach := by
  rw [← Option.isSome_iff_exists, ← Option.ne_none_iff_isSome, Ne, ofInt?_eq_none_iff]
  omega

/-- An integer of 64 bits is not beyond the doubles. -/
theorem exists_ofInt? {n : Int} (hl : longLeast ≤ n) (hg : n ≤ longGreatest) :
    ∃ x, ofInt? n = some x := by
  have hreach : 2 ^ 63 < doubleReach := by decide +kernel
  unfold longLeast at hl
  unfold longGreatest at hg
  exact exists_ofInt?_iff.mpr (Nat.lt_of_le_of_lt (by omega) hreach)

end Double

end CommandTree
