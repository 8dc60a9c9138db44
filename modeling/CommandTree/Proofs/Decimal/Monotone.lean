import CommandTree.Decimal.Order
import CommandTree.Proofs.Decimal.Reach

/-!
# Rounding keeps the order

An integer is taken for the double nearest to it. Rounding moves no integer past a double, and no
integer past another one, so numbers in order are still in order when the integers among them have
been rounded. The converse fails: two integers may be taken for one double.

* `nearestPattern_mono`: a larger number has no smaller nearest magnitude
* `Number.le_of_takenFor`: numbers in order are taken for doubles in order
-/

namespace CommandTree

/-! ## Magnitudes -/

theorem units_le_iff {p q : Nat} : units p ≤ units q ↔ p ≤ q := by
  refine ⟨fun h => Nat.le_of_not_lt fun hlt => ?_, units_le_units⟩
  have := units_lt_units hlt
  omega

/-- A magnitude that a value reaches is not above the one nearest to the value. -/
theorem le_nearestPattern {n q : Nat} (h : units q ≤ unitsPerOne * n) :
    q ≤ nearestPattern n 1 := by
  have hlt := lt_units_patternBelow_succ (unitsPerOne * n)
  have hbounds := nearestPattern_bounds n 1
  rw [Nat.div_one] at hbounds
  have hq : ¬ patternBelow (unitsPerOne * n) + 1 ≤ q := by
    rw [← units_le_iff]
    omega
  omega

/-- Short of the middle between its neighbours, a value is taken for the lower one. -/
theorem nearestPattern_of_lt {n : Nat} (h : 2 * (unitsPerOne * n) <
    units (patternBelow (unitsPerOne * n)) + units (patternBelow (unitsPerOne * n) + 1)) :
    nearestPattern n 1 = patternBelow (unitsPerOne * n) := by
  unfold nearestPattern
  simp only [Nat.div_one, Nat.mul_one, if_pos h]

/-- Past the middle, it is taken for the upper one. -/
theorem nearestPattern_of_gt {n : Nat} (h : units (patternBelow (unitsPerOne * n)) +
    units (patternBelow (unitsPerOne * n) + 1) < 2 * (unitsPerOne * n)) :
    nearestPattern n 1 = patternBelow (unitsPerOne * n) + 1 := by
  unfold nearestPattern
  simp only [Nat.div_one, Nat.mul_one, if_neg (Nat.lt_asymm h), if_neg (Nat.ne_of_gt h)]

/-- A magnitude that a value does not exceed is not below the one nearest to the value. -/
theorem nearestPattern_le {n q : Nat} (h : unitsPerOne * n ≤ units q) :
    nearestPattern n 1 ≤ q := by
  have hle := units_patternBelow_le (unitsPerOne * n)
  have hbounds := nearestPattern_bounds n 1
  rw [Nat.div_one] at hbounds
  have hbelow : patternBelow (unitsPerOne * n) ≤ q := units_le_iff.mp (Nat.le_trans hle h)
  rcases Nat.lt_or_eq_of_le hbelow with hlt | heq
  · omega
  · -- the value is the magnitude itself, which lies below the middle to the next one
    have hnext := units_lt_units_succ q
    have hunder := @nearestPattern_of_lt n
    rw [heq] at hle hunder
    exact Nat.le_of_eq (hunder (by omega))

/-- **A larger number has no smaller nearest magnitude.** -/
theorem nearestPattern_mono {n m : Nat} (h : n ≤ m) :
    nearestPattern n 1 ≤ nearestPattern m 1 := by
  rcases Nat.eq_or_lt_of_le h with rfl | h
  · exact Nat.le_refl _
  have hscaled : unitsPerOne * n < unitsPerOne * m := Nat.mul_lt_mul_of_pos_left h unitsPerOne_pos
  have hle := units_patternBelow_le (unitsPerOne * n)
  have hlt := lt_units_patternBelow_succ (unitsPerOne * m)
  have hn := nearestPattern_bounds n 1
  have hm := nearestPattern_bounds m 1
  rw [Nat.div_one] at hn hm
  have hbelow : ¬ patternBelow (unitsPerOne * m) + 1 ≤ patternBelow (unitsPerOne * n) := by
    rw [← units_le_iff]
    omega
  rcases Nat.lt_or_eq_of_le (Nat.le_of_not_lt hbelow) with hsep | heq
  · omega
  · -- both lie between the same neighbours, so the middle that decides is the same, too
    have hlow := @nearestPattern_of_lt n
    have hhigh := @nearestPattern_of_gt m
    rw [heq] at hlow
    by_cases hshort : 2 * (unitsPerOne * n) <
        units (patternBelow (unitsPerOne * m)) + units (patternBelow (unitsPerOne * m) + 1)
    · rw [hlow hshort]
      exact hm.1
    · rw [hhigh (by omega), ← heq]
      exact hn.2

/-! ## Integers and doubles -/

namespace Double

/-- The units of the double that an integer is taken for. -/
def nearestUnits (n : Int) : Int := signedUnits (decide (n < 0)) (nearestPattern n.natAbs 1)

theorem place?_of_ofInt? {n : Int} {x : Double} (h : ofInt? n = some x) :
    x.place? = some (.at (nearestUnits n)) := by
  unfold ofInt? ofRatio ofPattern at h
  split at h
  · next hfinite =>
    split at hfinite
    · cases hfinite
      cases h
      rfl
    · cases hfinite
  · cases h

theorem nearestUnits_of_nonneg {n : Int} (h : 0 ≤ n) :
    nearestUnits n = units (nearestPattern n.natAbs 1) := by
  simp [nearestUnits, signedUnits, Int.not_lt.mpr h]

theorem nearestUnits_of_neg {n : Int} (h : n < 0) :
    nearestUnits n = -(units (nearestPattern n.natAbs 1) : Int) := by
  simp [nearestUnits, signedUnits, h]

theorem nearestUnits_neg (n : Int) : nearestUnits (-n) = -nearestUnits n := by
  have hzero : units (nearestPattern 0 1) = 0 := by
    rw [nearestPattern_zero Nat.one_pos]
    rfl
  rcases Int.lt_trichotomy n 0 with hn | rfl | hn
  · rw [nearestUnits_of_neg hn, nearestUnits_of_nonneg (by omega), Int.natAbs_neg, Int.neg_neg]
  · rw [Int.neg_zero, nearestUnits_of_nonneg (Int.le_refl 0), Int.natAbs_zero, hzero]
    rfl
  · rw [nearestUnits_of_neg (by omega), nearestUnits_of_nonneg (by omega), Int.natAbs_neg]

theorem signedUnits_not (negative : Bool) (q : Nat) :
    signedUnits (!negative) q = -signedUnits negative q := by
  cases negative <;> simp [signedUnits]

/-- Integers in order are taken for doubles in order. -/
theorem nearestUnits_mono {n m : Int} (h : n ≤ m) : nearestUnits n ≤ nearestUnits m := by
  rcases Int.lt_or_le n 0 with hn | hn <;> rcases Int.lt_or_le m 0 with hm | hm
  · have := units_le_units (@nearestPattern_mono m.natAbs n.natAbs (by omega))
    rw [nearestUnits_of_neg hn, nearestUnits_of_neg hm]
    omega
  · rw [nearestUnits_of_neg hn, nearestUnits_of_nonneg hm]
    omega
  · omega
  · have := units_le_units (@nearestPattern_mono n.natAbs m.natAbs (by omega))
    rw [nearestUnits_of_nonneg hn, nearestUnits_of_nonneg hm]
    omega

/-- An integer that is at most a double is taken for a double that is at most that. -/
theorem nearestUnits_le {n : Int} {negative : Bool} {q : Nat}
    (h : unitsPerOne * n ≤ signedUnits negative q) :
    nearestUnits n ≤ signedUnits negative q := by
  obtain ⟨k, rfl | rfl⟩ := Int.eq_nat_or_neg n
  · have hcast : ((unitsPerOne * k : Nat) : Int) = unitsPerOne * (k : Int) := Int.natCast_mul _ _
    have hle : unitsPerOne * k ≤ units q := by
      cases negative <;> simp [signedUnits] at h <;> omega
    have hnearest := units_le_units (nearestPattern_le hle)
    rw [nearestUnits_of_nonneg (Int.natCast_nonneg k), Int.natAbs_natCast]
    cases negative <;> simp [signedUnits] at h ⊢ <;> omega
  · rw [nearestUnits_neg, nearestUnits_of_nonneg (Int.natCast_nonneg k), Int.natAbs_natCast]
    cases negative with
    | false =>
      simp only [signedUnits, Bool.false_eq_true, if_false]
      omega
    | true =>
      have hcast : ((unitsPerOne * k : Nat) : Int) = unitsPerOne * (k : Int) :=
        Int.natCast_mul _ _
      simp only [signedUnits, if_true, Int.mul_neg] at h ⊢
      have := units_le_units (@le_nearestPattern k q (by omega))
      omega

/-- A double that is at most an integer is at most what that is taken for. -/
theorem le_nearestUnits {n : Int} {negative : Bool} {q : Nat}
    (h : signedUnits negative q ≤ unitsPerOne * n) :
    signedUnits negative q ≤ nearestUnits n := by
  have hneg := @nearestUnits_le (-n) (!negative) q (by rw [signedUnits_not, Int.mul_neg]; omega)
  rw [signedUnits_not, nearestUnits_neg] at hneg
  omega

end Double

namespace Number

/-- The double that a number is taken for: an integer for the nearest one, if there is one. -/
inductive TakenFor : Number → Double → Prop
  | double (x : Double) : TakenFor (.double x) x
  | integer {n : Int} {x : Double} (h : Double.ofInt? n = some x) : TakenFor (.integer n) x

/-- **Numbers in order are taken for doubles in order.** -/
theorem le_of_takenFor {a b : Number} {x y : Double} (ha : TakenFor a x) (hb : TakenFor b y)
    (h : a.le b = true) : x.le y = true := by
  cases ha with
  | double =>
    cases hb with
    | double => exact h
    | integer hy =>
      simp only [Double.le, le, place?, Double.place?_of_ofInt? hy] at h ⊢
      cases x with
      | nan => cases h
      | infinite negative =>
        cases negative with
        | false => cases h
        | true => rfl
      | finite negative pattern =>
        simp only [Double.place?, Place.le, decide_eq_true_eq] at h ⊢
        exact Double.le_nearestUnits h
  | integer hx =>
    cases hb with
    | double =>
      simp only [Double.le, le, place?, Double.place?_of_ofInt? hx] at h ⊢
      cases y with
      | nan => cases h
      | infinite negative =>
        cases negative with
        | false => rfl
        | true => cases h
      | finite negative pattern =>
        simp only [Double.place?, Place.le, decide_eq_true_eq] at h ⊢
        exact Double.nearestUnits_le h
    | integer hy =>
      rw [le_integer, decide_eq_true_eq] at h
      simp only [Double.le, le, place?, Double.place?_of_ofInt? hx, Double.place?_of_ofInt? hy,
        Place.le, decide_eq_true_eq]
      exact Double.nearestUnits_mono h

end Number

end CommandTree
