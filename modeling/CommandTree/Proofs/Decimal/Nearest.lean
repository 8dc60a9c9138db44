import CommandTree.Decimal.Order
import CommandTree.Decimal.Shortest
import CommandTree.Proofs.Decimal.Reach

/-!
# Which double is nearest

A fraction is taken for the double nearest to it. All fractions between the middles to the two
neighbours of a magnitude are taken for that magnitude, and the middles themselves if its place is
even. So the interval of a place, in which a short decimal is searched, holds nothing but what is
taken for that place.

* `nearestPattern_of_holds`: a fraction in the interval of a place is taken for that place
* `Double.exists_ofInt?_eqv`: an integer of at most 53 bits is taken for a double that equals it
-/

namespace CommandTree

open Text

/-! ## Between the middles -/

/-- The place below a value is that of the last magnitude that does not exceed it. -/
theorem patternBelow_eq {u p : Nat} (hle : units p ≤ u) (hlt : u < units (p + 1)) :
    patternBelow u = p := by
  have hbelow := units_patternBelow_le u
  have habove := lt_units_patternBelow_succ u
  rcases Nat.lt_trichotomy (patternBelow u) p with h | h | h
  · have hstep : units (patternBelow u + 1) ≤ units p := units_le_units h
    omega
  · exact h
  · have hstep : units (p + 1) ≤ units (patternBelow u) := units_le_units h
    omega

/-- A fraction between the middles to both neighbours of a magnitude is taken for it; at an odd
place the middles do not belong to it. -/
theorem nearestPattern_of_between {num den p : Nat} (hp : 0 < p) (hden : 0 < den)
    (hlow : (units (p - 1) + units p) * den ≤ 2 * (unitsPerOne * num))
    (hhigh : 2 * (unitsPerOne * num) ≤ (units p + units (p + 1)) * den)
    (hodd : p % 2 = 1 → (units (p - 1) + units p) * den < 2 * (unitsPerOne * num) ∧
      2 * (unitsPerOne * num) < (units p + units (p + 1)) * den) :
    nearestPattern num den = p := by
  obtain ⟨q, rfl⟩ : ∃ q, p = q + 1 := ⟨p - 1, by omega⟩
  rw [Nat.add_sub_cancel] at hlow hodd
  have hbelow : units q * den < units (q + 1) * den :=
    Nat.mul_lt_mul_of_pos_right (units_lt_units_succ q) hden
  have habove : units (q + 1) * den < units (q + 1 + 1) * den :=
    Nat.mul_lt_mul_of_pos_right (units_lt_units_succ (q + 1)) hden
  rw [Nat.add_mul] at hlow hhigh hodd
  rw [Nat.add_mul] at hodd
  unfold nearestPattern
  generalize unitsPerOne * num = scaled at *
  dsimp only
  -- the value lies below the magnitude itself, or it does not
  rcases Nat.lt_or_ge scaled (units (q + 1) * den) with hs | hs
  · have hq : patternBelow (scaled / den) = q := by
      refine patternBelow_eq ?_ ((Nat.div_lt_iff_lt_mul hden).mpr hs)
      rw [Nat.le_div_iff_mul_le hden]
      omega
    rw [hq, Nat.add_mul, if_neg (by omega)]
    split
    · next heq => rw [if_neg (fun heven => absurd (hodd (by omega)) (by omega))]
    · rfl
  · have hq : patternBelow (scaled / den) = q + 1 := by
      refine patternBelow_eq ((Nat.le_div_iff_mul_le hden).mpr hs) ?_
      rw [Nat.div_lt_iff_lt_mul hden]
      omega
    rw [hq, Nat.add_mul]
    split
    · rfl
    · next hnot =>
      have heq : 2 * scaled = units (q + 1) * den + units (q + 1 + 1) * den := by omega
      rcases Nat.mod_two_eq_zero_or_one (q + 1) with heven | hone
      · rw [if_pos heq, if_pos heven]
      · exact absurd (hodd hone).2 (by omega)

/-! ## Intervals -/

namespace RoundingInterval

theorem two_mul_le_of_holds {interval : RoundingInterval} {value : Nat}
    (h : interval.holds value = true) :
    interval.twiceLow ≤ 2 * value ∧ 2 * value ≤ interval.twiceHigh := by
  unfold holds at h
  split at h <;> simp at h <;> omega

theorem two_mul_lt_of_holds {interval : RoundingInterval} {value : Nat}
    (h : interval.holds value = true) (hopen : interval.closed = false) :
    interval.twiceLow < 2 * value ∧ 2 * value < interval.twiceHigh := by
  unfold holds at h
  rw [hopen] at h
  simpa using h

theorem fineUnits_pos : 0 < fineUnits := by decide +kernel

/-- The interval of a place holds its own magnitude. -/
theorem holds_self {p : Nat} (hp : 0 < p) :
    (ofPattern p).holds (units p * fineUnits) = true := by
  obtain ⟨q, rfl⟩ : ∃ q, p = q + 1 := ⟨p - 1, by omega⟩
  have hbelow := Nat.mul_lt_mul_of_pos_right (units_lt_units_succ q) fineUnits_pos
  have habove := Nat.mul_lt_mul_of_pos_right (units_lt_units_succ (q + 1)) fineUnits_pos
  unfold holds ofPattern
  dsimp only
  rw [Nat.add_sub_cancel, Nat.add_mul, Nat.add_mul]
  split <;> simp <;> omega

/-- What the search ends with lies in the interval, if the value does. -/
theorem holds_search {interval : RoundingInterval} {value : Nat}
    (h : interval.holds value = true) (j : Nat) :
    interval.holds ((interval.search value j).1 * powerOfTen (interval.search value j).2)
      = true := by
  induction j with
  | zero =>
    show interval.holds (value * 1) = true
    rwa [Nat.mul_one]
  | succ j ih =>
    unfold search
    split
    · next m hm => exact gridPoint?_sound hm
    · exact ih

end RoundingInterval

/-- A one counts as many fine units as a unit does, as often as there are units in it. -/
theorem powerOfTen_fine : powerOfTen 1074 = unitsPerOne * fineUnits := by decide +kernel

/-- **A fraction in the interval of a place is taken for that place.** -/
theorem nearestPattern_of_holds {num den value p : Nat} (hp : 0 < p) (hden : 0 < den)
    (hvalue : num * powerOfTen 1074 = value * den)
    (h : (RoundingInterval.ofPattern p).holds value = true) : nearestPattern num den = p := by
  have hscaled : 2 * (unitsPerOne * num) * fineUnits = 2 * value * den := by
    rw [Nat.mul_assoc 2 value, ← hvalue, powerOfTen_fine, Nat.mul_assoc, Nat.mul_left_comm num,
      ← Nat.mul_assoc unitsPerOne]
  have hswap : ∀ a, a * den * fineUnits = a * fineUnits * den := fun a => Nat.mul_right_comm _ _ _
  obtain ⟨hlow, hhigh⟩ := RoundingInterval.two_mul_le_of_holds h
  refine nearestPattern_of_between hp hden ?_ ?_ fun hodd => ?_
  · refine Nat.le_of_mul_le_mul_right ?_ RoundingInterval.fineUnits_pos
    rw [hscaled, hswap]
    exact Nat.mul_le_mul_right den hlow
  · refine Nat.le_of_mul_le_mul_right ?_ RoundingInterval.fineUnits_pos
    rw [hscaled, hswap]
    exact Nat.mul_le_mul_right den hhigh
  · have hopen : (RoundingInterval.ofPattern p).closed = false := by
      simp [RoundingInterval.ofPattern, hodd]
    obtain ⟨hlow, hhigh⟩ := RoundingInterval.two_mul_lt_of_holds h hopen
    constructor
    · refine Nat.lt_of_mul_lt_mul_right (a := fineUnits) ?_
      rw [hscaled, hswap]
      exact Nat.mul_lt_mul_of_pos_right hlow hden
    · refine Nat.lt_of_mul_lt_mul_right (a := fineUnits) ?_
      rw [hscaled, hswap]
      exact Nat.mul_lt_mul_of_pos_right hhigh hden

/-! ## Whole numbers of few bits -/

/-- A fraction that is a magnitude is taken for it. -/
theorem nearestPattern_of_exact {n p : Nat} (hp : 0 < p) (h : units p = unitsPerOne * n) :
    nearestPattern n 1 = p := by
  have hvalue : n * powerOfTen 1074 = units p * fineUnits * 1 := by
    rw [h, powerOfTen_fine, Nat.mul_one, Nat.mul_right_comm, Nat.mul_comm]
  exact nearestPattern_of_holds hp Nat.one_pos hvalue (RoundingInterval.holds_self hp)

/-- A number of at most 53 bits is a magnitude. -/
theorem exists_units_eq {n : Nat} (hpos : 0 < n) (h : n < 2 * octave) :
    ∃ p, 0 < p ∧ p < overflowPattern ∧ units p = unitsPerOne * n := by
  have hne : n ≠ 0 := Nat.ne_of_gt hpos
  have hle := Nat.log2_self_le hne
  have hlt := Nat.lt_log2_self (n := n)
  have hlog : n.log2 < 53 := (Nat.log2_lt hne).mpr h
  generalize n.log2 = k at hle hlt hlog
  -- the number with its first bit moved up to the place of the hidden one
  have hlow : octave ≤ n <<< (52 - k) := by
    have hpow := Nat.pow_add 2 k (52 - k)
    rw [show k + (52 - k) = 52 by omega] at hpow
    rw [Nat.shiftLeft_eq]
    exact Nat.le_trans (Nat.le_of_eq hpow) (Nat.mul_le_mul_right _ hle)
  have hhigh : n <<< (52 - k) < 2 * octave := by
    have hpow := Nat.pow_add 2 (k + 1) (52 - k)
    rw [show k + 1 + (52 - k) = 53 by omega] at hpow
    rw [Nat.shiftLeft_eq]
    exact Nat.lt_of_lt_of_le (Nat.mul_lt_mul_of_pos_right hlt (Nat.two_pow_pos _))
      (Nat.le_of_eq hpow.symm)
  have hmul : ∀ e, n <<< e = 1 <<< e * n := by
    intro e
    rw [Nat.shiftLeft_eq, Nat.one_shiftLeft, Nat.mul_comm]
  have hshift : (n <<< (52 - k)) <<< (1022 + k) = unitsPerOne * n := by
    rw [← Nat.shiftLeft_add, show 52 - k + (1022 + k) = 1074 by omega]
    exact hmul 1074
  generalize n <<< (52 - k) = m at *
  refine ⟨(1023 + k) * octave + (m - octave), ?_⟩
  unfold overflowPattern
  simp only [octave] at *
  refine ⟨by omega, by omega, ?_⟩
  rw [units_of_le (by simp only [octave]; omega)]
  simp only [octave]
  rw [show ((1023 + k) * 4503599627370496 + (m - 4503599627370496)) % 4503599627370496
      = m - 4503599627370496 by omega,
    show ((1023 + k) * 4503599627370496 + (m - 4503599627370496)) / 4503599627370496 - 1
      = 1022 + k by omega,
    show 4503599627370496 + (m - 4503599627370496) = m by omega]
  exact hshift

/-- A number of at most 53 bits is taken for a magnitude that equals it. -/
theorem units_nearestPattern {n : Nat} (h : n < 2 * octave) :
    nearestPattern n 1 < overflowPattern ∧ units (nearestPattern n 1) = unitsPerOne * n := by
  rcases Nat.eq_zero_or_pos n with rfl | hpos
  · rw [nearestPattern_zero Nat.one_pos]
    exact ⟨by decide, rfl⟩
  · obtain ⟨p, hp, hover, hunits⟩ := exists_units_eq hpos h
    rw [nearestPattern_of_exact hp hunits]
    exact ⟨hover, hunits⟩

/-- **An integer of at most 53 bits is taken for a double that equals it.** -/
theorem Double.exists_ofInt?_eqv {n : Int} (h : n.natAbs < 2 * octave) :
    ∃ x, ofInt? n = some x ∧ Number.eqv (.double x) (.integer n) = true := by
  obtain ⟨hover, hunits⟩ := units_nearestPattern h
  refine ⟨.finite (decide (n < 0)) ⟨nearestPattern n.natAbs 1, hover⟩, ?_, ?_⟩
  · simp [ofInt?, ofRatio, ofPattern, hover]
  · have hplace : signedUnits (decide (n < 0)) (nearestPattern n.natAbs 1) = unitsPerOne * n := by
      unfold signedUnits
      rw [hunits, Int.natCast_mul]
      by_cases hneg : n < 0
      · rw [decide_eq_true hneg, if_pos rfl, ← Int.mul_neg, Int.ofNat_natAbs_of_nonpos (by omega),
          Int.neg_neg]
      · rw [decide_eq_false hneg, if_neg Bool.false_ne_true, Int.natAbs_of_nonneg (by omega)]
    simp [Number.eqv, Number.le, Number.place?, place?, Place.le, hplace]

end CommandTree
