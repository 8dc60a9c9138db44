import CommandTree.Proofs.Value
import Mathlib.Data.Int.ModEq
import Mathlib.Data.Rat.Floor

/-!
# Reading numbers as integers of a fixed width

An integer that is read in a number of bits wraps around: what is read is the only signed integer of
so many bits that differs from it by a multiple of the number of all of them. A double is cut off
toward zero, and beyond the range it comes to the nearer limit. It makes no difference whether it is
held between the limits before or after it is cut off.

* `isWrapped_iff`: the integer that an integer wraps around to
* `isWrapped_of_isWrapped`: wrapping around in more bits first changes nothing
* `Double.saturated_of_value`: a finite double is cut off and held between the limits
* `Double.cutOff?_clamped`: and may be held between the limits first
* `Double.saturated_le_saturated`: a larger double is read as no smaller an integer
* `Value.narrowed_readings`: what the readings of integers and doubles come to
-/

namespace CommandTree

/-! ## Integers that wrap around -/

/-- Whether `r` is the signed integer of a width in bits that `n` wraps around to. -/
structure IsWrapped (width : Nat) (n r : Int) : Prop where
  least : -2 ^ (width - 1) ≤ r
  greatest : r ≤ 2 ^ (width - 1) - 1
  modEq : r ≡ n [ZMOD 2 ^ width]

theorem two_pow_width {width : Nat} (h : 0 < width) : (2 : Int) ^ width = 2 * 2 ^ (width - 1) := by
  rw [← pow_succ', Nat.sub_add_cancel h]

/-- An integer wraps around to one integer only: the one between the limits of the width. -/
theorem isWrapped_iff {width : Nat} (h : 0 < width) {n r : Int} :
    IsWrapped width n r ↔ r = narrowed (-2 ^ (width - 1)) (2 ^ (width - 1) - 1) n := by
  have hpos : (0 : Int) < 2 ^ (width - 1) := by positivity
  have hspan : (2 : Int) ^ (width - 1) - 1 - -2 ^ (width - 1) + 1 = 2 ^ width := by
    rw [two_pow_width h]
    ring
  constructor
  · rintro ⟨hleast, hgreatest, hmod⟩
    -- an integer between the limits is not changed, and congruent ones are narrowed alike
    rw [← narrowed_of_mem ⟨hleast, hgreatest⟩, narrowed, narrowed, hspan]
    exact congrArg (· + _) (hmod.sub_right _)
  · rintro rfl
    have hlimits : (-2 ^ (width - 1) : Int) ≤ 2 ^ (width - 1) - 1 := by omega
    obtain ⟨hleast, hgreatest⟩ := narrowed_mem hlimits n
    have hmod := narrowed_mod (-2 ^ (width - 1)) (2 ^ (width - 1) - 1) n
    rw [hspan] at hmod
    exact ⟨hleast, hgreatest, hmod⟩

/-- What an integer wraps around to in more bits wraps around to the same in fewer. -/
theorem isWrapped_of_isWrapped {wide narrow : Nat} (h : narrow ≤ wide) {n m r : Int}
    (hm : IsWrapped wide n m) (hr : IsWrapped narrow m r) : IsWrapped narrow n r :=
  ⟨hr.least, hr.greatest, hr.modEq.trans (hm.modEq.of_dvd (pow_dvd_pow 2 h))⟩

theorem isWrapped_integer_iff {n r : Int} :
    IsWrapped 32 n r ↔ r = narrowed integerLeast integerGreatest n :=
  isWrapped_iff (by decide)

theorem isWrapped_long_iff {n r : Int} :
    IsWrapped 64 n r ↔ r = narrowed longLeast longGreatest n :=
  isWrapped_iff (by decide)

/-! ## Doubles that are cut off -/

/-- The integer that is left of a fraction when it is cut off toward zero. -/
def cutOff (q : ℚ) : Int := if 0 ≤ q then ⌊q⌋ else ⌈q⌉

theorem cutOff_div (n : Int) (d : Nat) : cutOff (n / d) = n.tdiv d := by
  unfold cutOff
  rcases le_or_gt 0 n with hn | hn
  · have hq : (0 : ℚ) ≤ n / d := div_nonneg (by exact_mod_cast hn) (Nat.cast_nonneg d)
    rw [if_pos hq, Rat.floor_intCast_div_natCast, Int.tdiv_eq_ediv_of_nonneg hn]
  · have hneg : n.tdiv d = -((-n) / d) := by
      rw [← Int.tdiv_eq_ediv_of_nonneg (by omega), Int.neg_tdiv, neg_neg]
    rcases Nat.eq_zero_or_pos d with rfl | hd
    · simp
    · have hq : ¬ (0 : ℚ) ≤ n / d := by
        rw [not_le]
        exact div_neg_of_neg_of_pos (by exact_mod_cast hn) (by exact_mod_cast hd)
      rw [if_neg hq, Rat.ceil_intCast_div_natCast, hneg]

namespace Place

/-- A place on the number line as an integer between two limits: cut off toward zero, and the nearer
limit beyond them. -/
def saturated (lower upper : Int) : Place → Int
  | .bottom => lower
  | .at u => max lower (min upper (u.tdiv unitsPerOne))
  | .top => upper

variable {lower upper : Int}

theorem saturated_mem (h : lower ≤ upper) (p : Place) :
    lower ≤ p.saturated lower upper ∧ p.saturated lower upper ≤ upper := by
  cases p <;> simp only [saturated] <;> omega

/-- A place further up comes to no smaller an integer. -/
theorem saturated_le_saturated (h : lower ≤ upper) {p q : Place} (hpq : p.le q = true) :
    p.saturated lower upper ≤ q.saturated lower upper := by
  cases p with
  | bottom => exact (saturated_mem h q).1
  | top =>
    cases q with
    | bottom | «at» v => cases hpq
    | top => exact Int.le_refl _
  | «at» u =>
    cases q with
    | bottom => cases hpq
    | top => exact (saturated_mem h _).2
    | «at» v =>
      have huv : u ≤ v := of_decide_eq_true hpq
      exact max_le_max_left _ (min_le_min_left _ (Int.tdiv_le_tdiv unitsPerOne_cast_pos huv))

end Place

namespace Double

variable {lower upper : Int}

/-- The number that a finite double stands for. -/
def value? : Double → Option ℚ
  | .finite negative pattern => some (signedUnits negative pattern / unitsPerOne)
  | _ => none

theorem truncated_eq_tdiv (negative : Bool) (pattern : Nat) :
    truncated negative pattern = (signedUnits negative pattern).tdiv unitsPerOne := by
  unfold truncated signedUnits
  cases negative with
  | false => rfl
  | true =>
    rw [if_pos rfl, if_pos rfl, Int.neg_tdiv]
    rfl

theorem saturated_of_place {x : Double} {p : Place} (h : x.place? = some p) :
    x.saturated lower upper = p.saturated lower upper := by
  cases x with
  | nan => cases h
  | infinite negative =>
    cases h
    cases negative <;> rfl
  | finite negative pattern =>
    cases h
    rw [saturated, Place.saturated, truncated_eq_tdiv]

/-- **A finite double is cut off toward zero and held between the limits.** -/
theorem saturated_of_value {x : Double} {q : ℚ} (h : x.value? = some q) :
    x.saturated lower upper = max lower (min upper (cutOff q)) := by
  cases x with
  | nan | infinite negative => cases h
  | finite negative pattern =>
    cases h
    rw [cutOff_div, saturated, truncated_eq_tdiv]

/-- **A larger double is read as no smaller an integer.** -/
theorem saturated_le_saturated (h : lower ≤ upper) {x y : Double} (hxy : x.le y = true) :
    x.saturated lower upper ≤ y.saturated lower upper := by
  simp only [le, Number.le, Number.place?] at hxy
  split at hxy
  · next p q hx hy =>
    rw [saturated_of_place hx, saturated_of_place hy]
    exact Place.saturated_le_saturated h hxy
  · cases hxy

/-- A double held between two limits, which it is compared with as it is. -/
def clamped (lower upper : Int) (x : Double) : Number :=
  let raised := if Number.lt (.double x) (.integer lower) then .integer lower else .double x
  if Number.lt (.integer upper) raised then .integer upper else raised

end Double

/-- A number cut off toward zero; what is not finite cannot be. -/
def Number.cutOff? : Number → Option Int
  | .integer n => some n
  | .double (.finite negative pattern) => some (Double.truncated negative pattern)
  | .double _ => none

namespace Double

variable {lower upper : Int}

theorem lt_integer_iff {x : Double} {u : Int} (h : x.place? = some (.at u)) (n : Int) :
    Number.lt (.double x) (.integer n) = true ↔ u < unitsPerOne * n := by
  simp [Number.lt, Number.place?, h, Place.lt, Place.le]

theorem integer_lt_iff {x : Double} {u : Int} (h : x.place? = some (.at u)) (n : Int) :
    Number.lt (.integer n) (.double x) = true ↔ unitsPerOne * n < u := by
  simp [Number.lt, Number.place?, h, Place.lt, Place.le]

/-- **A double may be held between the limits before it is cut off.** -/
theorem cutOff?_clamped (h : lower ≤ upper) {x : Double} (hx : x ≠ .nan) :
    (x.clamped lower upper).cutOff? = some (x.saturated lower upper) := by
  have horder : Number.lt (.integer upper) (.integer lower) = false := by
    rw [Number.lt_integer]
    exact decide_eq_false (Int.not_lt.mpr h)
  cases x with
  | nan => exact absurd rfl hx
  | infinite negative =>
    cases negative with
    | true =>
      have hlow : Number.lt (.double (.infinite true)) (.integer lower) = true := rfl
      rw [clamped, if_pos hlow, if_neg (ne_true_of_eq_false horder)]
      rfl
    | false =>
      have hlow : Number.lt (.double (.infinite false)) (.integer lower) = false := rfl
      have hhigh : Number.lt (.integer upper) (.double (.infinite false)) = true := rfl
      rw [clamped, if_neg (ne_true_of_eq_false hlow), if_pos hhigh]
      rfl
  | finite negative pattern =>
    have hplace : (finite negative pattern).place? = some (.at (signedUnits negative pattern)) :=
      rfl
    have hlow := lt_integer_iff hplace lower
    have hhigh := integer_lt_iff hplace upper
    have hcut (n : Int) : (unitsPerOne * n).tdiv unitsPerOne = n :=
      Int.mul_tdiv_cancel_left n (ne_of_gt unitsPerOne_cast_pos)
    rw [saturated_of_place hplace, Place.saturated, clamped]
    generalize hu : signedUnits negative pattern = u at *
    by_cases hbelow : u < unitsPerOne * lower
    · have hle := Int.tdiv_le_tdiv unitsPerOne_cast_pos (Int.le_of_lt hbelow)
      rw [hcut] at hle
      rw [if_pos (hlow.mpr hbelow), if_neg (ne_true_of_eq_false horder), Number.cutOff?,
        Option.some.injEq]
      omega
    · have hge := Int.tdiv_le_tdiv unitsPerOne_cast_pos (Int.not_lt.mp hbelow)
      rw [hcut] at hge
      rw [if_neg (hbelow ∘ hlow.mp)]
      by_cases habove : unitsPerOne * upper < u
      · have hle := Int.tdiv_le_tdiv unitsPerOne_cast_pos (Int.le_of_lt habove)
        rw [hcut] at hle
        rw [if_pos (hhigh.mpr habove), Number.cutOff?, Option.some.injEq]
        omega
      · have hle := Int.tdiv_le_tdiv unitsPerOne_cast_pos (Int.not_lt.mp habove)
        rw [hcut] at hle
        rw [if_neg (habove ∘ hhigh.mp), Number.cutOff?, truncated_eq_tdiv, hu, Option.some.injEq]
        omega

end Double

namespace Value

/-! ## What is read -/

/-- Whether a reading of integers always returns, with what they wrap around to in a width in
bits. -/
def Wraps (reading : Int → Except Fault (Option Int)) (width : Nat) : Prop :=
  ∀ n, ∃ r, reading n = .ok (some r) ∧ ∀ s, IsWrapped width n s ↔ s = r

/-- Whether a reading of doubles always returns, with the doubles cut off to integers between two
limits. -/
structure Saturates (reading : Double → Except Fault (Option Int)) (lower upper : Int) : Prop where
  nan : reading .nan = .ok (some 0)
  below : reading (.infinite true) = .ok (some lower)
  above : reading (.infinite false) = .ok (some upper)
  finite : ∀ x q, x.value? = some q → reading x = .ok (some (max lower (min upper (cutOff q))))
  /-- Holding the double between the limits first comes to the same. -/
  clamped : ∀ x, x ≠ .nan →
    ∃ r, (x.clamped lower upper).cutOff? = some r ∧ reading x = .ok (some r)
  monotone : ∀ x y : Double, x.le y = true →
    ∃ r s, reading x = .ok (some r) ∧ reading y = .ok (some s) ∧ r ≤ s

section

variable {t : ValueType}

/-- Under a numeric type, every number is narrowed. -/
theorem narrowed_number (ht : t.isNumeric = true) {m : Number} (found : Scalar)
    (hm : found.number? = some m) (lower upper : Int) :
    (if (of t found.toDatum).isNumeric then some <$> narrowPayload lower upper found.toDatum
      else .ok none) = .ok (some (m.narrowed lower upper)) := by
  have hnumeric : (of t found.toDatum).isNumeric = true := ht
  rw [if_pos hnumeric]
  exact congrArg (some <$> ·) (narrowPayload_of_number hm lower upper)

/-- A reading that gives each double between the limits is one that saturates. -/
theorem saturates_of_eq {reading : Double → Except Fault (Option Int)} {lower upper : Int}
    (hlimits : lower ≤ upper) (h : ∀ x, reading x = .ok (some (x.saturated lower upper))) :
    Saturates reading lower upper where
  nan := h .nan
  below := h (.infinite true)
  above := h (.infinite false)
  finite x q hq := by rw [h, Double.saturated_of_value hq]
  clamped x hx := ⟨_, Double.cutOff?_clamped hlimits hx, h x⟩
  monotone x y hxy := ⟨_, _, h x, h y, Double.saturated_le_saturated hlimits hxy⟩

/--
**Integers wrap around and doubles saturate.** Under every numeric type, an integer is read as the
only signed integer of 32, or of 64, bits that it is congruent to, and it makes no difference
whether it is read in 64 bits first. A double that is no number is read as zero, an infinite one as
a limit, and a finite one is cut off toward zero and held between the limits, in whichever order; a
larger double is read as no smaller an integer.
-/
theorem narrowed_readings (ht : t.isNumeric = true) :
    Wraps (fun n => (of t (.integer n)).asInteger?) 32 ∧
      Wraps (fun n => (of t (.integer n)).asLong?) 64 ∧
      (∀ n m, (of t (.integer n)).asLong? = .ok (some m) →
        (of t (.integer m)).asInteger? = (of t (.integer n)).asInteger?) ∧
      Saturates (fun x => (of t (.double x)).asInteger?) integerLeast integerGreatest ∧
      Saturates (fun x => (of t (.double x)).asLong?) longLeast longGreatest := by
  have hinteger (n : Int) : (of t (.integer n)).asInteger?
      = .ok (some (narrowed integerLeast integerGreatest n)) :=
    narrowed_number ht (.integer n) rfl _ _
  have hlong (n : Int) : (of t (.integer n)).asLong?
      = .ok (some (narrowed longLeast longGreatest n)) :=
    narrowed_number ht (.integer n) rfl _ _
  refine ⟨?_, ?_, ?_, ?_, ?_⟩
  · exact fun n => ⟨_, hinteger n, fun s => isWrapped_integer_iff⟩
  · exact fun n => ⟨_, hlong n, fun s => isWrapped_long_iff⟩
  · intro n m hm
    have hwide : IsWrapped 64 n m := by
      rw [hlong] at hm
      cases hm
      exact isWrapped_long_iff.mpr rfl
    have hnarrow := isWrapped_of_isWrapped (by decide) hwide (isWrapped_integer_iff.mpr rfl)
    rw [hinteger, hinteger, isWrapped_integer_iff.mp hnarrow]
  · exact saturates_of_eq (by decide) fun x => narrowed_number ht (.double x) rfl _ _
  · exact saturates_of_eq (by decide) fun x => narrowed_number ht (.double x) rfl _ _

/-- Two to the power of 32 and five more is left as it is in 64 bits, and comes to five in 32. -/
theorem narrowed_readings_long :
    ValueType.long.isNumeric = true ∧
      (of .long (.integer 4294967301)).asLong? = .ok (some 4294967301) ∧
      (of .long (.integer 4294967301)).asInteger? = .ok (some 5) ∧
      (of .long (.double (.infinite true))).asInteger? = .ok (some integerLeast) := by
  obtain ⟨hshort, hlong, -, hsaturates, -⟩ := narrowed_readings (t := .long) rfl
  obtain ⟨r, hr, hr'⟩ := hshort 4294967301
  obtain ⟨s, hs, hs'⟩ := hlong 4294967301
  have hfive : 5 = r := (hr' 5).mp ⟨by decide, by decide, rfl⟩
  have hsame : 4294967301 = s := (hs' 4294967301).mp ⟨by decide, by decide, rfl⟩
  rw [← hfive] at hr
  rw [← hsame] at hs
  exact ⟨rfl, hs, hr, hsaturates.below⟩

end

end Value

end CommandTree
