import CommandTree.Parameter.Declaration
import CommandTree.Proofs.Decimal.Monotone

/-!
# Bounds of numbers

A parameter of a numeric type may be declared with bounds, and a bound that is not given is that of
the full range of the type. A bound has to be of the right kind and has to lie in the full range,
and the two bounds have to be in order; the first bound that is at fault decides how the declaration
is refused.

Bounds are not always judged as they are given. An integer beyond the doubles is refused as such,
before it is held against the range. And under the type of doubles an integer counts as the double
nearest to it, so that rounding can bring a bound into the range, or two bounds in order. Rounding
makes no bound worse: what fits and is in order still is when it is rounded.

* `Number.Fits`: the bounds that a type admits
* `FirstFault`: the fault that decides
* `ReachesBeyond`, `RoundsAway`: the pairs of bounds that are not judged as they are given
* `RoundsAway.firstFault_iff`: the first fault of all others is the same when they are rounded
-/

namespace CommandTree

/-! ## Bounds -/

namespace Number

/-- The number that a bound counts as under a type. Under the type of doubles, an integer counts as
the double nearest to it. -/
def under (b : Number) (t : ValueType) : Number :=
  match t, b with
  | .double, .integer n => (Double.ofInt? n).elim b .double
  | _, _ => b

/-- Whether a bound is of a kind that a type admits: a double is none for the integral types. -/
def IsOfKind (b : Number) (t : ValueType) : Prop := t = .double ∨ ∃ n, b = .integer n

/-- Whether a number lies in the full range of a type. -/
def IsWithin (b : Number) (t : ValueType) : Prop :=
  ∃ lower upper, t.range? = some (lower, upper) ∧ lower.le b = true ∧ b.le upper = true

/-- Whether a type admits a bound, as it is given. -/
def Fits (b : Number) (t : ValueType) : Prop := b.IsOfKind t ∧ b.IsWithin t

/-- Whether a bound is an integer beyond the doubles. -/
def IsBeyond (b : Number) : Prop := ∃ n, b = .integer n ∧ doubleReach ≤ n.natAbs

/-- Whether a type admits a bound only because it is rounded. -/
def RoundsInto (b : Number) (t : ValueType) : Prop := ¬ b.Fits t ∧ (b.under t).Fits t

end Number

/-- The fault of a single bound and its kind, where the bound is at fault. -/
inductive BoundFault (label : String) (t : ValueType) (limit : LimitName) (b : Number) :
    FaultKind → ParameterFault → Prop
  | notInteger (h : ¬ b.IsOfKind t) :
    BoundFault label t limit b .type (.boundNotInteger t label limit)
  | outside (hkind : b.IsOfKind t) (h : ¬ b.IsWithin t) :
    BoundFault label t limit b .value (.boundOutside t label limit)

/-- The fault of a pair of bounds and its kind, where one is at fault: the least bound comes before
the greatest, and both come before their order. -/
inductive FirstFault (label : String) (t : ValueType) (least greatest : Number) :
    FaultKind → ParameterFault → Prop
  | least {kind : FaultKind} {f : ParameterFault} (h : BoundFault label t .least least kind f) :
    FirstFault label t least greatest kind f
  | greatest {kind : FaultKind} {f : ParameterFault} (hl : least.Fits t)
      (h : BoundFault label t .greatest greatest kind f) : FirstFault label t least greatest kind f
  | crossed (hl : least.Fits t) (hg : greatest.Fits t) (h : least.le greatest = false) :
    FirstFault label t least greatest .value (.boundsCrossed label)

/-- Whether declaring a pair of bounds comes to an integer beyond the doubles. -/
def ReachesBeyond (t : ValueType) (least greatest : Number) : Prop :=
  least.IsBeyond ∨ (least.under t).Fits t ∧ greatest.IsBeyond

/-- Whether the first fault of a pair of bounds is none once the bounds are rounded. -/
inductive RoundsAway (t : ValueType) (least greatest : Number) : Prop
  | least (h : least.RoundsInto t)
  | greatest (hl : least.Fits t) (h : greatest.RoundsInto t)
  | crossed (hl : least.Fits t) (hg : greatest.Fits t) (h : least.le greatest = false)
      (hle : (least.under t).le (greatest.under t) = true)

/-! ### The full range of doubles -/

/-- The largest double lies within the reach of the doubles. -/
theorem units_largest_lt : units (overflowPattern - 1) < unitsPerOne * doubleReach := by
  have htop := units_top
  have hnext : units (overflowPattern - 1) < units overflowPattern :=
    units_lt_units (by decide)
  omega

namespace Double

/-- The full range of doubles holds the finite ones. -/
theorem isFinite_iff_isWithin {x : Double} :
    x.isFinite = true ↔ (Number.double x).IsWithin .double := by
  show x.isFinite = true ↔ ∃ lower upper,
    some (Number.double largest.negated, Number.double largest) = some (lower, upper) ∧ _
  constructor
  · intro h
    refine ⟨_, _, rfl, ?_⟩
    cases x with
    | nan => cases h
    | infinite negative => cases h
    | finite negative pattern =>
      have hle : units pattern ≤ units (overflowPattern - 1) :=
        units_le_units (Nat.le_sub_one_of_lt pattern.isLt)
      simp only [Number.le, Number.place?, place?, largest, negated, Place.le, signedUnits,
        decide_eq_true_eq]
      cases negative <;> simp <;> omega
  · rintro ⟨lower, upper, hrange, hl, hu⟩
    cases hrange
    cases x with
    | nan => cases hl
    | infinite negative => cases negative <;> simp_all [Number.le, Number.place?, place?, largest,
        negated, Place.le]
    | finite negative pattern => rfl

end Double

namespace Number

variable {b : Number} {t : ValueType}

theorem isBeyond_integer_iff {n : Int} : (integer n).IsBeyond ↔ doubleReach ≤ n.natAbs := by
  constructor
  · rintro ⟨m, hm, h⟩
    cases hm
    exact h
  · exact fun h => ⟨n, rfl, h⟩

theorem not_isBeyond_double (x : Double) : ¬ (double x).IsBeyond := by
  rintro ⟨n, hn, -⟩
  cases hn

/-- The types of integers do not change a bound. -/
theorem under_of_integral {lower upper : Int}
    (h : t.range? = some (.integer lower, .integer upper)) (b : Number) : b.under t = b := by
  cases t with
  | double => cases h
  | string | integer | long | boolean => rfl

theorem isOfKind_under_iff : (b.under t).IsOfKind t ↔ b.IsOfKind t := by
  cases t with
  | double => exact iff_of_true (.inl rfl) (.inl rfl)
  | string | integer | long | boolean => rfl

/-- An integer beyond the doubles is not rounded. -/
theorem under_of_isBeyond (h : b.IsBeyond) : b.under t = b := by
  obtain ⟨n, rfl, hfar⟩ := h
  cases t with
  | double => simp only [under, Double.ofInt?_eq_none_iff.mpr hfar, Option.elim_none]
  | string | integer | long | boolean => rfl

/-- Any other bound counts as the double that it is taken for. -/
theorem exists_takenFor (h : ¬ b.IsBeyond) : ∃ x, TakenFor b x ∧ b.under .double = .double x := by
  cases b with
  | double x => exact ⟨x, .double x, rfl⟩
  | integer n =>
    rw [isBeyond_integer_iff, Nat.not_le, ← Double.exists_ofInt?_iff] at h
    obtain ⟨x, hx⟩ := h
    exact ⟨x, .integer hx, by simp only [under, hx, Option.elim_some]⟩

theorem fits_integer_iff {lower upper n : Int}
    (h : t.range? = some (.integer lower, .integer upper)) :
    (integer n).Fits t ↔ lower ≤ n ∧ n ≤ upper := by
  unfold Fits IsWithin
  rw [h]
  constructor
  · rintro ⟨-, l, u, hrange, hl, hu⟩
    cases hrange
    exact ⟨by simpa [le_integer] using hl, by simpa [le_integer] using hu⟩
  · rintro ⟨hl, hu⟩
    exact ⟨.inr ⟨n, rfl⟩, _, _, rfl, by simpa [le_integer] using hl,
      by simpa [le_integer] using hu⟩

/-- An integer beyond the doubles is admitted by no type. -/
theorem not_fits_of_isBeyond (h : b.IsBeyond) : ¬ b.Fits t := by
  obtain ⟨n, rfl, hfar⟩ := h
  intro hfits
  have hreach : 2 ^ 63 < doubleReach := by decide +kernel
  cases t with
  | string | boolean =>
    obtain ⟨-, lower, upper, hrange, -⟩ := hfits
    cases hrange
  | integer | long =>
    have hin := (fits_integer_iff rfl).mp hfits
    simp only [integerLeast, integerGreatest, longLeast, longGreatest] at hin
    omega
  | double =>
    -- what is beyond the reach of rounding is beyond the largest double, too
    obtain ⟨-, lower, upper, hrange, hl, hu⟩ := hfits
    cases hrange
    have hlargest := units_largest_lt
    have hfar' : unitsPerOne * doubleReach ≤ unitsPerOne * n.natAbs := Nat.mul_le_mul_left _ hfar
    have habs : ((unitsPerOne : Int) * n).natAbs = unitsPerOne * n.natAbs := by
      rw [Int.natAbs_mul, Int.natAbs_natCast]
    simp only [le, place?, Double.place?, Double.largest, Double.negated, Place.le,
      Double.signedUnits, decide_eq_true_eq] at hl hu
    simp only [Bool.not_false, if_true, Bool.false_eq_true, if_false] at hl hu
    omega

/-- The bounds of the full range are admitted. -/
theorem fits_range {lower upper : Number} (h : t.range? = some (lower, upper)) :
    lower.Fits t ∧ upper.Fits t := by
  cases t with
  | string | boolean => cases h
  | integer | long =>
    cases h
    exact ⟨(fits_integer_iff rfl).mpr (by decide), (fits_integer_iff rfl).mpr (by decide)⟩
  | double =>
    cases h
    exact ⟨⟨.inl rfl, Double.isFinite_iff_isWithin.mp rfl⟩,
      ⟨.inl rfl, Double.isFinite_iff_isWithin.mp rfl⟩⟩

/-- A bound that is not given is admitted. -/
theorem fits_getD_iff {given : Option Number} {usual : Number} (h : usual.Fits t) :
    (given.getD usual).Fits t ↔ ∀ b, given = some b → b.Fits t := by
  cases given with
  | none => exact iff_of_true h nofun
  | some b => simp

end Number

/-! ## Rounding bounds -/

namespace Number

variable {b least greatest : Number} {t : ValueType}

/-- A bound that a type admits still fits when it is rounded. -/
theorem Fits.under (h : b.Fits t) : (b.under t).Fits t := by
  cases t with
  | double =>
    obtain ⟨x, htaken, hx⟩ := exists_takenFor fun hfar => not_fits_of_isBeyond hfar h
    refine ⟨.inl rfl, ?_⟩
    rw [hx, ← Double.isFinite_iff_isWithin]
    cases htaken with
    | double => exact Double.isFinite_iff_isWithin.mpr h.2
    | integer hn => exact Double.isFinite_of_ofInt? hn
  | string | integer | long | boolean => exact h

/-- Bounds in order that a type admits are still in order when they are rounded. -/
theorem under_le_under (hl : least.Fits t) (hg : greatest.Fits t)
    (h : least.le greatest = true) : (least.under t).le (greatest.under t) = true := by
  cases t with
  | double =>
    obtain ⟨x, hx, hleast⟩ := exists_takenFor fun hfar => not_fits_of_isBeyond hfar hl
    obtain ⟨y, hy, hgreatest⟩ := exists_takenFor fun hfar => not_fits_of_isBeyond hfar hg
    rw [hleast, hgreatest]
    exact le_of_takenFor hx hy h
  | string | integer | long | boolean => exact h

end Number

namespace BoundFault

variable {label : String} {t : ValueType} {limit : LimitName} {b : Number}
  {kind kind' : FaultKind} {f f' : ParameterFault}

theorem not_fits (h : BoundFault label t limit b kind f) : ¬ b.Fits t := by
  cases h with
  | notInteger h => exact fun hfits => h hfits.1
  | outside _ h => exact fun hfits => h hfits.2

theorem kind_eq (h : BoundFault label t limit b kind f) : f.kind = kind := by
  cases h <;> rfl

theorem unique (h : BoundFault label t limit b kind f)
    (h' : BoundFault label t limit b kind' f') : f = f' := by
  cases h with
  | notInteger h =>
    cases h' with
    | notInteger _ => rfl
    | outside hkind _ => exact absurd hkind h
  | outside hkind h =>
    cases h' with
    | notInteger h' => exact absurd hkind h'
    | outside _ _ => rfl

/-- A bound that is at fault when it is rounded is at fault as it is given. -/
theorem of_under (h : BoundFault label t limit (b.under t) kind f) :
    BoundFault label t limit b kind f := by
  cases h with
  | notInteger h => exact .notInteger (mt Number.isOfKind_under_iff.mpr h)
  | outside hkind h =>
    have hgiven := Number.isOfKind_under_iff.mp hkind
    exact .outside hgiven fun hin => h (Number.Fits.under ⟨hgiven, hin⟩).2

/-- The converse holds unless it is rounding that brings the bound into the range. -/
theorem under (h : BoundFault label t limit b kind f) (hround : ¬ b.RoundsInto t) :
    BoundFault label t limit (b.under t) kind f := by
  cases h with
  | notInteger h => exact .notInteger (mt Number.isOfKind_under_iff.mp h)
  | outside hkind h =>
    have hrounded := Number.isOfKind_under_iff.mpr hkind
    exact .outside hrounded fun hin => hround ⟨fun hfits => h hfits.2, hrounded, hin⟩

end BoundFault

namespace FirstFault

variable {label : String} {t : ValueType} {least greatest : Number} {kind kind' : FaultKind}
  {f f' : ParameterFault}

theorem kind_eq (h : FirstFault label t least greatest kind f) : f.kind = kind := by
  cases h with
  | least h => exact h.kind_eq
  | greatest _ h => exact h.kind_eq
  | crossed _ _ _ => rfl

/-- One fault decides. -/
theorem unique (h : FirstFault label t least greatest kind f)
    (h' : FirstFault label t least greatest kind' f') : f = f' := by
  cases h with
  | least h =>
    cases h' with
    | least h' => exact h.unique h'
    | greatest hl _ => exact absurd hl h.not_fits
    | crossed hl _ _ => exact absurd hl h.not_fits
  | greatest hl h =>
    cases h' with
    | least h' => exact absurd hl h'.not_fits
    | greatest _ h' => exact h.unique h'
    | crossed _ hg _ => exact absurd hg h.not_fits
  | crossed hl hg h =>
    cases h' with
    | least h' => exact absurd hl h'.not_fits
    | greatest _ h' => exact absurd hg h'.not_fits
    | crossed _ _ _ => rfl

/-- No fault decides where both bounds are admitted and in order. -/
theorem not_in_order (h : FirstFault label t least greatest kind f) :
    ¬ (least.Fits t ∧ greatest.Fits t ∧ least.le greatest = true) := by
  rintro ⟨hl, hg, hle⟩
  cases h with
  | least h => exact h.not_fits hl
  | greatest _ h => exact h.not_fits hg
  | crossed _ _ h => exact Bool.false_ne_true (h.symm.trans hle)

end FirstFault

namespace RoundsAway

variable {label : String} {t : ValueType} {least greatest : Number}

/-- Where rounding removes no first fault, a bound is admitted if it is when it is rounded. -/
theorem least_fits (h : ¬ RoundsAway t least greatest) (hl : (least.under t).Fits t) :
    least.Fits t :=
  Classical.byContradiction fun hnot => h (.least ⟨hnot, hl⟩)

theorem greatest_fits (h : ¬ RoundsAway t least greatest) (hl : least.Fits t)
    (hg : (greatest.under t).Fits t) : greatest.Fits t :=
  Classical.byContradiction fun hnot => h (.greatest hl ⟨hnot, hg⟩)

theorem in_order (h : ¬ RoundsAway t least greatest) (hl : least.Fits t) (hg : greatest.Fits t)
    (hle : (least.under t).le (greatest.under t) = true) : least.le greatest = true := by
  cases hgiven : least.le greatest with
  | true => rfl
  | false => exact absurd (.crossed hl hg hgiven hle) h

/-- Then the bounds are admitted and in order exactly if the rounded ones are. -/
theorem in_order_iff (h : ¬ RoundsAway t least greatest) :
    ((least.under t).Fits t ∧ (greatest.under t).Fits t ∧
        (least.under t).le (greatest.under t) = true) ↔
      least.Fits t ∧ greatest.Fits t ∧ least.le greatest = true := by
  constructor
  · rintro ⟨hl, hg, hle⟩
    have hleast := least_fits h hl
    have hgreatest := greatest_fits h hleast hg
    exact ⟨hleast, hgreatest, in_order h hleast hgreatest hle⟩
  · rintro ⟨hl, hg, hle⟩
    exact ⟨hl.under, hg.under, Number.under_le_under hl hg hle⟩

/-- And the first fault of the rounded bounds is that of the bounds as they are given. -/
theorem firstFault_iff (h : ¬ RoundsAway t least greatest) {kind : FaultKind}
    {f : ParameterFault} :
    FirstFault label t (least.under t) (greatest.under t) kind f ↔
      FirstFault label t least greatest kind f := by
  constructor
  · intro hfault
    cases hfault with
    | least hb => exact .least hb.of_under
    | greatest hl hb => exact .greatest (least_fits h hl) hb.of_under
    | crossed hl hg hle =>
      have hleast := least_fits h hl
      have hgreatest := greatest_fits h hleast hg
      refine .crossed hleast hgreatest (Bool.eq_false_iff.mpr fun hgiven => ?_)
      exact Bool.false_ne_true
        (hle.symm.trans (Number.under_le_under hleast hgreatest hgiven))
  · intro hfault
    cases hfault with
    | least hb => exact .least (hb.under fun hround => h (.least hround))
    | greatest hl hb => exact .greatest hl.under (hb.under fun hround => h (.greatest hl hround))
    | crossed hl hg hle =>
      refine .crossed hl.under hg.under (Bool.eq_false_iff.mpr fun hround => ?_)
      exact h (.crossed hl hg hle hround)

/-- What is removed by rounding is a first fault, and none of the rounded bounds. -/
theorem exists_fault (h : RoundsAway t least greatest) (label : String) :
    ∃ f, FirstFault label t least greatest f.kind f ∧
      ∀ kind, ¬ FirstFault label t (least.under t) (greatest.under t) kind f := by
  cases h with
  | least h =>
    have hkind := Number.isOfKind_under_iff.mp h.2.1
    refine ⟨.boundOutside t label .least, .least (.outside hkind fun hin => h.1 ⟨hkind, hin⟩), ?_⟩
    intro kind hfault
    cases hfault with
    | least hb => exact hb.not_fits h.2
    | greatest _ hb => cases hb
  | greatest hl h =>
    have hkind := Number.isOfKind_under_iff.mp h.2.1
    refine ⟨.boundOutside t label .greatest,
      .greatest hl (.outside hkind fun hin => h.1 ⟨hkind, hin⟩), ?_⟩
    intro kind hfault
    cases hfault with
    | least hb => exact hb.not_fits hl.under
    | greatest _ hb => exact hb.not_fits h.2
  | crossed hl hg h hle =>
    refine ⟨.boundsCrossed label, .crossed hl hg h, ?_⟩
    intro kind hfault
    exact hfault.not_in_order ⟨hl.under, hg.under, hle⟩

end RoundsAway

end CommandTree
