import CommandTree.Decimal.Layout
import CommandTree.Proofs.Decimal.Nearest
import CommandTree.Proofs.Decimal.Written

/-!
# What is written can be read

The text of an integer writes that integer, and the text of a finite double writes a decimal that
the double is nearest to. So both can be read again, with nothing lost: an integer unless it has too
many digits, and a double always.

* `writesInteger_integerText`: the text of an integer writes it
* `DecimalNumeral.value_of_holds`: a decimal in the interval of a place is read as the double there
* `Double.exists_writesDecimal_text`: the text of a finite double is read as that double
-/

namespace CommandTree

open Text

/-! ## Integers -/

theorem digitValue?_natDigitChar {value : Nat} (h : value < 10) :
    digitValue? value.digitChar = some value := by
  have hall : ∀ v ∈ List.range 10, digitValue? v.digitChar = some v := by decide
  exact hall value (List.mem_range.mpr h)

/-- The digits of a number write that number. -/
theorem exists_areDigits_toDigits (n : Nat) :
    ∃ values, AreDigits (Nat.toDigits 10 n) values ∧ digitsValue values = n := by
  induction n using Nat.strongRecOn with
  | ind n ih =>
    rw [Nat.toDigits_eq_if (by decide)]
    split
    · next hsmall =>
      exact ⟨[n], areDigits_cons.mpr ⟨digitValue?_natDigitChar hsmall, rfl⟩, Nat.zero_add n⟩
    · obtain ⟨values, hvalues, hvalue⟩ := ih (n / 10) (by omega)
      have hlast : AreDigits [(n % 10).digitChar] [n % 10] :=
        areDigits_cons.mpr ⟨digitValue?_natDigitChar (Nat.mod_lt n (by decide)), rfl⟩
      refine ⟨values ++ [n % 10], areDigits_append hvalues hlast, ?_⟩
      rw [digitsValue_append, hvalue]
      show n / 10 * 10 + (0 + n % 10) = n
      omega

theorem AreDigits.ne_nil {n : Nat} {values : List Nat} (h : AreDigits (Nat.toDigits 10 n) values) :
    values ≠ [] := by
  rintro rfl
  have hnone : (Nat.toDigits 10 n).map digitValue? = [] := h
  exact Nat.toDigits_ne_nil (List.map_eq_nil_iff.mp hnone)

/-- The text of an integer writes it, with a sign only if it is below zero. -/
theorem writesInteger_integerText (n : Int) :
    ∃ numeral, WritesInteger (integerText n).toList numeral ∧ numeral.value = n ∧
      numeral.digits.length = (Nat.toDigits 10 n.natAbs).length := by
  obtain ⟨values, hvalues, hvalue⟩ := exists_areDigits_toDigits n.natAbs
  unfold integerText
  rw [Nat.repr_eq_ofList_toDigits]
  split
  · next hneg =>
    refine ⟨⟨true, values⟩, ⟨['-'], _, ?_, .minus, hvalues, hvalues.ne_nil⟩, ?_, hvalues.length_eq⟩
    · rw [String.toList_append, String.toList_ofList, String.toList_ofList]
    · rw [IntegerNumeral.value, if_pos rfl, hvalue, Int.ofNat_natAbs_of_nonpos (by omega),
        Int.neg_neg]
  · next hneg =>
    refine ⟨⟨false, values⟩, ⟨[], _, ?_, .none, hvalues, hvalues.ne_nil⟩, ?_, hvalues.length_eq⟩
    · rw [String.toList_ofList]
      rfl
    · rw [IntegerNumeral.value, if_neg Bool.false_ne_true, hvalue, Int.natAbs_of_nonneg (by omega)]

/-- The text of an integer that can be written has few enough digits to be read. -/
theorem length_toDigits_le {n : Int} (h : isWritableInteger n = true) :
    (Nat.toDigits 10 n.natAbs).length ≤ digitLimit :=
  have hle : ∀ k, 0 < k → n.natAbs < powerOfTen k → (Nat.toDigits 10 n.natAbs).length ≤ k :=
    fun _ hk hlt => (Nat.length_toDigits_le_iff (by decide) hk).mpr hlt
  hle digitLimit (by decide) (of_decide_eq_true h)

/-! ## Decimals around a point -/

/-- Whether a written decimal stands for a number of the power of ten, perhaps with some zeros
behind the digits of the number. -/
def DecimalNumeral.StandsFor (numeral : DecimalNumeral) (significand : Nat) (exponent : Int) :
    Prop :=
  ∃ zeros : Nat,
    digitsValue (numeral.whole ++ numeral.fraction) = significand * powerOfTen zeros ∧
      numeral.exponent - numeral.fraction.length + zeros = exponent

section Layout

variable {digits : List Char} {values : List Nat}

theorem areDigits_take (h : AreDigits digits values) (n : Nat) :
    AreDigits (digits.take n) (values.take n) := by
  unfold AreDigits at *
  rw [List.map_take, h, List.map_take]

theorem areDigits_drop (h : AreDigits digits values) (n : Nat) :
    AreDigits (digits.drop n) (values.drop n) := by
  unfold AreDigits at *
  rw [List.map_drop, h, List.map_drop]

/-- Digits with a point write what the digits write, moved to where the point stands. -/
theorem writesMantissa_positionalText (h : AreDigits digits values) (hne : values ≠ [])
    (point : Int) :
    ∃ whole fraction, WritesMantissa (positionalText digits point) whole fraction ∧
      ∀ negative, DecimalNumeral.StandsFor ⟨negative, whole, fraction, 0⟩ (digitsValue values)
        (point - values.length) := by
  have hzero : digitValue? '0' = some 0 := rfl
  have hlength := h.length_eq
  have hpos : 0 < values.length := List.length_pos_iff.mpr hne
  unfold positionalText
  dsimp only
  rcases Int.lt_or_le 0 point with hpoint | hpoint
  · have hwhole : wholePart digits point
        = digits.take point.toNat ++ List.replicate (point.toNat - digits.length) '0' :=
      if_neg (by omega)
    have hfraction : fractionPart digits point = digits.drop point.toNat := if_neg (by omega)
    rw [hwhole, hfraction]
    have htake := areDigits_append (areDigits_take h point.toNat)
      (areDigits_replicate hzero (point.toNat - digits.length))
    rcases Nat.lt_or_ge point.toNat digits.length with hinside | houtside
    · -- the point stands between two digits
      rw [if_neg (by simpa using hinside)]
      refine ⟨_, _, .point htake (areDigits_drop h point.toNat) ?_, fun negative => ⟨0, ?_, ?_⟩⟩
      · simp only [ne_eq, List.append_eq_nil_iff, List.drop_eq_nil_iff]
        omega
      · rw [Nat.sub_eq_zero_of_le (Nat.le_of_lt hinside), List.replicate_zero, List.append_nil,
          List.take_append_drop]
        exact (Nat.mul_one _).symm
      · simp only [List.length_drop]
        omega
    · -- it stands behind all digits, and a zero is written behind it
      rw [if_pos (by simpa using houtside)]
      have hlast : AreDigits ['0'] [0] := areDigits_cons.mpr ⟨hzero, rfl⟩
      refine ⟨_, _, .point htake hlast (by simp), fun negative =>
        ⟨point.toNat - digits.length + 1, ?_, ?_⟩⟩
      · rw [List.take_of_length_le (by omega), List.append_assoc, ← List.replicate_succ',
          digitsValue_append, List.length_replicate]
        have hzeros := digitsValue_zeros (point.toNat - digits.length + 1) []
        rw [List.append_nil] at hzeros
        rw [hzeros]
        rfl
      · simp only [List.length_singleton]
        omega
  · -- the point stands before all digits
    have hwhole : wholePart digits point = ['0'] := if_pos hpoint
    have hfraction : fractionPart digits point
        = List.replicate (-point).toNat '0' ++ digits := if_pos hpoint
    have hfilled : (List.replicate (-point).toNat '0' ++ digits).isEmpty = false := by
      rw [List.isEmpty_eq_false_iff, ne_eq, List.append_eq_nil_iff, not_and]
      rintro - rfl
      exact hne (List.length_eq_zero_iff.mp hlength)
    rw [hwhole, hfraction, hfilled, if_neg Bool.false_ne_true]
    have hfirst : AreDigits ['0'] [0] := areDigits_cons.mpr ⟨hzero, rfl⟩
    refine ⟨_, _, .point hfirst (areDigits_append (areDigits_replicate hzero _) h) (by simp),
      fun negative => ⟨0, ?_, ?_⟩⟩
    · have hzeros := digitsValue_zeros ((-point).toNat + 1) values
      rw [List.replicate_succ, List.cons_append] at hzeros
      exact hzeros.trans (Nat.mul_one _).symm
    · simp only [List.length_append, List.length_replicate]
      omega

/-- A written exponent is the exponent. -/
theorem writesExponent_exponentText (exponent : Int) :
    WritesExponent ('e' :: exponentText exponent) exponent := by
  obtain ⟨values, hvalues, hvalue⟩ := exists_areDigits_toDigits exponent.natAbs
  have hpadded := areDigits_append
    (areDigits_replicate (show digitValue? '0' = some 0 from rfl)
      (2 - (Nat.toDigits 10 exponent.natAbs).length)) hvalues
  have hpaddedValue := digitsValue_zeros (2 - (Nat.toDigits 10 exponent.natAbs).length) values
  have hne : List.replicate (2 - (Nat.toDigits 10 exponent.natAbs).length) 0 ++ values ≠ [] :=
    List.append_ne_nil_of_right_ne_nil _ hvalues.ne_nil
  generalize List.replicate (2 - (Nat.toDigits 10 exponent.natAbs).length) 0 ++ values = padded
    at *
  unfold exponentText
  dsimp only
  by_cases hneg : exponent < 0
  · rw [if_pos hneg]
    have hsigned : WritesInteger _ ⟨true, padded⟩ := ⟨['-'], _, rfl, .minus, hpadded, hne⟩
    have hwritten := WritesExponent.written (.inl rfl) hsigned
    rwa [IntegerNumeral.value, if_pos rfl, hpaddedValue, hvalue,
      Int.ofNat_natAbs_of_nonpos (by omega), Int.neg_neg] at hwritten
  · rw [if_neg hneg]
    have hsigned : WritesInteger _ ⟨false, padded⟩ := ⟨['+'], _, rfl, .plus, hpadded, hne⟩
    have hwritten := WritesExponent.written (.inl rfl) hsigned
    rwa [IntegerNumeral.value, if_neg Bool.false_ne_true, hpaddedValue, hvalue,
      Int.natAbs_of_nonneg (by omega)] at hwritten

/-- Digits with an exponent write what the digits write, moved to that place. -/
theorem exists_writes_scientificText (h : AreDigits digits values) (hne : values ≠ [])
    (exponent : Int) :
    ∃ mantissa tail whole fraction, scientificText digits exponent = mantissa ++ tail ∧
      WritesMantissa mantissa whole fraction ∧ WritesExponent tail exponent ∧
        ∀ negative, DecimalNumeral.StandsFor ⟨negative, whole, fraction, exponent⟩
          (digitsValue values) (exponent + 1 - values.length) := by
  have htail := writesExponent_exponentText exponent
  rcases h.cases with ⟨-, rfl⟩ | ⟨c, ds, value, others, rfl, rfl, hc, hds⟩
  · exact absurd rfl hne
  have hfirst : AreDigits [c] [value] := areDigits_cons.mpr ⟨hc, rfl⟩
  cases ds with
  | nil =>
    rcases hds.cases with ⟨-, rfl⟩ | ⟨_, _, _, _, hnil, -⟩
    · refine ⟨[c], _, [value], [], rfl, .whole hfirst (by simp), htail, fun negative => ⟨0, ?_, ?_⟩⟩
      · exact (Nat.mul_one _).symm
      · simp
    · cases hnil
  | cons d ds =>
    refine ⟨[c] ++ '.' :: d :: ds, _, [value], others, rfl, .point hfirst hds (by simp), htail,
      fun negative => ⟨0, ?_, ?_⟩⟩
    · exact (Nat.mul_one _).symm
    · simp only [List.length_cons]
      omega

end Layout

/-- The text of a magnitude writes its shortest decimal. -/
theorem exists_writes_magnitudeText {pattern : Nat} (h : pattern ≠ 0) :
    ∃ mantissa tail whole fraction exponent, magnitudeText pattern = mantissa ++ tail ∧
      WritesMantissa mantissa whole fraction ∧ WritesExponent tail exponent ∧
        ∀ negative, DecimalNumeral.StandsFor ⟨negative, whole, fraction, exponent⟩
          (shortestDecimal pattern).1 (shortestDecimal pattern).2 := by
  obtain ⟨values, hvalues, hvalue⟩ := exists_areDigits_toDigits (shortestDecimal pattern).1
  have hlength := hvalues.length_eq
  unfold magnitudeText
  rw [if_neg h]
  generalize shortestDecimal pattern = found at *
  obtain ⟨significand, power⟩ := found
  dsimp only at *
  subst hvalue
  split
  · obtain ⟨whole, fraction, hmantissa, hstands⟩ := writesMantissa_positionalText hvalues
      hvalues.ne_nil ((Nat.toDigits 10 (digitsValue values)).length + power)
    have hpower : (Nat.toDigits 10 (digitsValue values)).length + power - values.length
        = power := by
      omega
    rw [hpower] at hstands
    exact ⟨_, [], whole, fraction, 0, (List.append_nil _).symm, hmantissa, .none, hstands⟩
  · obtain ⟨mantissa, tail, whole, fraction, htext, hmantissa, htail, hstands⟩ :=
      exists_writes_scientificText hvalues hvalues.ne_nil
        ((Nat.toDigits 10 (digitsValue values)).length + power - 1)
    have hpower : (Nat.toDigits 10 (digitsValue values)).length + power - 1 + 1 - values.length
        = power := by
      omega
    rw [hpower] at hstands
    exact ⟨mantissa, tail, whole, fraction, _, htext, hmantissa, htail, hstands⟩

/-! ## Decimals in an interval -/

/-- Zeros in front do not count. -/
theorem digitsValue_dropWhile (values : List Nat) :
    digitsValue (values.dropWhile (· == 0)) = digitsValue values := by
  induction values with
  | nil => rfl
  | cons value values ih =>
    cases value with
    | zero => rw [List.dropWhile_cons_of_pos rfl, ih, digitsValue_cons, Nat.zero_mul, Nat.zero_add]
    | succ first => rw [List.dropWhile_cons_of_neg (by simp)]

/-- Without the zeros in front, digits write a number of as many digits. -/
theorem digitsValue_bounds {values : List Nat} (h : ∀ value ∈ values, value < 10)
    (hne : digitsValue values ≠ 0) :
    0 < (values.dropWhile (· == 0)).length ∧
      powerOfTen ((values.dropWhile (· == 0)).length - 1) ≤ digitsValue values ∧
      digitsValue values < powerOfTen (values.dropWhile (· == 0)).length := by
  induction values with
  | nil => exact absurd rfl hne
  | cons value values ih =>
    cases value with
    | zero =>
      have hzero : digitsValue (0 :: values) = digitsValue values := by
        rw [digitsValue_cons, Nat.zero_mul, Nat.zero_add]
      rw [hzero] at hne ⊢
      exact ih (fun v hv => h v (List.mem_cons_of_mem _ hv)) hne
    | succ first =>
      rw [List.dropWhile_cons_of_neg (by simp)]
      refine ⟨Nat.succ_pos _, ?_, digitsValue_lt h⟩
      rw [digitsValue_cons, List.length_cons, Nat.add_sub_cancel]
      exact Nat.le_trans (Nat.le_mul_of_pos_left _ (Nat.succ_pos first)) (Nat.le_add_right _ _)

/-- What the interval of a place holds is not too small and not too large to be computed with. -/
theorem RoundingInterval.bounds_of_holds {p value : Nat} (hp : 0 < p) (hover : p < overflowPattern)
    (h : (ofPattern p).holds value = true) : powerOfTen 743 < value ∧ value < powerOfTen 1383 := by
  obtain ⟨hlow, hhigh⟩ := two_mul_le_of_holds h
  have hfirst : units 0 < units p := units_lt_units hp
  have hlast : units p ≤ units (overflowPattern - 1) := units_le_units (Nat.le_sub_one_of_lt hover)
  have hnext : units (p + 1) ≤ units overflowPattern := units_le_units hover
  have htop := units_top
  have hsmall : 2 * powerOfTen 743 < fineUnits := by decide +kernel
  have hlarge : unitsPerOne * doubleReach * fineUnits < powerOfTen 1383 := by decide +kernel
  have hleast : 1 * fineUnits ≤ (ofPattern p).twiceLow := Nat.mul_le_mul_right _ (by omega)
  have hmost : (ofPattern p).twiceHigh ≤ 2 * (unitsPerOne * doubleReach) * fineUnits :=
    Nat.mul_le_mul_right _ (by omega)
  rw [Nat.mul_assoc] at hmost
  omega

namespace DecimalNumeral

variable {numeral : DecimalNumeral} {significand power : Nat}

/-- **A decimal in the interval of a place is read as the double there.** -/
theorem value_of_holds {p : Fin overflowPattern} (hp : 0 < p.val)
    (hdigits : ∀ value ∈ numeral.whole ++ numeral.fraction, value < 10)
    (hstands : numeral.StandsFor significand ((power : Int) - 1074))
    (h : (RoundingInterval.ofPattern p).holds (significand * powerOfTen power) = true) :
    numeral.value = .finite numeral.negative p := by
  obtain ⟨zeros, hvalue, hexponent⟩ := hstands
  obtain ⟨hsmall, hlarge⟩ := RoundingInterval.bounds_of_holds hp p.isLt h
  have hnearest : ∀ num den, 0 < den →
      num * powerOfTen 1074 = significand * powerOfTen power * den →
      Double.ofRatio numeral.negative num den = .finite numeral.negative p := by
    intro num den hden hratio
    rw [Double.ofRatio, nearestPattern_of_holds hp hden hratio h, Double.ofPattern_finite]
  -- the digits write the value that the interval holds, with zeros behind it
  have hscaled : digitsValue (numeral.whole ++ numeral.fraction) * powerOfTen power
      = significand * powerOfTen power * powerOfTen zeros := by
    rw [hvalue, Nat.mul_right_comm]
  have hne : digitsValue (numeral.whole ++ numeral.fraction) ≠ 0 := by
    intro hzero
    rw [hzero, Nat.zero_mul] at hscaled
    have hpos := Nat.mul_pos (Nat.zero_lt_of_lt hsmall) (powerOfTen_pos zeros)
    omega
  obtain ⟨hlength, hleast, hmost⟩ := digitsValue_bounds hdigits hne
  have hsame := digitsValue_dropWhile (numeral.whole ++ numeral.fraction)
  unfold value
  dsimp only
  generalize (numeral.whole ++ numeral.fraction).dropWhile (· == 0) = digits at *
  generalize digitsValue (numeral.whole ++ numeral.fraction) = total at *
  generalize numeral.exponent - numeral.fraction.length = shift at *
  have hnotSmall : ¬ digits.length + shift < -330 := by
    intro hmagnitude
    have hle := powerOfTen_le (show digits.length + power ≤ 743 + zeros by omega)
    rw [powerOfTen_add, powerOfTen_add] at hle
    have hlt := Nat.mul_lt_mul_of_pos_right hmost (powerOfTen_pos power)
    rw [hscaled] at hlt
    exact Nat.lt_asymm hsmall (Nat.lt_of_mul_lt_mul_right (Nat.lt_of_lt_of_le hlt hle))
  have hnotLarge : ¬ 310 < digits.length + shift := by
    intro hmagnitude
    have hle := powerOfTen_le (show 1383 + zeros ≤ digits.length - 1 + power by omega)
    rw [powerOfTen_add, powerOfTen_add] at hle
    have hge := Nat.mul_le_mul_right (powerOfTen power) hleast
    rw [hscaled] at hge
    exact Nat.not_le_of_lt hlarge
      (Nat.le_of_mul_le_mul_right (Nat.le_trans hle hge) (powerOfTen_pos zeros))
  have hfilled : digits.isEmpty = false :=
    List.isEmpty_eq_false_iff.mpr (List.ne_nil_of_length_pos hlength)
  rw [hfilled, Bool.false_or, decide_eq_false hnotSmall, if_neg Bool.false_ne_true,
    if_neg hnotLarge, hsame]
  split
  · next hge =>
    refine hnearest _ _ Nat.one_pos ?_
    rw [hvalue, Nat.mul_one, Nat.mul_assoc, Nat.mul_assoc, ← powerOfTen_add, ← powerOfTen_add,
      show zeros + (shift.toNat + 1074) = power by omega]
  · next hlt =>
    refine hnearest _ _ (powerOfTen_pos _) ?_
    rw [hvalue, Nat.mul_assoc, Nat.mul_assoc, ← powerOfTen_add, ← powerOfTen_add,
      show zeros + 1074 = power + (-shift).toNat by omega]

end DecimalNumeral

/-! ## Doubles -/

theorem WritesMantissa.lt {cs : List Char} {whole fraction : List Nat}
    (h : WritesMantissa cs whole fraction) : ∀ value ∈ whole ++ fraction, value < 10 := by
  cases h with
  | whole h _ =>
    rw [List.append_nil]
    exact h.lt
  | point hc hd _ => exact (areDigits_append hc hd).lt

/-- The shortest decimal of a magnitude lies in the interval of its place. -/
theorem exists_shortestDecimal_eq {pattern : Nat} (h : 0 < pattern) :
    ∃ significand power : Nat, shortestDecimal pattern = (significand, (power : Int) - 1074) ∧
      (RoundingInterval.ofPattern pattern).holds (significand * powerOfTen power) = true :=
  ⟨_, _, rfl, RoundingInterval.holds_search (RoundingInterval.holds_self h) _⟩

/-- The text of a magnitude, behind any sign, is read as the double of the sign and magnitude. -/
theorem exists_writesDecimal_magnitudeText {sign : List Char} {negative : Bool}
    (hsign : IsSign sign negative) (pattern : Fin overflowPattern) :
    ∃ numeral, WritesDecimal (sign ++ magnitudeText pattern) numeral ∧
      numeral.value = .finite negative pattern := by
  by_cases hzero : pattern.val = 0
  · have hdigit : AreDigits ['0'] [0] := areDigits_cons.mpr ⟨rfl, rfl⟩
    have htext : magnitudeText pattern = ['0'] ++ '.' :: ['0'] := if_pos hzero
    have hvalue : DecimalNumeral.value ⟨negative, [0], [0], 0⟩ = .ofPattern negative 0 := by
      unfold DecimalNumeral.value
      exact if_pos rfl
    refine ⟨⟨negative, [0], [0], 0⟩,
      ⟨sign, _, [], ?_, hsign, .point hdigit hdigit (by simp), .none⟩, ?_⟩
    · rw [htext, List.append_nil]
    · rw [hvalue, ← Double.ofPattern_finite, hzero]
  · have hpos : 0 < pattern.val := Nat.pos_of_ne_zero hzero
    obtain ⟨mantissa, tail, whole, fraction, exponent, htext, hmantissa, htail, hstands⟩ :=
      exists_writes_magnitudeText hzero
    obtain ⟨significand, power, hshortest, hholds⟩ := exists_shortestDecimal_eq hpos
    rw [hshortest] at hstands
    exact ⟨⟨negative, whole, fraction, exponent⟩,
      ⟨sign, mantissa, tail, by rw [htext], hsign, hmantissa, htail⟩,
      DecimalNumeral.value_of_holds hpos hmantissa.lt (hstands negative) hholds⟩

/-- **The text of a finite double is read as that double.** -/
theorem Double.exists_writesDecimal_text {x : Double} (h : x.isFinite = true) :
    ∃ numeral, WritesDecimal x.text.toList numeral ∧ numeral.value = x := by
  cases x with
  | nan => cases h
  | infinite negative => cases h
  | finite negative pattern =>
    rw [text, String.toList_ofList]
    cases negative with
    | true => exact exists_writesDecimal_magnitudeText .minus pattern
    | false => exact exists_writesDecimal_magnitudeText .none pattern

end CommandTree
