import CommandTree.Proofs.Parameter.Agreement

/-!
# Numbers that are too long to be read or written

An integer of too many digits can be neither read nor written. A token that writes one can be an
integer all the same, and a limit of length can be one: then there is nothing to read the token as,
or no way to say what is wrong with it. A token does not get past its class in any other way.

* `isWritableInteger_of_long`: an integer of 64 bits can be written
* `TokenClass.accept_eq_datum_iff`: the tokens that a class neither reads nor complains about
-/

namespace CommandTree

open Text

/-! ## Integers that can be written -/

/-- An integer of 64 bits has few enough digits to be written. -/
theorem isWritableInteger_of_long {n : Int} (hl : longLeast ≤ n) (hg : n ≤ longGreatest) :
    isWritableInteger n = true := by
  have hbound : n.natAbs < powerOfTen 19 := by
    show n.natAbs < 10 ^ 19
    unfold longLeast at hl
    unfold longGreatest at hg
    omega
  exact decide_eq_true (Nat.lt_of_lt_of_le hbound (powerOfTen_le (by decide)))

/-- The limits of numbers can be written. -/
theorem Domain.isWritable_limits {d : Domain} (hsound : d.Sound) {least greatest : Number}
    (h : d.limits? = some (least, greatest)) :
    least.isWritable = true ∧ greatest.isWritable = true := by
  have hleast : longLeast ≤ integerLeast := by decide
  have hgreatest : integerGreatest ≤ longGreatest := by decide
  cases d with
  | integer l u =>
    cases h
    obtain ⟨hl, hlu, hu⟩ := hsound
    exact ⟨isWritableInteger_of_long (by omega) (by omega),
      isWritableInteger_of_long (by omega) (by omega)⟩
  | long l u =>
    cases h
    obtain ⟨hl, hlu, hu⟩ := hsound
    exact ⟨isWritableInteger_of_long (by omega) (by omega),
      isWritableInteger_of_long (by omega) (by omega)⟩
  | double l u =>
    cases h
    exact ⟨rfl, rfl⟩
  | boolean => cases h
  | string minLength maxLength greedy => cases h

/-! ## Tokens without an answer -/

/-- Whether a token, held against a domain, leads to a number that is too long: one that it writes,
or a limit of length that it does not keep. -/
def Domain.Baffles (d : Domain) (token : String) : Prop :=
  match d with
  | .integer _ _ | .long _ _ =>
    ∃ numeral, IntegerNumeral.ofChars? token.toList = some numeral ∧
      digitLimit < numeral.digits.length
  | .double _ _ | .boolean => False
  | .string minLength maxLength _ => token ≠ "" ∧
      (token.length < minLength ∧ isWritableInteger minLength = false ∨
        minLength ≤ token.length ∧ ∃ m, maxLength = some m ∧ m < token.length ∧
          isWritableInteger m = false)

/-- How many digits are told of a token that leads to a number that is too long: those that it
writes, if it is to be an integer, and none if the number is a limit. -/
def Domain.digitsTold (d : Domain) (token : String) : Option Nat :=
  match d with
  | .integer _ _ | .long _ _ =>
    (IntegerNumeral.ofChars? token.toList).map fun numeral => numeral.digits.length
  | .double _ _ | .boolean | .string _ _ _ => none

/-- Whether the least length of the texts in a domain can be written. -/
def Domain.LengthIsWritable (d : Domain) : Prop :=
  match d with
  | .string minLength _ _ => isWritableInteger minLength = true
  | .integer _ _ | .long _ _ | .double _ _ | .boolean => True

theorem IntegerNumeral.length_digits_le {cs : List Char} {numeral : IntegerNumeral}
    (h : ofChars? cs = some numeral) : numeral.digits.length ≤ cs.length := by
  have hsign : (splitSign cs).2.length ≤ cs.length := by
    unfold splitSign
    split <;> simp
  have hspan := spanDigits_length (splitSign cs).2
  unfold ofChars? at h
  split at h
  · cases h
  · next digits hdigits =>
    cases h
    rw [hdigits] at hspan
    exact Nat.le_trans (Nat.le_of_add_right_le (Nat.le_of_eq hspan)) hsign
  · cases h

/-- A token of ordinary length does not lead to a number that is too long, unless the least length
of texts is one. -/
theorem Domain.not_baffles_of_length_le {d : Domain} {token : String} (hd : d.LengthIsWritable)
    (hlen : token.length ≤ digitLimit) : ¬ d.Baffles token := by
  cases d with
  | integer least greatest | long least greatest =>
    rintro ⟨numeral, hnumeral, hlong⟩
    have hdigits := IntegerNumeral.length_digits_le hnumeral
    rw [String.length_toList] at hdigits
    omega
  | double least greatest | boolean => exact fun h => h
  | string minLength maxLength greedy =>
    rintro ⟨-, ⟨-, hmin⟩ | ⟨-, m, -, hm, hmax⟩⟩
    · rw [show isWritableInteger minLength = true from hd] at hmin
      cases hmin
    · -- a greatest length that is exceeded is a number of few digits
      have hsmall : m < powerOfTen 4 := by
        show m < 10000
        exact Nat.lt_trans (Nat.lt_of_lt_of_le hm hlen) (by decide)
      have hwritable : isWritableInteger m = true :=
        decide_eq_true (Nat.lt_of_lt_of_le hsmall (powerOfTen_le (by decide)))
      rw [hwritable] at hmax
      cases hmax

namespace TokenClass

theorem naming_of_writable {limit : Datum} (h : limit.isWritable = true) (c : Complaint) :
    TokenFault.naming limit c = .complaint c := if_pos h

/-- Where limits can be written, a number outside them can be complained about. -/
theorem checkLimits_ne_datum {noun : String} {least greatest found : Number}
    (hl : least.isWritable = true) (hg : greatest.isWritable = true) (fault : DatumFault) :
    checkLimits noun (.ofNumber least) (.ofNumber greatest) found ≠ .error (.datum fault) := by
  have hofNumber : ∀ n : Number, (Datum.ofNumber n).isWritable = n.isWritable := by
    intro n
    cases n <;> rfl
  rw [checkLimits_ofNumber, naming_of_writable ((hofNumber _).trans hl),
    naming_of_writable ((hofNumber _).trans hg)]
  split
  · simp
  · split <;> simp

theorem then_eq_error_iff {ε α : Type} {check : Except ε Unit} {a : α} {e : ε} :
    (check.bind fun _ => Except.ok a) = .error e ↔ check = .error e := by
  cases check <;> simp [Except.bind]

theorem acceptInteger_eq_datum_iff {noun : String} {least greatest : Int} {token : String}
    {fault : DatumFault} (hl : isWritableInteger least = true)
    (hg : isWritableInteger greatest = true) :
    acceptInteger noun (.integer least) (.integer greatest) token = .error (.datum fault) ↔
      fault = .tooManyDigits ((IntegerNumeral.ofChars? token.toList).map fun numeral =>
          numeral.digits.length) ∧
        ∃ numeral, IntegerNumeral.ofChars? token.toList = some numeral ∧
          digitLimit < numeral.digits.length := by
  unfold acceptInteger
  cases IntegerNumeral.ofChars? token.toList with
  | none => simp
  | some numeral =>
    simp only [Option.some.injEq, exists_eq_left']
    cases hread : numeral.read? with
    | none =>
      have hlong : digitLimit < numeral.digits.length := by
        by_contra hshort
        rw [IntegerNumeral.read?, if_pos (Nat.le_of_not_lt hshort)] at hread
        cases hread
      simp [hlong, eq_comm]
    | some n =>
      have hshort := (IntegerNumeral.read?_eq_some.mp hread).1
      refine iff_of_false (fun h => ?_) fun h => absurd h.2 (Nat.not_lt_of_le hshort)
      exact @checkLimits_ne_datum noun (.integer least) (.integer greatest) (.integer n) hl hg
        fault (then_eq_error_iff.mp h)

theorem acceptDouble_ne_datum {noun : String} {least greatest : Double} {token : String}
    (fault : DatumFault) :
    acceptDouble noun (.double least) (.double greatest) token ≠ .error (.datum fault) := by
  unfold acceptDouble
  cases DecimalNumeral.ofChars? token.toList with
  | none => simp
  | some numeral =>
    intro h
    exact @checkLimits_ne_datum noun (.double least) (.double greatest) (.double numeral.value)
      rfl rfl fault (then_eq_error_iff.mp h)

theorem complainAbout_eq_datum_iff {n : Int} {make : Int → Complaint} {fault : DatumFault} :
    complainAbout (.integer n) (.integer n) make = .error (.datum fault) ↔
      fault = .tooManyDigits none ∧ isWritableInteger n = false := by
  have hcomplain : complainAbout (.integer n) (.integer n) make
      = .error (.naming (.integer n) (make n)) := rfl
  rw [hcomplain, TokenFault.naming, Datum.isWritable]
  cases isWritableInteger n <;> simp [eq_comm]

/-- A length that is not between its limits is complained about, unless the limit is too long. -/
theorem checkLengths_eq_datum_iff {minLength : Nat} {maxLength : Option Nat} {found : Nat}
    {fault : DatumFault} :
    checkLengths (.ofNumber (.integer minLength)) (lengthDatum maxLength) found
        = .error (.datum fault) ↔
      fault = .tooManyDigits none ∧
        (found < minLength ∧ isWritableInteger minLength = false ∨
          minLength ≤ found ∧ ∃ m, maxLength = some m ∧ m < found ∧
            isWritableInteger m = false) := by
  cases maxLength with
  | none =>
    rw [lengthDatum, checkLengths_null, Number.lt_integer]
    by_cases hmin : minLength ≤ found
    · rw [decide_eq_false (by omega), if_neg Bool.false_ne_true]
      simp [Nat.not_lt_of_le hmin]
    · rw [decide_eq_true (by omega), if_pos rfl]
      simp only [hmin, false_and, or_false, Nat.lt_of_not_le hmin, true_and]
      exact complainAbout_eq_datum_iff
  | some m =>
    rw [lengthDatum, checkLengths_ofNumber, Number.lt_integer, Number.lt_integer]
    by_cases hmin : minLength ≤ found
    · rw [decide_eq_false (by omega), if_neg Bool.false_ne_true]
      simp only [Nat.not_lt_of_le hmin, false_and, false_or, hmin, true_and, Option.some.injEq,
        exists_eq_left']
      by_cases hmax : found ≤ m
      · rw [decide_eq_false (by omega), if_neg Bool.false_ne_true]
        simp [Nat.not_lt_of_le hmax]
      · rw [decide_eq_true (by omega), if_pos rfl]
        simp only [Nat.lt_of_not_le hmax, true_and]
        exact complainAbout_eq_datum_iff
    · rw [decide_eq_true (by omega), if_pos rfl]
      simp only [hmin, false_and, or_false, Nat.lt_of_not_le hmin, true_and]
      exact complainAbout_eq_datum_iff

/-- **A class that neither reads a token nor complains about it has come to a number that is too
long.** -/
theorem accept_eq_datum_iff {p : Parameter} {token : String} {fault : DatumFault} :
    (ofDomain p.domain).accept token = .error (.datum fault) ↔
      fault = .tooManyDigits (p.domain.digitsTold token) ∧ p.domain.Baffles token := by
  by_cases hempty : token = ""
  · subst hempty
    rw [accept_empty]
    refine iff_of_false (by simp) fun h => ?_
    cases hd : p.domain with
    | integer least greatest | long least greatest =>
      rw [hd] at h
      obtain ⟨-, numeral, hnumeral, -⟩ := h
      cases hnumeral
    | double least greatest | boolean =>
      rw [hd] at h
      exact h.2
    | string minLength maxLength greedy =>
      rw [hd] at h
      exact h.2.1 rfl
  · have hsound := p.sound
    cases hd : p.domain with
    | integer least greatest =>
      rw [hd] at hsound
      obtain ⟨hl, hg⟩ := Domain.isWritable_limits hsound rfl
      rw [accept_of_ne hempty]
      exact acceptInteger_eq_datum_iff hl hg
    | long least greatest =>
      rw [hd] at hsound
      obtain ⟨hl, hg⟩ := Domain.isWritable_limits hsound rfl
      rw [accept_of_ne hempty]
      exact acceptInteger_eq_datum_iff hl hg
    | double least greatest =>
      rw [accept_of_ne hempty]
      exact iff_of_false (acceptDouble_ne_datum fault) fun h => h.2
    | boolean =>
      rw [accept_of_ne hempty]
      refine iff_of_false (fun h => ?_) fun h => h.2
      dsimp only [ofDomain] at h
      cases htruth : truthValue? token <;> rw [htruth] at h <;> cases h
    | string minLength maxLength greedy =>
      rw [accept_string hempty, acceptText]
      refine then_eq_error_iff.trans ?_
      rw [String.length_toList]
      refine checkLengths_eq_datum_iff.trans (and_congr_right fun _ => ?_)
      rw [Domain.Baffles]
      exact (and_iff_right hempty).symm

end TokenClass

end CommandTree
