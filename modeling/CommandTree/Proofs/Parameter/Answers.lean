import CommandTree.Proofs.Decimal.Reach
import CommandTree.Proofs.Decimal.Written
import CommandTree.Proofs.Parameter.Oversize

/-!
# What binding a raw value leads to

A raw value can be read as a value of a type, or it cannot; what it is read as lies within the
limits of the parameter, or it does not. So there are three answers to a raw value: the value that
it is bound to, the refusal of what cannot be read, and the refusal of what breaks a limit. Binding
gives the answer, unless a number gets in the way that has too many digits or that is too large for
a double: one that has to be read, or one that a refusal would have to name.

* `Parameter.Answers`: the answers
* `Parameter.bind_of_answers`: binding gives the answer
* `Parameter.bind_of_overtaxes`: what happens where a number gets in the way
* `Parameter.bind_answers_iff`: the two together
-/

namespace CommandTree

open Text

/-! ## Reading a raw value -/

/-- What a raw value is read as under a type. Truth values are no numbers, and no number is
anything but a number. -/
inductive Datum.ReadsAs : ValueType → Datum → Scalar → Prop
  | text (s : String) : ReadsAs .string (.string s) (.text s)
  | truth (b : Bool) : ReadsAs .boolean (.boolean b) (.boolean b)
  | writtenTruth {s : String} {b : Bool} (h : lowercase s = if b then "true" else "false") :
    ReadsAs .boolean (.string s) (.boolean b)
  | integer {type : ValueType} (htype : type = .integer ∨ type = .long) (n : Int) :
    ReadsAs type (.integer n) (.integer n)
  | writtenInteger {type : ValueType} (htype : type = .integer ∨ type = .long) {s : String}
      {numeral : IntegerNumeral} (h : WritesInteger s.toList numeral) :
    ReadsAs type (.string s) (.integer numeral.value)
  | double {x : Double} (h : x.isNaN = false) : ReadsAs .double (.double x) (.double x)
  | roundedInteger {n : Int} {x : Double} (h : Double.ofInt? n = some x) :
    ReadsAs .double (.integer n) (.double x)
  | writtenDouble {s : String} {numeral : DecimalNumeral} (h : WritesDecimal s.toList numeral) :
    ReadsAs .double (.string s) (.double numeral.value)

theorem truthValue?_eq_some_iff {s : String} {b : Bool} :
    truthValue? s = some b ↔ lowercase s = if b then "true" else "false" := by
  unfold truthValue?
  have hne : ("true" : String) ≠ "false" := by decide
  by_cases htrue : lowercase s = "true"
  · rw [if_pos htrue, htrue]
    cases b <;> simp [hne]
  · rw [if_neg htrue]
    by_cases hfalse : lowercase s = "false"
    · rw [if_pos hfalse, hfalse]
      cases b <;> simp [hne.symm]
    · rw [if_neg hfalse]
      cases b <;> simp [htrue, hfalse]

namespace Datum

/-- Whether a raw value writes an integer, where one is asked for, with too many digits. -/
def IsLongNumeral (raw : Datum) (type : ValueType) : Prop :=
  (type = .integer ∨ type = .long) ∧ ∃ s numeral, raw = .string s ∧
    WritesInteger s.toList numeral ∧ digitLimit < numeral.digits.length

/-- Whether a raw value is an integer beyond the doubles, where a double is asked for. -/
def IsFarInteger (raw : Datum) (type : ValueType) : Prop :=
  type = .double ∧ ∃ n, raw = .integer n ∧ doubleReach ≤ n.natAbs

end Datum

namespace Parameter

variable {p : Parameter} {raw : Datum} {found : Scalar}

theorem readInteger_of_writes {refusal : Fault} {s : String} {numeral : IntegerNumeral}
    (h : WritesInteger s.toList numeral) :
    readInteger refusal s
      = if numeral.digits.length ≤ digitLimit then .ok numeral.value
        else .error (.datum (.tooManyDigits numeral.digits.length)) := by
  rw [readInteger, IntegerNumeral.ofChars?_eq_some_iff.mpr h]
  dsimp only
  by_cases hlong : numeral.digits.length ≤ digitLimit
  · rw [IntegerNumeral.read?, if_pos hlong, if_pos hlong]
  · rw [IntegerNumeral.read?, if_neg hlong, if_neg hlong]

theorem readInteger_of_not_writes {refusal : Fault} {s : String}
    (h : ∀ numeral, ¬ WritesInteger s.toList numeral) : readInteger refusal s = .error refusal := by
  have hnone : IntegerNumeral.ofChars? s.toList = none := by
    rw [Option.eq_none_iff_forall_ne_some]
    intro numeral hnumeral
    exact h numeral (IntegerNumeral.ofChars?_eq_some_iff.mp hnumeral)
  rw [readInteger, hnone]

/-- A raw value that can be read is read so, if it is no numeral of too many digits. -/
theorem read_of_readsAs (h : raw.ReadsAs p.type found) (hshort : ¬ raw.IsLongNumeral p.type) :
    p.read raw = .ok found := by
  generalize htype : p.type = type at *
  cases h with
  | text s => simp only [read, htype]
  | truth b => simp only [read, htype]
  | writtenTruth h => simp only [read, htype, truthValue?_eq_some_iff.mpr h]
  | integer hintegral n => rcases hintegral with rfl | rfl <;> simp only [read, htype]
  | @writtenInteger _ hintegral s numeral h =>
    have hle : numeral.digits.length ≤ digitLimit :=
      Nat.le_of_not_lt fun hlong => hshort ⟨hintegral, s, numeral, rfl, h, hlong⟩
    rw [read_integral (htype ▸ hintegral), readInteger_of_writes h, if_pos hle]
    rfl
  | double h => simp [read, htype, h]
  | roundedInteger h => simp [read, htype, nearestDouble, h]
  | writtenDouble h => simp only [read, htype, DecimalNumeral.ofChars?_eq_some_iff.mpr h]

theorem read_of_writes_long {s : String} {numeral : IntegerNumeral}
    (hintegral : p.type = .integer ∨ p.type = .long) (hwrites : WritesInteger s.toList numeral)
    (hlong : digitLimit < numeral.digits.length) :
    p.read (.string s) = .error (.datum (.tooManyDigits numeral.digits.length)) := by
  rw [read_integral hintegral, readInteger_of_writes hwrites, if_neg (Nat.not_le_of_lt hlong)]
  rfl

theorem read_of_isLongNumeral (h : raw.IsLongNumeral p.type) :
    ∃ found, p.read raw = .error (.datum (.tooManyDigits found)) := by
  obtain ⟨hintegral, s, numeral, rfl, hwrites, hlong⟩ := h
  exact ⟨_, read_of_writes_long hintegral hwrites hlong⟩

theorem read_of_isFarInteger (h : raw.IsFarInteger p.type) :
    p.read raw = .error (.datum .beyondDouble) := by
  obtain ⟨htype, n, rfl, hfar⟩ := h
  simp [read, htype, nearestDouble, Double.ofInt?_eq_none_iff.mpr hfar]

/-- A raw value that cannot be read is refused, if it is no integer beyond the doubles. -/
theorem read_of_not_readsAs (h : ∀ found, ¬ raw.ReadsAs p.type found)
    (hnear : ¬ raw.IsFarInteger p.type) : p.read raw = .error (p.refusal raw) := by
  have hinteger : ∀ (s : String) (type : ValueType), type = .integer ∨ type = .long →
      (∀ found, ¬ (Datum.string s).ReadsAs type found) →
        Scalar.integer <$> readInteger (p.refusal (.string s)) s
          = .error (p.refusal (.string s)) := by
    intro s type hintegral hno
    rw [readInteger_of_not_writes fun numeral hw => hno _ (.writtenInteger hintegral hw)]
    rfl
  unfold read
  dsimp only
  generalize p.type = type at h hnear ⊢
  -- the ways of reading, in the order in which they are tried
  split
  case h_1 s => exact absurd (.text s) (h _)
  case h_2 b => exact absurd (.truth b) (h _)
  case h_3 s =>
    split
    · next b hb => exact absurd (.writtenTruth (truthValue?_eq_some_iff.mp hb)) (h _)
    · rfl
  case h_4 n => exact absurd (.integer (.inl rfl) n) (h _)
  case h_5 n => exact absurd (.integer (.inr rfl) n) (h _)
  case h_6 s => exact hinteger s _ (.inl rfl) h
  case h_7 s => exact hinteger s _ (.inr rfl) h
  case h_8 n =>
    have hreach : n.natAbs < doubleReach := Nat.lt_of_not_le fun hfar => hnear ⟨rfl, n, rfl, hfar⟩
    obtain ⟨x, hx⟩ := Double.exists_ofInt?_iff.mpr hreach
    exact absurd (.roundedInteger hx) (h _)
  case h_9 x =>
    split
    · rfl
    · next hx => exact absurd (.double (by simpa using hx)) (h _)
  case h_10 s =>
    split
    · next numeral hnumeral =>
      exact absurd (.writtenDouble (DecimalNumeral.ofChars?_eq_some_iff.mp hnumeral)) (h _)
    · rfl
  case h_11 => rfl

/-! ## Holding it against the limits -/

/-- A number that the domain does not hold is outside its limits. -/
theorem check_of_number {n : Number} (hn : found.number? = some n)
    (hout : p.domain.holds found = false) :
    p.check raw found = .error (naming n.isWritable (.outOfLimits p raw n)) := by
  have hlimits : p.checkLimits raw n = .error (naming n.isWritable (.outOfLimits p raw n)) := by
    have hlengths : p.domain.lengths?.all (fun l => found.isOfLength l.1 l.2) = true := by
      cases found with
      | text s => cases hn
      | boolean b => cases hn
      | integer m => cases p.domain.lengths? <;> rfl
      | double x => cases p.domain.lengths? <;> rfl
    rw [Domain.holds, hlengths, Bool.and_true] at hout
    unfold checkLimits
    cases hl : p.domain.limits? with
    | none => simp [hl] at hout
    | some l =>
      rw [hl, Option.all_some, Scalar.isBetween, hn, Option.all_some] at hout
      exact if_neg (by simp [hout])
  cases found <;> cases hn <;> exact hlimits

/-- A text that the domain does not hold has a length outside its limits. -/
theorem check_of_text {s : String} (hout : p.domain.holds (.text s) = false) :
    p.check raw (.text s)
      = .error (naming (p.minLength.isWritable && p.maxLength.isWritable)
          (.wrongLength p raw s.length)) := by
  have hbetween : p.domain.limits?.all (fun l => (Scalar.text s).isBetween l.1 l.2) = true := by
    simp [Scalar.isBetween, Scalar.number?]
  rw [Domain.holds, hbetween, Bool.true_and] at hout
  unfold check checkLengths
  cases hl : p.domain.lengths? with
  | none => simp [hl] at hout
  | some l =>
    rw [hl, Option.all_some, Scalar.isOfLength] at hout
    exact if_neg (by simp [hout])

/-- What the domain does not hold is a number or a text. -/
theorem number_or_text (hout : p.domain.holds found = false) :
    (∃ n, found.number? = some n) ∨ ∃ s, found = .text s := by
  cases found with
  | text s => exact Or.inr ⟨s, rfl⟩
  | integer n => exact Or.inl ⟨_, rfl⟩
  | double x => exact Or.inl ⟨_, rfl⟩
  | boolean b => simp [Domain.holds, Scalar.isBetween, Scalar.number?, Scalar.isOfLength] at hout

/-! ## Answers -/

/-- The answer to a raw value: the value of what it is read as, if that lies within the limits of
the parameter, and else the refusal that is due. -/
inductive Answers (p : Parameter) (raw : Datum) : Except Fault Value → Prop
  | value {found : Scalar} (hread : raw.ReadsAs p.type found)
      (hholds : p.domain.holds found = true) : Answers p raw (.ok (.of p.type found.toDatum))
  | notReadable (hread : ∀ found, ¬ raw.ReadsAs p.type found) :
    Answers p raw (.error (.binding (.notReadable p raw)))
  | outOfLimits {found : Scalar} {n : Number} (hread : raw.ReadsAs p.type found)
      (hn : found.number? = some n) (hout : p.domain.holds found = false) :
    Answers p raw (.error (.binding (.outOfLimits p raw n)))
  | wrongLength {s : String} (hread : raw.ReadsAs p.type (.text s))
      (hout : p.domain.holds (.text s) = false) :
    Answers p raw (.error (.binding (.wrongLength p raw s.length)))

/-- Whether a number gets in the way of an answer: the raw value writes an integer of too many
digits or is one beyond the doubles, or a refusal would have to name a number that cannot be
written. -/
inductive Overtaxes (p : Parameter) (raw : Datum) : Prop
  | longNumeral (h : raw.IsLongNumeral p.type)
  | farInteger (h : raw.IsFarInteger p.type)
  | longRaw (hread : ∀ found, ¬ raw.ReadsAs p.type found) (hlong : raw.isWritable = false)
  | longNumber {found : Scalar} {n : Number} (hread : raw.ReadsAs p.type found)
      (hn : found.number? = some n) (hout : p.domain.holds found = false)
      (hlong : n.isWritable = false)
  | longLimit {s : String} (hread : raw.ReadsAs p.type (.text s))
      (hout : p.domain.holds (.text s) = false)
      (hlong : (p.minLength.isWritable && p.maxLength.isWritable) = false)

theorem exists_answer (p : Parameter) (raw : Datum) : ∃ outcome, p.Answers raw outcome := by
  by_cases hread : ∃ found, raw.ReadsAs p.type found
  · obtain ⟨found, hfound⟩ := hread
    cases hholds : p.domain.holds found with
    | true => exact ⟨_, .value hfound hholds⟩
    | false =>
      rcases number_or_text hholds with ⟨n, hn⟩ | ⟨s, rfl⟩
      · exact ⟨_, .outOfLimits hfound hn hholds⟩
      · exact ⟨_, .wrongLength hfound hholds⟩
  · exact ⟨_, .notReadable fun found hfound => hread ⟨found, hfound⟩⟩

theorem bind_of_read_error {fault : Fault} (h : p.read raw = .error fault) :
    p.bind raw = .error fault := by
  rw [bind, h]
  rfl

theorem bind_of_check_error {fault : Fault} (hread : p.read raw = .ok found)
    (hcheck : p.check raw found = .error fault) : p.bind raw = .error fault := by
  simp only [bind, hread, Bind.bind, Except.bind, hcheck]

/-- Binding gives the answer to a raw value, where no number gets in the way. -/
theorem bind_of_answers {outcome : Except Fault Value} (h : p.Answers raw outcome)
    (hclear : ¬ p.Overtaxes raw) : p.bind raw = outcome := by
  have hshort : ¬ raw.IsLongNumeral p.type := fun hlong => hclear (.longNumeral hlong)
  have hnaming : ∀ {isWritable : Bool} {b : BindingFault}, ¬ isWritable = false →
      naming isWritable b = .binding b := by
    intro isWritable b hw
    exact if_pos (by simpa using hw)
  cases h with
  | value hread hholds =>
    exact bind_eq_ok_iff.mpr ⟨_, read_of_readsAs hread hshort, hholds, rfl⟩
  | notReadable hread =>
    rw [bind_of_read_error (read_of_not_readsAs hread fun hfar => hclear (.farInteger hfar)),
      refusal, hnaming fun hlong => hclear (.longRaw hread hlong)]
  | outOfLimits hread hn hout =>
    rw [bind_of_check_error (read_of_readsAs hread hshort) (check_of_number hn hout),
      hnaming fun hlong => hclear (.longNumber hread hn hout hlong)]
  | wrongLength hread hout =>
    rw [bind_of_check_error (read_of_readsAs hread hshort) (check_of_text hout),
      hnaming fun hlong => hclear (.longLimit hread hout hlong)]

/-- Where a number gets in the way, binding fails for that number. -/
theorem bind_of_overtaxes (h : p.Overtaxes raw) :
    (∃ found, p.bind raw = .error (.datum (.tooManyDigits found))) ∨
      p.bind raw = .error (.datum .beyondDouble) := by
  by_cases hlong : raw.IsLongNumeral p.type
  · obtain ⟨found, hread⟩ := read_of_isLongNumeral hlong
    exact Or.inl ⟨found, bind_of_read_error hread⟩
  by_cases hfar : raw.IsFarInteger p.type
  · exact Or.inr (bind_of_read_error (read_of_isFarInteger hfar))
  -- what is left are numbers that a refusal would have to name
  refine Or.inl ⟨none, ?_⟩
  cases h with
  | longNumeral h => exact absurd h hlong
  | farInteger h => exact absurd h hfar
  | longRaw hread hw =>
    rw [bind_of_read_error (read_of_not_readsAs hread hfar), refusal, hw]
    rfl
  | longNumber hread hn hout hw =>
    rw [bind_of_check_error (read_of_readsAs hread hlong) (check_of_number hn hout), hw]
    rfl
  | longLimit hread hout hw =>
    rw [bind_of_check_error (read_of_readsAs hread hlong) (check_of_text hout), hw]
    rfl

theorem Answers.fault {b : BindingFault} (h : p.Answers raw (.error (.binding b))) :
    (b.parameter = p ∧ b.raw = raw.orElse .null) ∧
      (b.kind = .coercion ↔ ∀ found, ¬ raw.ReadsAs p.type found) ∧
      (b.kind = .range ↔ ∃ found, raw.ReadsAs p.type found ∧ p.domain.holds found = false) := by
  cases h with
  | notReadable hread =>
    refine ⟨⟨rfl, rfl⟩, iff_of_true rfl hread, iff_of_false FaultKind.noConfusion ?_⟩
    rintro ⟨found, hfound, -⟩
    exact hread found hfound
  | outOfLimits hread hn hout =>
    exact ⟨⟨rfl, rfl⟩, iff_of_false FaultKind.noConfusion fun hno => hno _ hread,
      iff_of_true rfl ⟨_, hread, hout⟩⟩
  | wrongLength hread hout =>
    exact ⟨⟨rfl, rfl⟩, iff_of_false FaultKind.noConfusion fun hno => hno _ hread,
      iff_of_true rfl ⟨_, hread, hout⟩⟩

/--
**Binding gives the answer to a raw value, unless a number gets in the way.** Where none does, the
outcome is the answer and nothing else. Where one does, binding fails for that number, and there is
no answer. A refusal carries the parameter and the raw value, of which nothing is left if it was not
provided; it is one of coercion exactly if the raw value cannot be read as the type, and one of
range exactly if it is read as something outside the limits.
-/
theorem bind_answers_iff (p : Parameter) (raw : Datum) :
    (¬ p.Overtaxes raw → ∀ outcome, p.bind raw = outcome ↔ p.Answers raw outcome) ∧
      (p.Overtaxes raw →
        (∃ found, p.bind raw = .error (.datum (.tooManyDigits found))) ∨
          p.bind raw = .error (.datum .beyondDouble)) ∧
      ∀ b, p.bind raw = .error (.binding b) →
        (b.parameter = p ∧ b.raw = raw.orElse .null) ∧
          (b.kind = .coercion ↔ ∀ found, ¬ raw.ReadsAs p.type found) ∧
          (b.kind = .range ↔
            ∃ found, raw.ReadsAs p.type found ∧ p.domain.holds found = false) := by
  have hanswers : ¬ p.Overtaxes raw → ∀ outcome, p.bind raw = outcome ↔ p.Answers raw outcome := by
    intro hclear outcome
    refine ⟨?_, fun h => bind_of_answers h hclear⟩
    rintro rfl
    obtain ⟨outcome, h⟩ := p.exists_answer raw
    rwa [bind_of_answers h hclear]
  refine ⟨hanswers, bind_of_overtaxes, fun b hb => ?_⟩
  have hclear : ¬ p.Overtaxes raw := by
    intro h
    rcases bind_of_overtaxes h with ⟨found, hfail⟩ | hfail <;> rw [hb] at hfail <;> cases hfail
  exact ((hanswers hclear _).mp hb).fault

end Parameter

/-! ## Texts of ordinary length -/

/-- A written integer of few enough digits can be written again. -/
theorem WritesInteger.isWritable {cs : List Char} {numeral : IntegerNumeral}
    (h : WritesInteger cs numeral) (hshort : numeral.digits.length ≤ digitLimit) :
    isWritableInteger numeral.value = true := by
  obtain ⟨sign, digits, -, -, hdigits, -⟩ := h
  have hlt := Nat.lt_of_lt_of_le (digitsValue_lt hdigits.lt) (powerOfTen_le hshort)
  refine decide_eq_true ?_
  unfold IntegerNumeral.value
  split
  · rwa [Int.natAbs_neg, Int.natAbs_natCast]
  · rwa [Int.natAbs_natCast]

namespace Parameter

/-- No text of ordinary length gets in the way of its answer, unless a limit of length does. -/
theorem not_overtaxes_of_length_le {p : Parameter} {s : String}
    (hlimits : (p.minLength.isWritable && p.maxLength.isWritable) = true)
    (hlen : s.length ≤ digitLimit) : ¬ p.Overtaxes (.string s) := by
  have hshort : ∀ {numeral : IntegerNumeral}, WritesInteger s.toList numeral →
      numeral.digits.length ≤ digitLimit := by
    intro numeral h
    have hdigits := IntegerNumeral.length_digits_le (IntegerNumeral.ofChars?_eq_some_iff.mpr h)
    rw [String.length_toList] at hdigits
    exact Nat.le_trans hdigits hlen
  intro h
  cases h with
  | longNumeral h =>
    obtain ⟨-, t, numeral, heq, hwrites, hlong⟩ := h
    cases heq
    exact Nat.not_le_of_lt hlong (hshort hwrites)
  | farInteger h =>
    obtain ⟨-, n, heq, -⟩ := h
    cases heq
  | longRaw hread hlong => cases hlong
  | longNumber hread hn hout hlong =>
    generalize p.type = type at hread
    cases hread with
    | text _ | writtenTruth _ => cases hn
    | writtenInteger _ hwrites =>
      cases hn
      exact Bool.false_ne_true (hlong.symm.trans (hwrites.isWritable (hshort hwrites)))
    | writtenDouble _ =>
      cases hn
      cases hlong
  | longLimit hread hout hlong => exact Bool.false_ne_true (hlong.symm.trans hlimits)

/-- An amount that is too large is answered by the refusal of a number outside the limits. -/
theorem bind_answers_iff_amount :
    ¬ amountParameter.Overtaxes (.string "101") ∧
      amountParameter.bind (.string "101")
        = .error (.binding (.outOfLimits amountParameter (.string "101") (.integer 101))) := by
  have hclear : ¬ amountParameter.Overtaxes (.string "101") :=
    not_overtaxes_of_length_le rfl (by decide)
  have hwrites : WritesInteger "101".toList ⟨false, [1, 0, 1]⟩ :=
    IntegerNumeral.ofChars?_eq_some_iff.mp rfl
  obtain ⟨hanswers, -⟩ := bind_answers_iff amountParameter (.string "101")
  exact ⟨hclear, (hanswers hclear _).mpr
    (.outOfLimits (.writtenInteger (.inl rfl) hwrites) rfl rfl)⟩

end Parameter

/-! ## Numerals with zeros in front -/

/-- The numeral of a one with some zeros in front of it. -/
def paddedOne (zeros : Nat) : String := String.ofList (List.replicate zeros '0' ++ ['1'])

theorem writesInteger_paddedOne (zeros : Nat) :
    WritesInteger (paddedOne zeros).toList ⟨false, List.replicate zeros 0 ++ [1]⟩ := by
  refine ⟨[], _, String.toList_ofList, .none, areDigits_append (areDigits_replicate rfl zeros) ?_,
    by simp⟩
  exact areDigits_cons.mpr ⟨rfl, rfl⟩

/-- Zeros in front do not change what a numeral is read as. -/
theorem readsAs_paddedOne (zeros : Nat) :
    (Datum.string (paddedOne zeros)).ReadsAs amountParameter.type (.integer 1) := by
  have hread := @Datum.ReadsAs.writtenInteger .integer (.inl rfl) _ _
    (writesInteger_paddedOne zeros)
  have hvalue : IntegerNumeral.value ⟨false, List.replicate zeros 0 ++ [1]⟩ = 1 := by
    show (digitsValue (List.replicate zeros 0 ++ [1]) : Int) = 1
    rw [digitsValue_zeros]
    rfl
  rwa [hvalue] at hread

/-- A one with too many zeros in front of it is neither bound nor refused in one of the two ways. -/
theorem padded_one_has_no_answer :
    (Datum.string (paddedOne digitLimit)).ReadsAs amountParameter.type (.integer 1) ∧
      amountParameter.domain.holds (.integer 1) = true ∧
      amountParameter.bind (.string (paddedOne digitLimit))
        = .error (.datum (.tooManyDigits (some (digitLimit + 1)))) ∧
      ¬ ((∃ v, amountParameter.bind (.string (paddedOne digitLimit)) = .ok v) ∨
        ∃ fault, amountParameter.bind (.string (paddedOne digitLimit)) = .error fault ∧
          (fault.kind = .coercion ∨ fault.kind = .range)) := by
  have hlength : (List.replicate digitLimit 0 ++ [1]).length = digitLimit + 1 := by
    rw [List.length_append, List.length_replicate]
    rfl
  have hread := @Parameter.read_of_writes_long amountParameter _ _ (.inl rfl)
    (writesInteger_paddedOne digitLimit) (by rw [hlength]; exact Nat.lt_succ_self _)
  rw [hlength] at hread
  have hbind := Parameter.bind_of_read_error hread
  refine ⟨readsAs_paddedOne digitLimit, rfl, hbind, ?_⟩
  rintro (⟨v, hv⟩ | ⟨fault, hfault, hkind⟩)
  · rw [hbind] at hv
    cases hv
  · rw [hbind] at hfault
    cases hfault
    rcases hkind with hkind | hkind <;> cases hkind

end CommandTree
