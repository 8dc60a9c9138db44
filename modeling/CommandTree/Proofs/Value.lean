import CommandTree.Proofs.Decimal.Reach
import CommandTree.Scalar
import CommandTree.Value

/-!
# Reading values

A value whose payload is of the kind that its type says can be read in five ways. As an integer and
as a truth value it can always be read, and a reading that does not fit the type gives nothing. As a
text it can be read unless it is an integer of too many digits, and as a double unless it is an
integer beyond the doubles.

* `Value.asString?_of`, `Value.asInteger?_of`, `Value.asLong?_of`, `Value.asDouble?_of`: what the
  readings of a value come to
* `Value.isReadable_iff`: the values that can be read in all five ways
* `Value.readings_of_isOfKind`: what each reading comes to, of every value
-/

namespace CommandTree

/-! ## Scalars of a type -/

namespace Scalar

/-- Whether a scalar is of the kind that a type stands for. -/
inductive IsOfKind : ValueType → Scalar → Prop
  | string (s : String) : IsOfKind .string (.text s)
  | integer (n : Int) : IsOfKind .integer (.integer n)
  | long (n : Int) : IsOfKind .long (.integer n)
  | double (x : Double) : IsOfKind .double (.double x)
  | boolean (b : Bool) : IsOfKind .boolean (.boolean b)

/-- The text of a scalar. -/
def written : Scalar → String
  | .text s => s
  | .integer n => integerText n
  | .double x => x.text
  | .boolean b => if b then "true" else "false"

end Scalar

/-- An integer between the limits is not changed. -/
theorem narrowed_of_mem {lower upper n : Int} (h : lower ≤ n ∧ n ≤ upper) :
    narrowed lower upper n = n := by
  rw [narrowed, Int.emod_eq_of_lt (by omega) (by omega), Int.sub_add_cancel]

namespace Number

/-- A number as an integer between two limits: an integer by its remainder, a double by the nearer
limit. -/
def narrowed (lower upper : Int) : Number → Int
  | .integer n => CommandTree.narrowed lower upper n
  | .double x => x.saturated lower upper

/-- A number as a double, if it is not beyond all of them. -/
def double? : Number → Option Double
  | .integer n => Double.ofInt? n
  | .double x => some x

end Number

namespace Value

/-- Whether the payload of a value is of the kind that its type says. -/
inductive IsOfKind : Value → Prop
  | absent : IsOfKind .absent
  | present {t : ValueType} {found : Scalar} (h : found.IsOfKind t) :
    IsOfKind (.of t found.toDatum)

/-! ## What a reading comes to -/

section Readings

variable {t : ValueType} {found : Scalar}

theorem isNumeric_of (h : found.IsOfKind t) :
    (of t found.toDatum).isNumeric = found.number?.isSome := by
  cases h <;> rfl

theorem narrowPayload_of_number {m : Number} (h : found.number? = some m) (lower upper : Int) :
    narrowPayload lower upper found.toDatum = .ok (m.narrowed lower upper) := by
  cases found with
  | text s | boolean b => cases h
  | integer n | double x =>
    cases h
    rfl

theorem doublePayload_of_number {m : Number} (h : found.number? = some m) :
    doublePayload found.toDatum = m.double?.elim (.error (.datum .beyondDouble)) .ok := by
  cases found with
  | text s | boolean b => cases h
  | double x =>
    cases h
    rfl
  | integer n =>
    cases h
    simp only [Scalar.toDatum, doublePayload, Datum.asNumber?, Number.double?]
    cases Double.ofInt? n <;> rfl

/-- A number is narrowed to any range, and nothing else is. -/
theorem narrowed_of (h : found.IsOfKind t) (lower upper : Int) :
    (if (of t found.toDatum).isNumeric then some <$> narrowPayload lower upper found.toDatum
      else .ok none) = .ok (found.number?.map (·.narrowed lower upper)) := by
  rw [isNumeric_of h]
  cases hm : found.number? with
  | none => rfl
  | some m => exact congrArg (some <$> ·) (narrowPayload_of_number hm lower upper)

theorem asInteger?_of (h : found.IsOfKind t) : (of t found.toDatum).asInteger?
    = .ok (found.number?.map (·.narrowed integerLeast integerGreatest)) :=
  narrowed_of h _ _

theorem asLong?_of (h : found.IsOfKind t) : (of t found.toDatum).asLong?
    = .ok (found.number?.map (·.narrowed longLeast longGreatest)) :=
  narrowed_of h _ _

theorem asDouble?_of_number {m : Number} (h : found.IsOfKind t) (hm : found.number? = some m) :
    (of t found.toDatum).asDouble?
      = m.double?.elim (.error (.datum .beyondDouble)) (.ok ∘ some) := by
  unfold asDouble?
  rw [isNumeric_of h, hm, Option.isSome_some, if_pos rfl]
  refine (congrArg (some <$> ·) (doublePayload_of_number hm)).trans ?_
  cases m.double? <;> rfl

theorem asDouble?_of_no_number (h : found.IsOfKind t) (hm : found.number? = none) :
    (of t found.toDatum).asDouble? = .ok none := by
  unfold asDouble?
  rw [isNumeric_of h, hm]
  rfl

theorem asString?_of (h : found.IsOfKind t) : (of t found.toDatum).asString?
    = if found.toDatum.isWritable then .ok (some found.written)
      else .error (.datum (.tooManyDigits none)) := by
  cases h with
  | string s | double x => rfl
  | boolean b => cases b <;> rfl
  | integer n | long n =>
    show (do .ok (some (← (Datum.integer n).asWritable).plain)) = _
    unfold Datum.asWritable
    show _ = if (Datum.integer n).isWritable then _ else _
    generalize (Datum.integer n).isWritable = writable
    cases writable <;> rfl

end Readings

/-! ## Values that can be read -/

/-- Whether the value is an integer of too many digits to be written. -/
def IsTooLong (v : Value) : Prop := ∃ n, v.payload = .integer n ∧ isWritableInteger n = false

/-- Whether the value is an integer beyond the doubles. -/
def IsBeyond (v : Value) : Prop := ∃ n, v.payload = .integer n ∧ doubleReach ≤ n.natAbs

/-- Whether a reading returns: with an answer where it fits the type, and with nothing elsewhere. -/
def Returns {α : Type} (reading : Except Fault (Option α)) (fits : Bool) : Prop :=
  ∃ answer, reading = .ok answer ∧ answer.isSome = fits

/-- Whether all readings of the value return. -/
structure IsReadable (v : Value) : Prop where
  string : Returns v.asString? v.isPresent
  integer : Returns v.asInteger? v.isNumeric
  long : Returns v.asLong? v.isNumeric
  double : Returns v.asDouble? v.isNumeric
  boolean : ∀ d, v.asBoolean? = some d ↔ v.type = some .boolean ∧ v.payload = d

theorem not_returns_error {α : Type} {f : Fault} {fits : Bool} :
    ¬ Returns (.error f : Except Fault (Option α)) fits := by
  rintro ⟨answer, h, -⟩
  cases h

variable {v : Value}

theorem returns_asInteger? (h : v.IsOfKind) : Returns v.asInteger? v.isNumeric := by
  cases h with
  | absent => exact ⟨none, rfl, rfl⟩
  | present h => exact ⟨_, asInteger?_of h, by rw [Option.isSome_map, isNumeric_of h]⟩

theorem returns_asLong? (h : v.IsOfKind) : Returns v.asLong? v.isNumeric := by
  cases h with
  | absent => exact ⟨none, rfl, rfl⟩
  | present h => exact ⟨_, asLong?_of h, by rw [Option.isSome_map, isNumeric_of h]⟩

theorem asBoolean?_eq_some_iff (d : Datum) :
    v.asBoolean? = some d ↔ v.type = some .boolean ∧ v.payload = d := by
  rw [asBoolean?, Option.ite_none_right_eq_some, Option.some.injEq]

theorem isWritable_of_not_isTooLong {t : ValueType} {found : Scalar} (h : found.IsOfKind t)
    (hshort : ¬ (of t found.toDatum).IsTooLong) : found.toDatum.isWritable = true := by
  cases h with
  | string s | double x | boolean b => rfl
  | integer n | long n => exact Bool.of_not_eq_false fun hlong => hshort ⟨n, rfl, hlong⟩

theorem returns_asString? (h : v.IsOfKind) (hshort : ¬ v.IsTooLong) :
    Returns v.asString? v.isPresent := by
  cases h with
  | absent => exact ⟨none, rfl, rfl⟩
  | @present t found h =>
    refine ⟨some found.written, ?_, rfl⟩
    rw [asString?_of h, if_pos (isWritable_of_not_isTooLong h hshort)]

theorem asString?_of_isTooLong (h : v.IsOfKind) (hlong : v.IsTooLong) :
    v.asString? = .error (.datum (.tooManyDigits none)) := by
  obtain ⟨n, hn, hlong⟩ := hlong
  cases h with
  | absent => cases hn
  | @present t found h =>
    have hn : found.toDatum = .integer n := hn
    rw [asString?_of h, hn]
    exact if_neg (Bool.not_eq_true _ ▸ hlong)

theorem returns_asDouble? (h : v.IsOfKind) (hnear : ¬ v.IsBeyond) :
    Returns v.asDouble? v.isNumeric := by
  cases h with
  | absent => exact ⟨none, rfl, rfl⟩
  | @present t found h =>
    rw [isNumeric_of h]
    cases hm : found.number? with
    | none => exact ⟨none, asDouble?_of_no_number h hm, rfl⟩
    | some m =>
      obtain ⟨x, hx⟩ : ∃ x, m.double? = some x := by
        cases h with
        | string s | boolean b => cases hm
        | double x => cases hm; exact ⟨x, rfl⟩
        | integer n | long n =>
          cases hm
          exact Double.exists_ofInt?_iff.mpr (Nat.lt_of_not_le fun hfar => hnear ⟨n, rfl, hfar⟩)
      refine ⟨some x, ?_, rfl⟩
      rw [asDouble?_of_number h hm, hx]
      rfl

theorem asDouble?_of_isBeyond (h : v.IsOfKind) (hfar : v.IsBeyond) :
    v.asDouble? = .error (.datum .beyondDouble) := by
  obtain ⟨n, hn, hfar⟩ := hfar
  cases h with
  | absent => cases hn
  | @present t found h =>
    have hm : found.number? = some (.integer n) := by
      cases found with
      | text s | double x | boolean b => cases hn
      | integer m =>
        cases hn
        rfl
    rw [asDouble?_of_number h hm, Number.double?, Double.ofInt?_eq_none_iff.mpr hfar]
    rfl

/-- What is too long to be written is beyond the doubles. -/
theorem isBeyond_of_isTooLong (h : v.IsTooLong) : v.IsBeyond := by
  obtain ⟨n, hn, hlong⟩ := h
  have hreach : doubleReach ≤ Text.powerOfTen Text.digitLimit := by decide +kernel
  exact ⟨n, hn, Nat.le_trans hreach (Nat.le_of_not_lt (of_decide_eq_false hlong))⟩

/-- A value can be read in all five ways exactly if it is no integer beyond the doubles. -/
theorem isReadable_iff (h : v.IsOfKind) : v.IsReadable ↔ ¬ v.IsBeyond := by
  constructor
  · intro hreadable hfar
    have hdouble := hreadable.double
    rw [asDouble?_of_isBeyond h hfar] at hdouble
    exact not_returns_error hdouble
  · intro hnear
    exact ⟨returns_asString? h fun hlong => hnear (isBeyond_of_isTooLong hlong),
      returns_asInteger? h, returns_asLong? h, returns_asDouble? h hnear, asBoolean?_eq_some_iff⟩

/--
**What each reading of a value comes to.** As an integer of 32 or 64 bits and as a truth value a
value can always be read; as a text unless it is an integer of too many digits, and as a double
unless it is an integer beyond the doubles, and these two fail in no other way. So exactly the
integers beyond the doubles have a reading that fails.
-/
theorem readings_of_isOfKind (h : v.IsOfKind) :
    Returns v.asInteger? v.isNumeric ∧ Returns v.asLong? v.isNumeric ∧
      (∀ d, v.asBoolean? = some d ↔ v.type = some .boolean ∧ v.payload = d) ∧
      (¬ v.IsTooLong → Returns v.asString? v.isPresent) ∧
      (v.IsTooLong → v.asString? = .error (.datum (.tooManyDigits none))) ∧
      (¬ v.IsBeyond → Returns v.asDouble? v.isNumeric) ∧
      (v.IsBeyond → v.asDouble? = .error (.datum .beyondDouble)) ∧
      (v.IsReadable ↔ ¬ v.IsBeyond) :=
  ⟨returns_asInteger? h, returns_asLong? h, asBoolean?_eq_some_iff, returns_asString? h,
    asString?_of_isTooLong h, returns_asDouble? h, asDouble?_of_isBeyond h, isReadable_iff h⟩

/-- A value of 64 bits that is out of the reach of 32 bits can be read in all five ways. -/
theorem readings_of_long :
    (of .long (.integer longGreatest)).IsOfKind ∧
      (of .long (.integer longGreatest)).IsReadable := by
  have hkind : (of .long (.integer longGreatest)).IsOfKind := .present (.long longGreatest)
  obtain ⟨-, -, -, -, -, -, -, hreadable⟩ := readings_of_isOfKind hkind
  refine ⟨hkind, hreadable.mpr ?_⟩
  rintro ⟨n, hn, hfar⟩
  cases hn
  exact absurd hfar (by decide +kernel)

/-- A one with four hundred zeros is an integer like any other, and cannot be read as a double. -/
theorem far_integer_is_not_readable :
    (of .integer (.integer (Text.powerOfTen 400))).IsOfKind ∧
      (of .integer (.integer (Text.powerOfTen 400))).asDouble? = .error (.datum .beyondDouble) ∧
      ¬ (of .integer (.integer (Text.powerOfTen 400))).IsReadable := by
  have hkind : (of .integer (.integer (Text.powerOfTen 400))).IsOfKind := .present (.integer _)
  have hfar : (of .integer (.integer (Text.powerOfTen 400))).IsBeyond :=
    ⟨_, rfl, by decide +kernel⟩
  exact ⟨hkind, asDouble?_of_isBeyond hkind hfar, fun h => (isReadable_iff hkind).mp h hfar⟩

end Value

end CommandTree
