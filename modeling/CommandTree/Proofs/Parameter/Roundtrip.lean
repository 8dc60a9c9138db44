import CommandTree.Proofs.Decimal.Readable
import CommandTree.Proofs.Parameter.Answers
import CommandTree.Proofs.Parameter.Made
import CommandTree.Proofs.Value

/-!
# Bound values can be bound again

The text of what was bound writes it: an integer within the range of its type is short enough to be
read, and the text of a finite double is read as that double. So the text is bound to the same value
as what it was taken from. All readings of a bound value return, and those of its own kind lose
nothing.

* `Scalar.readsAs_written`: the text of a scalar is read as the scalar
* `Parameter.bind_written`: the text of a bound value is bound to the same value
* `Parameter.bind_roundTrips`: what a bound value is bound and read as
-/

namespace CommandTree

open Text

/-! ## Scalars in the range of a type -/

namespace Scalar

/-- Whether a scalar is of a type and within its full range. -/
inductive Fits : ValueType → Scalar → Prop
  | string (s : String) : Fits .string (.text s)
  | integer {n : Int} (h : integerLeast ≤ n ∧ n ≤ integerGreatest) : Fits .integer (.integer n)
  | long {n : Int} (h : longLeast ≤ n ∧ n ≤ longGreatest) : Fits .long (.integer n)
  | double {x : Double} (h : x.isFinite = true) : Fits .double (.double x)
  | boolean (b : Bool) : Fits .boolean (.boolean b)

variable {t : ValueType} {found : Scalar}

theorem Fits.isOfKind (h : found.Fits t) : found.IsOfKind t := by
  cases h <;> constructor

theorem Fits.long_of_integer {n : Int} (h : (Scalar.integer n).Fits t) :
    longLeast ≤ n ∧ n ≤ longGreatest := by
  have hleast : longLeast ≤ integerLeast := by decide
  have hgreatest : integerGreatest ≤ longGreatest := by decide
  cases h with
  | integer h => omega
  | long h => exact h

theorem Fits.exists_integer (h : found.Fits t) (ht : t = .integer ∨ t = .long) :
    ∃ n, found = .integer n := by
  cases h with
  | @integer n h | @long n h => exact ⟨n, rfl⟩
  | string s | double h | boolean b => rcases ht with ht | ht <;> cases ht

theorem Fits.isWritable (h : found.Fits t) : found.toDatum.isWritable = true := by
  cases found with
  | text s | double x | boolean b => rfl
  | integer n => exact isWritableInteger_of_long h.long_of_integer.1 h.long_of_integer.2

/-- **The text of a scalar is read as the scalar.** -/
theorem readsAs_written (h : found.Fits t) : (Datum.string found.written).ReadsAs t found := by
  have hinteger : ∀ n, t = .integer ∨ t = .long →
      (Datum.string (integerText n)).ReadsAs t (.integer n) := by
    intro n ht
    obtain ⟨numeral, hwrites, rfl, -⟩ := writesInteger_integerText n
    exact .writtenInteger ht hwrites
  cases h with
  | string s => exact .text s
  | @integer n h => exact hinteger n (.inl rfl)
  | @long n h => exact hinteger n (.inr rfl)
  | double h =>
    obtain ⟨numeral, hwrites, rfl⟩ := Double.exists_writesDecimal_text h
    exact .writtenDouble hwrites
  | boolean b =>
    refine .writtenTruth ?_
    cases b <;> rfl

/-- The text of a scalar does not have too many digits. -/
theorem not_isLongNumeral_written (h : found.Fits t) :
    ¬ (Datum.string found.written).IsLongNumeral t := by
  rintro ⟨ht, s, numeral, hs, hwrites, hlong⟩
  cases hs
  obtain ⟨n, rfl⟩ := h.exists_integer ht
  obtain ⟨shown, hshown, -, hdigits⟩ := writesInteger_integerText n
  have hsame : numeral = shown :=
    Option.some.inj ((IntegerNumeral.ofChars?_eq_some_iff.mpr hwrites).symm.trans
      (IntegerNumeral.ofChars?_eq_some_iff.mpr hshown))
  have hshort := length_toDigits_le h.isWritable
  rw [hsame, hdigits] at hlong
  omega

end Scalar

namespace Parameter

variable {p : Parameter} {raw : Datum} {v : Value} {found : Scalar}

/-! ## Binding a text again -/

/-- What is bound is of the type and within its full range. -/
theorem exists_fits_of_bind (h : p.bind raw = .ok v) :
    ∃ found : Scalar, found.Fits p.type ∧ p.domain.holds found = true ∧
      v = .of p.type found.toDatum := by
  have hadmit := admits_of_bind h
  obtain ⟨found, -, hholds, rfl⟩ := bind_eq_ok_iff.mp h
  refine ⟨found, ?_, hholds, rfl⟩
  have hof : ∀ {t : ValueType} {other : Scalar}, other.Fits t →
      Value.of p.type found.toDatum = .of t other.toDatum → found.Fits p.type := by
    intro t other hfits hv
    obtain ⟨ht, hpayload⟩ := Value.mk.inj hv
    rwa [Option.some.inj ht, Scalar.toDatum_inj hpayload]
  generalize hv : Value.of p.type found.toDatum = value at hadmit
  cases hadmit with
  | @integral t lower upper least greatest n htype hrange hleast hgreatest hfull hin =>
    cases t with
    | string | double | boolean => cases hrange
    | integer =>
      cases hrange
      exact hof (.integer hfull) hv
    | long =>
      cases hrange
      exact hof (.long hfull) hv
  | double htype hleast hgreatest hfull hin => exact hof (.double hfull) hv
  | boolean htype => exact hof (.boolean _) hv
  | string htype hmin hmax => exact hof (.string _) hv

/-- **The text of a bound value is bound to the same value.** -/
theorem bind_written (hfits : found.Fits p.type) (hholds : p.domain.holds found = true) :
    p.bind (.string found.written) = .ok (.of p.type found.toDatum) :=
  bind_eq_ok_iff.mpr ⟨found, read_of_readsAs (Scalar.readsAs_written hfits)
    (Scalar.not_isLongNumeral_written hfits), hholds, rfl⟩

/-! ## Reading what was bound -/

/-- Whether a value can be bound and read again under a parameter, with nothing lost. -/
structure RoundTrips (p : Parameter) (v : Value) : Prop where
  payload : p.bind v.payload = .ok v
  text : ∃ s, v.asString? = .ok (some s) ∧ p.bind (.string s) = .ok v
  integer : p.type = .integer → ∃ n, v.payload = .integer n ∧ v.asInteger? = .ok (some n)
  long : p.type = .integer ∨ p.type = .long →
    ∃ n, v.payload = .integer n ∧ v.asLong? = .ok (some n)
  double : p.type = .double → ∃ x, v.payload = .double x ∧ v.asDouble? = .ok (some x)
  widened : p.type = .integer →
    ∃ x, v.asDouble? = .ok (some x) ∧ (Datum.double x).same v.payload = true
  boolean : p.type = .boolean → v.asBoolean? = some v.payload
  readable : v.IsReadable

theorem asInteger?_of_fits {t : ValueType} {n : Int} (h : (Scalar.integer n).Fits t)
    (ht : t = .integer) : (Value.of t (.integer n)).asInteger? = .ok (some n) := by
  subst ht
  cases h with
  | integer hn =>
    refine (Value.asInteger?_of (.integer n)).trans ?_
    rw [Scalar.number?, Option.map_some, Number.narrowed, narrowed_of_mem hn]

theorem asLong?_of_fits {t : ValueType} {n : Int} (h : (Scalar.integer n).Fits t) :
    (Value.of t (.integer n)).asLong? = .ok (some n) := by
  refine (Value.asLong?_of h.isOfKind).trans ?_
  rw [Scalar.number?, Option.map_some, Number.narrowed, narrowed_of_mem h.long_of_integer]

/-- An integer of 32 bits is taken for a double that equals it. -/
theorem asDouble?_of_fits {t : ValueType} {n : Int} (h : (Scalar.integer n).Fits t)
    (ht : t = .integer) :
    ∃ x, (Value.of t (.integer n)).asDouble? = .ok (some x) ∧
      (Datum.double x).same (.integer n) = true := by
  subst ht
  cases h with
  | integer hn =>
    have hfew : n.natAbs < 2 * octave := by
      unfold integerLeast integerGreatest at hn
      simp only [octave]
      omega
    obtain ⟨x, hx, heqv⟩ := Double.exists_ofInt?_eqv hfew
    refine ⟨x, ?_, ?_⟩
    · refine (Value.asDouble?_of_number (.integer n) rfl).trans ?_
      rw [Number.double?, hx]
      rfl
    · simpa [Datum.same, Datum.asNumber?] using heqv

theorem not_isBeyond_of_fits {t : ValueType} (h : found.Fits t) :
    ¬ (Value.of t found.toDatum).IsBeyond := by
  rintro ⟨n, hn, hfar⟩
  cases found with
  | text s | double x | boolean b => cases hn
  | integer m =>
    cases hn
    obtain ⟨hl, hg⟩ := h.long_of_integer
    obtain ⟨x, hx⟩ := Double.exists_ofInt? hl hg
    exact absurd hx (by rw [Double.ofInt?_eq_none_iff.mpr hfar]; exact nofun)

/--
**Bound values round-trip.** What a raw value was bound to is bound again to the same value, by its
payload and by its text. As an integer, a long, a double or a truth value it is read as its payload
where that is of this kind, a double of an integer being one that equals it; and no reading fails.
-/
theorem bind_roundTrips (h : p.bind raw = .ok v) : p.RoundTrips v := by
  have hpayload := bind_payload h
  obtain ⟨found, hfits, hholds, rfl⟩ := exists_fits_of_bind h
  clear h
  have hkind := hfits.isOfKind
  have hwritten := bind_written hfits hholds
  have htext : (Value.of p.type found.toDatum).asString? = .ok (some found.written) :=
    (Value.asString?_of hkind).trans (if_pos hfits.isWritable)
  refine ⟨hpayload, ⟨_, htext, hwritten⟩, ?_, ?_, ?_, ?_, ?_, ?_⟩
  · intro ht
    obtain ⟨n, rfl⟩ := hfits.exists_integer (.inl ht)
    exact ⟨n, rfl, asInteger?_of_fits hfits ht⟩
  · intro ht
    obtain ⟨n, rfl⟩ := hfits.exists_integer ht
    exact ⟨n, rfl, asLong?_of_fits hfits⟩
  · intro ht
    rw [ht] at hkind ⊢
    cases hkind with
    | double x => exact ⟨x, rfl, Value.asDouble?_of_number (.double x) rfl⟩
  · intro ht
    obtain ⟨n, rfl⟩ := hfits.exists_integer (.inl ht)
    exact asDouble?_of_fits hfits ht
  · intro ht
    exact (Value.asBoolean?_eq_some_iff _).mpr ⟨congrArg some ht, rfl⟩
  · exact (Value.isReadable_iff (.present hkind)).mpr (not_isBeyond_of_fits hfits)

/-- An amount that is given with a sign, a zero in front and a digit of another script round-trips
as well. -/
theorem bind_roundTrips_amount :
    amountParameter.bind (.string "+0٧") = .ok (.of .integer (.integer 7)) ∧
      amountParameter.RoundTrips (.of .integer (.integer 7)) := by
  have hbind : amountParameter.bind (.string "+0٧") = .ok (.of .integer (.integer 7)) := rfl
  exact ⟨hbind, bind_roundTrips hbind⟩

end Parameter

end CommandTree
