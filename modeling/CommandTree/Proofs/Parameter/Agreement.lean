import CommandTree.Parameter.Binding
import CommandTree.Proofs.Decimal.Reach
import CommandTree.Proofs.Text.Words
import CommandTree.TokenClass

/-!
# Reading a token and binding it agree

A token is held against its parameter twice: the class of the parameter reads it from the input, and
the binding of the parameter reads the text again. Both accept the same texts with the same result,
so what an input was read as can always be bound.

* `DecimalNumeral.value_isNaN`: no text writes a double that is not a number
* `TokenClass.accept_ofDomain_iff`: a class accepts exactly the texts that its parameter binds
* `Parameter.bind_payload`: what a text was bound to can be bound again, with the same result
* `read_agrees_with_bind`: reading and binding agree on all tokens
-/

namespace CommandTree

/-! ## Doubles that texts write -/

theorem Double.isNaN_ofPattern (negative : Bool) (pattern : Nat) :
    (Double.ofPattern negative pattern).isNaN = false := by
  unfold Double.ofPattern
  split <;> rfl

theorem DecimalNumeral.value_isNaN (numeral : DecimalNumeral) : numeral.value.isNaN = false := by
  unfold DecimalNumeral.value
  dsimp only
  split
  · exact Double.isNaN_ofPattern _ _
  · split
    · rfl
    · split <;> exact Double.isNaN_ofPattern _ _

theorem Double.place?_isSome {x : Double} (h : x.isNaN = false) : x.place?.isSome = true := by
  cases x with
  | nan => cases h
  | infinite negative => rfl
  | finite negative pattern => rfl

theorem Double.isNaN_of_isFinite {x : Double} (h : x.isFinite = true) : x.isNaN = false := by
  cases x with
  | nan => cases h
  | infinite negative => rfl
  | finite negative pattern => rfl

/-! ## Limits -/

namespace Number

theorem lt_eq_not_le {a b : Number} (ha : a.place?.isSome = true) (hb : b.place?.isSome = true) :
    a.lt b = !b.le a := by
  obtain ⟨p, hp⟩ := Option.isSome_iff_exists.mp ha
  obtain ⟨q, hq⟩ := Option.isSome_iff_exists.mp hb
  simp [lt, le, hp, hq, Place.lt]

end Number

namespace TokenClass

/-- Numbers with a place pass the limits of a class exactly if they lie between them. -/
theorem checkLimits_eq_ok_iff {noun : String} {least greatest found : Number}
    (hl : least.place?.isSome = true) (hg : greatest.place?.isSome = true)
    (hf : found.place?.isSome = true) :
    checkLimits noun (.ofNumber least) (.ofNumber greatest) found = .ok () ↔
      (least.le found && found.le greatest) = true := by
  rw [checkLimits_ofNumber, Number.lt_eq_not_le hf hl, Number.lt_eq_not_le hg hf]
  cases least.le found <;> cases found.le greatest <;> simp

theorem checkLengths_null (lower : Number) (found : Nat) :
    checkLengths (.ofNumber lower) .null found
      = if (Number.integer found).lt lower then
          complainAbout (.ofNumber lower) lower (.tooShort · found)
        else .ok () := by
  simp [checkLengths, usable, bind, Except.bind]

theorem checkLengths_ofNumber (lower : Number) (upper : Int) (found : Nat) :
    checkLengths (.ofNumber lower) (.integer upper) found
      = if (Number.integer found).lt lower then
          complainAbout (.ofNumber lower) lower (.tooShort · found)
        else if (Number.integer upper).lt (.integer found) then
          complainAbout (.integer upper) (.integer upper) (.tooLong · found)
        else .ok () := by
  simp [checkLengths, usable, bind, Except.bind]

theorem complainAbout_ne_ok (length : Datum) (n : Int) (make : Int → Complaint) :
    complainAbout length (.integer n) make ≠ .ok () := by
  intro h
  cases h

/-- The greatest length of a text as a limit of a class. -/
def lengthDatum (maxLength : Option Nat) : Datum :=
  match maxLength with
  | none => .null
  | some n => .integer n

/-- The length of a text passes the limits of a class exactly if it lies between them. -/
theorem checkLengths_eq_ok_iff {minLength : Nat} {maxLength : Option Nat} {found : Nat} :
    checkLengths (.ofNumber (.integer minLength)) (lengthDatum maxLength) found = .ok () ↔
      (decide (minLength ≤ found) && maxLength.all (found ≤ ·)) = true := by
  cases maxLength with
  | none =>
    rw [lengthDatum, checkLengths_null, Number.lt_integer]
    by_cases hmin : minLength ≤ found
    · rw [decide_eq_false (by omega), if_neg Bool.false_ne_true]
      simp [hmin]
    · rw [decide_eq_true (by omega), if_pos rfl]
      simp [hmin, complainAbout_ne_ok]
  | some n =>
    rw [lengthDatum, checkLengths_ofNumber, Number.lt_integer, Number.lt_integer]
    by_cases hmin : minLength ≤ found
    · rw [decide_eq_false (by omega), if_neg Bool.false_ne_true]
      by_cases hmax : found ≤ n
      · rw [decide_eq_false (by omega), if_neg Bool.false_ne_true]
        simp [hmin, hmax]
      · rw [decide_eq_true (by omega), if_pos rfl]
        simp [hmax, complainAbout_ne_ok]
    · rw [decide_eq_true (by omega), if_pos rfl]
      simp [hmin, complainAbout_ne_ok]

end TokenClass

/-! ## What a domain holds -/

/-- Whether what was read is no number outside the given limits. -/
def Scalar.isBetween (v : Scalar) (least greatest : Number) : Bool :=
  v.number?.all fun n => least.le n && n.le greatest

/-- Whether what was read is no text of a length outside the given limits. -/
def Scalar.isOfLength (v : Scalar) (minLength : Nat) (maxLength : Option Nat) : Bool :=
  match v with
  | .text s => decide (minLength ≤ s.length) && maxLength.all (s.length ≤ ·)
  | _ => true

/-- Whether what was read lies between the limits of a domain. -/
def Domain.holds (d : Domain) (v : Scalar) : Bool :=
  d.limits?.all (fun l => v.isBetween l.1 l.2) && d.lengths?.all fun l => v.isOfLength l.1 l.2

namespace Parameter

theorem checkLimits_eq_ok_iff {p : Parameter} {raw : Datum} {found : Number} :
    p.checkLimits raw found = .ok () ↔
      (p.domain.limits?.all fun l => l.1.le found && found.le l.2) = true := by
  unfold checkLimits
  split
  · next h => simp [h]
  · next least greatest h =>
    rw [h]
    split
    · next hl => simpa using hl
    · next hl =>
      constructor
      · intro he
        cases he
      · intro he
        exact absurd (by simpa using he) hl

theorem checkLengths_eq_ok_iff {p : Parameter} {raw : Datum} {found : Nat} :
    p.checkLengths raw found = .ok () ↔
      (p.domain.lengths?.all fun l => decide (l.1 ≤ found) && l.2.all (found ≤ ·)) = true := by
  unfold checkLengths
  split
  · next h => simp [h]
  · next minLength maxLength h =>
    rw [h]
    split
    · next hl => simpa using hl
    · next hl =>
      constructor
      · intro he
        cases he
      · intro he
        exact absurd (by simpa using he) hl

/-- What was read passes the limits exactly if the domain holds it; the raw value that it was read
from is only told in the fault. -/
theorem check_eq_ok_iff {p : Parameter} {raw : Datum} {found : Scalar} :
    p.check raw found = .ok () ↔ p.domain.holds found = true := by
  cases found with
  | text s =>
    rw [check, checkLengths_eq_ok_iff]
    simp [Domain.holds, Scalar.isBetween, Scalar.number?, Scalar.isOfLength]
  | integer n =>
    rw [check, checkLimits_eq_ok_iff]
    simp [Domain.holds, Scalar.isBetween, Scalar.number?, Scalar.isOfLength]
  | double x =>
    rw [check, checkLimits_eq_ok_iff]
    simp [Domain.holds, Scalar.isBetween, Scalar.number?, Scalar.isOfLength]
  | boolean b => simp [check, Domain.holds, Scalar.isBetween, Scalar.number?, Scalar.isOfLength]

theorem bind_eq_ok_iff {p : Parameter} {raw : Datum} {v : Value} :
    p.bind raw = .ok v ↔
      ∃ found, p.read raw = .ok found ∧ p.domain.holds found = true ∧
        v = .of p.type found.toDatum := by
  unfold Parameter.bind
  cases hr : p.read raw with
  | error f => simp [Bind.bind, Except.bind]
  | ok found =>
    simp only [Bind.bind, Except.bind, Except.ok.injEq, exists_eq_left']
    rw [← @check_eq_ok_iff p raw found]
    cases hc : p.check raw found with
    | error f => simp
    | ok u => simp [eq_comm]

end Parameter

namespace Parameter

/-- The refusal of a raw value that cannot be read as the type of the parameter. -/
def refusal (p : Parameter) (raw : Datum) : Fault := naming raw.isWritable (.notReadable p raw)

/-- Both types of integers read a text in the same way. -/
theorem read_integral {p : Parameter} {s : String} (h : p.type = .integer ∨ p.type = .long) :
    p.read (.string s) = .integer <$> readInteger (p.refusal (.string s)) s := by
  rcases h with h | h <;> simp only [read, h, refusal]

theorem read_integer_iff {p : Parameter} (h : p.type = .integer ∨ p.type = .long) {s : String}
    {v : Scalar} :
    p.read (.string s) = .ok v ↔
      ∃ n, readInteger (p.refusal (.string s)) s = .ok n ∧ v = .integer n := by
  rw [read_integral h]
  cases readInteger (p.refusal (.string s)) s with
  | error f => simp [Functor.map, Except.map]
  | ok n => simp [Functor.map, Except.map, eq_comm]

theorem read_double_iff {p : Parameter} (h : p.type = .double) {s : String} {v : Scalar} :
    p.read (.string s) = .ok v ↔
      ∃ numeral, DecimalNumeral.ofChars? s.toList = some numeral ∧ v = .double numeral.value := by
  simp only [read, h]
  cases DecimalNumeral.ofChars? s.toList with
  | none => simp
  | some numeral => simp [eq_comm]

theorem read_boolean_iff {p : Parameter} (h : p.type = .boolean) {s : String} {v : Scalar} :
    p.read (.string s) = .ok v ↔ ∃ b, truthValue? s = some b ∧ v = .boolean b := by
  simp only [read, h]
  cases truthValue? s with
  | none => simp
  | some b => simp [eq_comm]

theorem read_string_iff {p : Parameter} (h : p.type = .string) {s : String} {v : Scalar} :
    p.read (.string s) = .ok v ↔ v = .text s := by
  simp only [read, h]
  simp [eq_comm]

end Parameter

/-! ## Accepting and binding -/

/-- A check that is followed by an answer gives the answer exactly if it passes. -/
theorem check_then_eq_ok_iff {ε α : Type} {check : Except ε Unit} {a b : α} :
    (check.bind fun _ => Except.ok a) = .ok b ↔ check = .ok () ∧ b = a := by
  cases check <;> simp [Except.bind, eq_comm]

namespace TokenClass

theorem acceptInteger_iff {noun : String} {least greatest : Int} {s : String} (refusal : Fault)
    {v : Scalar} :
    acceptInteger noun (.integer least) (.integer greatest) s = .ok v ↔
      (∃ n, Parameter.readInteger refusal s = .ok n ∧ v = .integer n) ∧
        v.isBetween (.integer least) (.integer greatest) = true := by
  unfold acceptInteger Parameter.readInteger
  cases IntegerNumeral.ofChars? s.toList with
  | none => simp
  | some numeral =>
    dsimp only
    cases numeral.read? with
    | none => simp
    | some n =>
      simp only [Except.ok.injEq, exists_eq_left']
      refine check_then_eq_ok_iff.trans ?_
      rw [show Datum.integer least = .ofNumber (.integer least) from rfl,
        show Datum.integer greatest = .ofNumber (.integer greatest) from rfl,
        checkLimits_eq_ok_iff rfl rfl rfl, and_comm]
      exact and_congr_right fun h => by rw [h]; rfl

theorem acceptDouble_iff {noun : String} {least greatest : Double} {s : String} {v : Scalar}
    (hl : least.isFinite = true) (hg : greatest.isFinite = true) :
    acceptDouble noun (.double least) (.double greatest) s = .ok v ↔
      (∃ numeral, DecimalNumeral.ofChars? s.toList = some numeral ∧ v = .double numeral.value) ∧
        v.isBetween (.double least) (.double greatest) = true := by
  have hl' : (Number.double least).place?.isSome = true :=
    Double.place?_isSome (Double.isNaN_of_isFinite hl)
  have hg' : (Number.double greatest).place?.isSome = true :=
    Double.place?_isSome (Double.isNaN_of_isFinite hg)
  unfold acceptDouble
  cases DecimalNumeral.ofChars? s.toList with
  | none => simp
  | some numeral =>
    have hv : (Number.double numeral.value).place?.isSome = true :=
      Double.place?_isSome numeral.value_isNaN
    simp only [Option.some.injEq, exists_eq_left']
    refine check_then_eq_ok_iff.trans ?_
    rw [show Datum.double least = .ofNumber (.double least) from rfl,
      show Datum.double greatest = .ofNumber (.double greatest) from rfl,
      checkLimits_eq_ok_iff hl' hg' hv, and_comm]
    exact and_congr_right fun h => by rw [h]; rfl

theorem acceptText_iff {minLength : Nat} {maxLength : Option Nat} {s : String} {v : Scalar} :
    acceptText (.integer minLength) (lengthDatum maxLength) s = .ok v ↔
      v = .text s ∧ v.isOfLength minLength maxLength = true := by
  unfold acceptText
  refine check_then_eq_ok_iff.trans ?_
  rw [show Datum.integer minLength = .ofNumber (.integer minLength) from rfl,
    checkLengths_eq_ok_iff, String.length_toList, and_comm]
  exact and_congr_right fun h => by rw [h]; rfl

theorem accept_of_ne {cls : TokenClass} {s : String} (hs : s ≠ "") :
    cls.accept s = match cls with
      | .integer least greatest | .long least greatest => acceptInteger cls.noun least greatest s
      | .double least greatest => acceptDouble cls.noun least greatest s
      | .boolean =>
        match truthValue? s with
        | some b => .ok (.boolean b)
        | none => .error (.complaint (.notBoolean s))
      | .word minLength maxLength | .rest minLength maxLength =>
        acceptText minLength maxLength s := by
  have hne : ¬ s.isEmpty = true := by simpa using hs
  unfold accept
  refine (if_neg hne).trans ?_
  cases cls <;> rfl

theorem accept_string {minLength : Nat} {maxLength : Option Nat} {greedy : Bool} {s : String}
    (hs : s ≠ "") :
    (ofDomain (.string minLength maxLength greedy)).accept s
      = acceptText (.integer minLength) (lengthDatum maxLength) s := by
  rw [accept_of_ne hs]
  cases greedy <;> rfl

/-- A class accepts a text as what its parameter reads it as, if the domain holds that. -/
theorem accept_ofDomain_iff {p : Parameter} {s : String} (hs : s ≠ "") {v : Scalar} :
    (ofDomain p.domain).accept s = .ok v ↔
      p.read (.string s) = .ok v ∧ p.domain.holds v = true := by
  have hsound := p.sound
  -- a class has the limits of its domain, so only the two ways of reading are left to compare
  cases hd : p.domain with
  | integer least greatest =>
    rw [p.read_integer_iff (Or.inl (by rw [Parameter.type, hd]; rfl)), accept_of_ne hs]
    refine (acceptInteger_iff (p.refusal (.string s))).trans ?_
    simp [Domain.holds, Domain.limits?, Domain.lengths?]
  | long least greatest =>
    rw [p.read_integer_iff (Or.inr (by rw [Parameter.type, hd]; rfl)), accept_of_ne hs]
    refine (acceptInteger_iff (p.refusal (.string s))).trans ?_
    simp [Domain.holds, Domain.limits?, Domain.lengths?]
  | double least greatest =>
    rw [hd] at hsound
    rw [p.read_double_iff (by rw [Parameter.type, hd]; rfl), accept_of_ne hs]
    refine (acceptDouble_iff hsound.1 hsound.2.1).trans ?_
    simp [Domain.holds, Domain.limits?, Domain.lengths?]
  | boolean =>
    rw [p.read_boolean_iff (by rw [Parameter.type, hd]; rfl), accept_of_ne hs]
    simp only [ofDomain, Domain.holds, Domain.limits?, Domain.lengths?]
    cases truthValue? s with
    | none => simp
    | some b => simp [eq_comm]
  | string minLength maxLength greedy =>
    rw [p.read_string_iff (by rw [Parameter.type, hd]; rfl), accept_string hs, acceptText_iff]
    simp [Domain.holds, Domain.limits?, Domain.lengths?]

end TokenClass

/-! ## Binding again -/

/-- Whether what was read is of the kind that a type asks for. -/
def Scalar.isOf (v : Scalar) (type : ValueType) : Bool :=
  match type, v with
  | .string, .text _ | .boolean, .boolean _ | .integer, .integer _ | .long, .integer _ => true
  | .double, .double x => !x.isNaN
  | _, _ => false

theorem Double.isNaN_of_ofInt? {n : Int} {x : Double} (h : Double.ofInt? n = some x) :
    x.isNaN = false :=
  Double.isNaN_of_isFinite (Double.isFinite_of_ofInt? h)

namespace Parameter

theorem isOf_of_read {p : Parameter} {raw : Datum} {v : Scalar} (h : p.read raw = .ok v) :
    v.isOf p.type = true := by
  have hinteger : ∀ refusal s, (Scalar.integer <$> readInteger refusal s) = .ok v →
      ∃ n, v = .integer n := by
    intro refusal s h
    cases hr : readInteger refusal s with
    | error f => rw [hr] at h; cases h
    | ok n => rw [hr] at h; cases h; exact ⟨n, rfl⟩
  -- one case for each kind of raw value that is read as some type; all others are refused
  unfold read at h
  dsimp only at h
  split at h
  case h_1 hp => cases h; rw [hp]; rfl
  case h_2 hp => cases h; rw [hp]; rfl
  case h_3 hp =>
    split at h
    · cases h; rw [hp]; rfl
    · cases h
  case h_4 hp => cases h; rw [hp]; rfl
  case h_5 hp => cases h; rw [hp]; rfl
  case h_6 hp => obtain ⟨n, rfl⟩ := hinteger _ _ h; rw [hp]; rfl
  case h_7 hp => obtain ⟨n, rfl⟩ := hinteger _ _ h; rw [hp]; rfl
  case h_8 n hp =>
    rw [hp]
    cases hx : Double.ofInt? n with
    | none => simp only [nearestDouble, hx] at h; cases h
    | some x =>
      simp only [nearestDouble, hx] at h
      cases h
      simp [Scalar.isOf, Double.isNaN_of_ofInt? hx]
  case h_9 x hp =>
    rw [hp]
    split at h
    · cases h
    · next hx =>
      cases h
      simpa [Scalar.isOf] using hx
  case h_10 hp =>
    rw [hp]
    split at h
    · next numeral _ =>
      cases h
      simp [Scalar.isOf, numeral.value_isNaN]
    · cases h
  case h_11 => cases h

/-- What was read is read again as it is. -/
theorem read_toDatum {p : Parameter} {v : Scalar} (h : v.isOf p.type = true) :
    p.read v.toDatum = .ok v := by
  cases hp : p.type <;> rw [hp] at h <;> cases v <;>
    simp_all [Scalar.isOf, Scalar.toDatum, read]

/-- **What was bound can be bound again, with the same result.** -/
theorem bind_payload {p : Parameter} {raw : Datum} {v : Value} (h : p.bind raw = .ok v) :
    p.bind v.payload = .ok v := by
  obtain ⟨found, hread, hholds, rfl⟩ := bind_eq_ok_iff.mp h
  exact bind_eq_ok_iff.mpr ⟨found, read_toDatum (isOf_of_read hread), hholds, rfl⟩

end Parameter

/-! ## Whole tokens -/

namespace TokenClass

/-- Inside a text, a class reads the token that it takes from what is ahead, and complaints are
about the place where the token begins. -/
theorem read_within (cls : TokenClass) (s : String) {n : Nat} (h : n ≤ s.toList.length) :
    cls.read ⟨s, n⟩ = match cls.accept (String.ofList (cls.take (s.toList.drop n))) with
      | .ok found => (.ok found, ⟨s, (n + (cls.take (s.toList.drop n)).length : Nat)⟩)
      | .error f => (.error (f.located s n),
          ⟨s, (n + (cls.take (s.toList.drop n)).length : Nat)⟩) := by
  have htoken : (if cls.greedy then .ok (⟨s, n⟩ : Cursor).readRest else (⟨s, n⟩ : Cursor).readWord)
      = .ok (String.ofList (cls.take (s.toList.drop n)),
          (⟨s, (n + (cls.take (s.toList.drop n)).length : Nat)⟩ : Cursor)) := by
    rw [take]
    split
    · have hstretch := stretch_ofNat s.toList n s.toList.length
      rw [Nat.min_eq_left h, List.take_length] at hstretch
      rw [List.length_drop, Nat.add_sub_cancel' h, ← hstretch]
      rfl
    · exact Cursor.readWord_within s h
  cases haccept : cls.accept (String.ofList (cls.take (s.toList.drop n))) with
  | error f => simp [read, htoken, haccept]
  | ok found => simp [read, htoken, haccept]

/-- Whether a text is one token for a class: the class takes the rest, or the text is one word. -/
def IsWhole (cls : TokenClass) (s : String) : Prop := cls.greedy = true ∨ ' ' ∉ s.toList

theorem take_of_isWhole {cls : TokenClass} {s : String} (h : cls.IsWhole s) :
    cls.take s.toList = s.toList := by
  rw [take]
  split
  · rfl
  · next hg => exact firstWord_of_not_mem (h.resolve_left hg)

/-- A text that is one token is read to its end. -/
theorem read_of_isWhole {cls : TokenClass} {s : String} (h : cls.IsWhole s) :
    cls.read ⟨s, 0⟩ = match cls.accept s with
      | .ok found => (.ok found, ⟨s, s.toList.length⟩)
      | .error f => (.error (f.located s 0), ⟨s, s.toList.length⟩) := by
  have hread := cls.read_within s (Nat.zero_le s.toList.length)
  rw [List.drop_zero, take_of_isWhole h, String.ofList_toList, Nat.zero_add] at hread
  exact hread

theorem read_eq_ok_iff {cls : TokenClass} {s : String} (h : cls.IsWhole s) {v : Scalar} :
    (cls.read ⟨s, 0⟩).1 = .ok v ↔ cls.accept s = .ok v := by
  rw [read_of_isWhole h]
  cases cls.accept s with
  | error f => simp
  | ok found => simp

theorem read_position {cls : TokenClass} {s : String} (h : cls.IsWhole s) :
    (cls.read ⟨s, 0⟩).2 = ⟨s, s.toList.length⟩ := by
  rw [read_of_isWhole h]
  cases cls.accept s <;> rfl

/-- What is read to its end is one token. -/
theorem isWhole_of_read_position {cls : TokenClass} {s : String}
    (h : (cls.read ⟨s, 0⟩).2 = ⟨s, s.toList.length⟩) : cls.IsWhole s := by
  cases hg : cls.greedy with
  | true => exact Or.inl hg
  | false =>
    -- a word ends at the first space, so it is the whole text only if there is none
    have hbehind : (cls.read ⟨s, 0⟩).2 = ⟨s, (firstWord s.toList).length⟩ := by
      have hread := cls.read_within s (Nat.zero_le s.toList.length)
      rw [List.drop_zero, Nat.zero_add, take, hg, if_neg Bool.false_ne_true] at hread
      refine (congrArg Prod.snd hread).trans ?_
      split <;> rfl
    rw [hbehind, Cursor.mk.injEq, Int.ofNat_inj] at h
    have hall : firstWord s.toList = s.toList :=
      (List.takeWhile_prefix isWordChar).eq_of_length h.2
    exact Or.inr (hall ▸ space_not_mem_firstWord s.toList)

end TokenClass

/-- A class reads a whole token as a scalar exactly if its parameter binds the token to that. -/
theorem read_eq_ok_iff_bind {p : Parameter} {s : String} (hs : s ≠ "")
    (h : (TokenClass.ofDomain p.domain).IsWhole s) {v : Scalar} :
    ((TokenClass.ofDomain p.domain).read ⟨s, 0⟩).1 = .ok v ↔
      p.bind (.string s) = .ok (.of p.type v.toDatum) := by
  rw [TokenClass.read_eq_ok_iff h, TokenClass.accept_ofDomain_iff hs, Parameter.bind_eq_ok_iff]
  constructor
  · rintro ⟨hread, hholds⟩
    exact ⟨v, hread, hholds, rfl⟩
  · rintro ⟨found, hread, hholds, heq⟩
    have hv : v = found := Scalar.toDatum_inj (by simpa [Value.of] using heq)
    exact hv ▸ ⟨hread, hholds⟩

/--
**Reading a token and binding it agree.** A text that is one token of a parameter is read by the
class of the parameter exactly if it can be bound; then it is read to its end, as what it is bound
to, and what was read is bound to the same value again.
-/
theorem read_agrees_with_bind (p : Parameter) {s : String} (hs : s ≠ "")
    (h : p.greedy = true ∨ ' ' ∉ s.toList) :
    ((∃ found, ((TokenClass.ofDomain p.domain).read ⟨s, 0⟩).1 = .ok found) ↔
        ∃ v, p.bind (.string s) = .ok v) ∧
      ∀ found v, ((TokenClass.ofDomain p.domain).read ⟨s, 0⟩).1 = .ok found →
        p.bind (.string s) = .ok v →
          ((TokenClass.ofDomain p.domain).read ⟨s, 0⟩).2 = ⟨s, s.toList.length⟩ ∧
            v.payload = found.toDatum ∧ p.bind found.toDatum = .ok v := by
  have hwhole : (TokenClass.ofDomain p.domain).IsWhole s := by
    rw [TokenClass.IsWhole, TokenClass.ofDomain_greedy]
    exact h
  refine ⟨⟨?_, ?_⟩, ?_⟩
  · rintro ⟨found, hread⟩
    exact ⟨_, (read_eq_ok_iff_bind hs hwhole).mp hread⟩
  · rintro ⟨v, hbind⟩
    obtain ⟨found, -, -, rfl⟩ := Parameter.bind_eq_ok_iff.mp hbind
    exact ⟨found, (read_eq_ok_iff_bind hs hwhole).mpr hbind⟩
  · intro found v hread hbind
    have hfound := (read_eq_ok_iff_bind hs hwhole).mp hread
    have hv : v = .of p.type found.toDatum := by
      rw [hbind] at hfound
      exact Except.ok.inj hfound
    subst hv
    exact ⟨TokenClass.read_position hwhole, rfl, Parameter.bind_payload hbind⟩

/-- A parameter of the integers from one to a hundred. -/
def amountParameter : Parameter :=
  ⟨"argument", ⟨"amount", by decide⟩, .integer 1 100, false, by decide, by decide, by decide⟩

theorem read_agrees_with_bind_signed :
    ("+٠07" ≠ "" ∧ ' ' ∉ "+٠07".toList) ∧
      ((TokenClass.ofDomain amountParameter.domain).read ⟨"+٠07", 0⟩).1 = .ok (.integer 7) ∧
      amountParameter.bind (.string "+٠07") = .ok (.of .integer (.integer 7)) ∧
      amountParameter.bind (.integer 7) = .ok (.of .integer (.integer 7)) := by
  have hword : ' ' ∉ "+٠07".toList := by decide
  have hread : ((TokenClass.ofDomain amountParameter.domain).read ⟨"+٠07", 0⟩).1
      = .ok (.integer 7) := rfl
  have hbind : amountParameter.bind (.string "+٠07") = .ok (.of .integer (.integer 7)) := rfl
  have hagree := read_agrees_with_bind amountParameter (by decide : "+٠07" ≠ "") (Or.inr hword)
  exact ⟨⟨by decide, hword⟩, hread, hbind, (hagree.2 _ _ hread hbind).2.2⟩

end CommandTree
