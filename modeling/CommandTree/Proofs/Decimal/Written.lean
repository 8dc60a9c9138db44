import CommandTree.Decimal.Numeral

/-!
# The grammar of written numbers

A written integer is an optional sign and digits. A written decimal is an optional sign, digits with
at most one point among or around them, and an optional exponent. Said as a grammar, this is what
the scanners of numerals have to read: they read every text that the grammar writes, as the numeral
that it writes, and no other text.

* `IntegerNumeral.ofChars?_eq_some_iff`: the integers that are read are those that are written
* `DecimalNumeral.ofChars?_eq_some_iff`: and so are the decimals
-/

namespace CommandTree

open Text

/-! ## Digits and signs -/

/-- Whether characters are the digits of some values, one by one. -/
def AreDigits (cs : List Char) (values : List Nat) : Prop := cs.map digitValue? = values.map some

/-- An optional sign, and whether it is a minus. -/
inductive IsSign : List Char → Bool → Prop
  | none : IsSign [] false
  | plus : IsSign ['+'] false
  | minus : IsSign ['-'] true

/-- Whether a text does not go on with a digit. -/
def EndsDigits (rest : List Char) : Prop := ∀ c ∈ rest.head?, digitValue? c = none

/-- Whether a text does not begin with a sign. -/
def Unsigned (cs : List Char) : Prop := ∀ c ∈ cs.head?, c ≠ '+' ∧ c ≠ '-'

theorem endsDigits_nil : EndsDigits [] := by
  intro first hfirst
  cases hfirst

theorem unsigned_nil : Unsigned [] := by
  intro first hfirst
  cases hfirst

theorem areDigits_cons {c : Char} {cs : List Char} {value : Nat} {values : List Nat} :
    AreDigits (c :: cs) (value :: values) ↔ digitValue? c = some value ∧ AreDigits cs values := by
  simp [AreDigits]

theorem areDigits_append {cs ds : List Char} {values others : List Nat} (hc : AreDigits cs values)
    (hd : AreDigits ds others) : AreDigits (cs ++ ds) (values ++ others) := by
  unfold AreDigits at *
  rw [List.map_append, List.map_append, hc, hd]

theorem areDigits_replicate {c : Char} {value : Nat} (h : digitValue? c = some value)
    (count : Nat) : AreDigits (List.replicate count c) (List.replicate count value) := by
  simp [AreDigits, h]

theorem AreDigits.cases {cs : List Char} {values : List Nat} (h : AreDigits cs values) :
    (cs = [] ∧ values = []) ∨
      ∃ c ds value others, cs = c :: ds ∧ values = value :: others ∧
        digitValue? c = some value ∧ AreDigits ds others := by
  cases cs with
  | nil => exact Or.inl ⟨rfl, List.map_eq_nil_iff.mp (Eq.symm h)⟩
  | cons c ds =>
    cases values with
    | nil => simp [AreDigits] at h
    | cons value others => exact Or.inr ⟨c, ds, value, others, rfl, rfl, areDigits_cons.mp h⟩

/-- No sign is a digit. -/
theorem unsigned_cons {c : Char} {value : Nat} (h : digitValue? c = some value) (cs : List Char) :
    Unsigned (c :: cs) := by
  intro first hfirst
  cases hfirst
  constructor <;> rintro rfl <;> cases h

theorem AreDigits.unsigned {cs rest : List Char} {values : List Nat} (h : AreDigits cs values)
    (hrest : Unsigned rest) : Unsigned (cs ++ rest) := by
  rcases h.cases with ⟨rfl, -⟩ | ⟨c, ds, value, others, rfl, -, hc, -⟩
  · exact hrest
  · exact unsigned_cons hc _

theorem spanDigits_append {digits rest : List Char} {values : List Nat}
    (h : AreDigits digits values) (hrest : EndsDigits rest) :
    spanDigits (digits ++ rest) = (values, rest) := by
  induction digits generalizing values with
  | nil =>
    rcases h.cases with ⟨-, rfl⟩ | ⟨_, _, _, _, hnil, -⟩
    · cases rest with
      | nil => rfl
      | cons c rest => simp [spanDigits, hrest c rfl]
    · cases hnil
  | cons c digits ih =>
    rcases h.cases with ⟨hnil, -⟩ | ⟨_, _, value, others, heq, rfl, hc, hdigits⟩
    · cases hnil
    · cases heq
      simp [spanDigits, hc, ih hdigits]

theorem spanDigits_split (cs : List Char) :
    ∃ digits, cs = digits ++ (spanDigits cs).2 ∧ AreDigits digits (spanDigits cs).1 ∧
      EndsDigits (spanDigits cs).2 := by
  induction cs with
  | nil => exact ⟨[], rfl, rfl, endsDigits_nil⟩
  | cons c cs ih =>
    unfold spanDigits
    split
    · next value hc =>
      obtain ⟨digits, hcs, hdigits, hends⟩ := ih
      exact ⟨c :: digits, congrArg (c :: ·) hcs, areDigits_cons.mpr ⟨hc, hdigits⟩, hends⟩
    · next hc =>
      refine ⟨[], rfl, rfl, ?_⟩
      rintro first hfirst
      cases hfirst
      exact hc

theorem splitSign_append {sign rest : List Char} {negative : Bool} (h : IsSign sign negative)
    (hrest : Unsigned rest) : splitSign (sign ++ rest) = (negative, rest) := by
  cases h with
  | plus => rfl
  | minus => rfl
  | none =>
    show splitSign rest = (false, rest)
    unfold splitSign
    split
    · exact absurd rfl (hrest '-' rfl).2
    · exact absurd rfl (hrest '+' rfl).1
    · rfl

theorem splitSign_split (cs : List Char) :
    ∃ sign, cs = sign ++ (splitSign cs).2 ∧ IsSign sign (splitSign cs).1 := by
  unfold splitSign
  split
  · exact ⟨['-'], rfl, .minus⟩
  · exact ⟨['+'], rfl, .plus⟩
  · exact ⟨[], rfl, .none⟩

/-! ## The values of digits -/

theorem AreDigits.length_eq {cs : List Char} {values : List Nat} (h : AreDigits cs values) :
    values.length = cs.length := by
  have hlength := congrArg List.length (show cs.map digitValue? = values.map some from h)
  simpa using hlength.symm

theorem AreDigits.lt {cs : List Char} {values : List Nat} (h : AreDigits cs values) :
    ∀ value ∈ values, value < 10 := by
  intro value hvalue
  have hmem : some value ∈ cs.map digitValue? := by
    rw [show cs.map digitValue? = values.map some from h]
    exact List.mem_map_of_mem hvalue
  obtain ⟨c, -, hc⟩ := List.mem_map.mp hmem
  exact digitValue?_lt hc

theorem foldl_digits (values : List Nat) (n : Nat) :
    values.foldl (fun n value => 10 * n + value) n
      = n * powerOfTen values.length + digitsValue values := by
  induction values generalizing n with
  | nil => exact (Nat.mul_one n).symm
  | cons value values ih =>
    have hpow : powerOfTen (values.length + 1) = powerOfTen values.length * 10 := rfl
    rw [digitsValue, List.foldl_cons, List.foldl_cons, ih, ih, List.length_cons, hpow]
    simp only [Nat.add_mul, Nat.mul_zero, Nat.zero_add]
    rw [Nat.mul_comm (powerOfTen _) 10, ← Nat.mul_assoc, Nat.mul_comm n 10, Nat.add_assoc]

theorem digitsValue_append (values others : List Nat) :
    digitsValue (values ++ others)
      = digitsValue values * powerOfTen others.length + digitsValue others := by
  rw [digitsValue, List.foldl_append, foldl_digits, ← digitsValue]

theorem digitsValue_cons (value : Nat) (values : List Nat) :
    digitsValue (value :: values) = value * powerOfTen values.length + digitsValue values := by
  have hcons := digitsValue_append [value] values
  rwa [show digitsValue [value] = value from Nat.zero_add value] at hcons

/-- The number that digits write has no more digits than they are. -/
theorem digitsValue_lt {values : List Nat} (h : ∀ value ∈ values, value < 10) :
    digitsValue values < powerOfTen values.length := by
  induction values with
  | nil => exact Nat.one_pos
  | cons value values ih =>
    obtain ⟨hvalue, hvalues⟩ := List.forall_mem_cons.mp h
    have hpow : powerOfTen (values.length + 1) = 10 * powerOfTen values.length :=
      Nat.mul_comm _ 10
    have hstep := Nat.mul_le_mul_right (powerOfTen values.length) (Nat.le_of_lt_succ hvalue)
    have hrest := ih hvalues
    rw [digitsValue_cons, List.length_cons, hpow]
    omega

theorem digitsValue_zeros (count : Nat) (rest : List Nat) :
    digitsValue (List.replicate count 0 ++ rest) = digitsValue rest := by
  induction count with
  | zero => rfl
  | succ count ih => rw [List.replicate_succ, ← ih]; rfl

/-! ## Written integers -/

/-- Whether a text writes an integer: an optional sign and digits. -/
def WritesInteger (cs : List Char) (numeral : IntegerNumeral) : Prop :=
  ∃ sign digits, cs = sign ++ digits ∧ IsSign sign numeral.negative ∧
    AreDigits digits numeral.digits ∧ numeral.digits ≠ []

/-- **The integers that are read are those that are written.** -/
theorem IntegerNumeral.ofChars?_eq_some_iff {cs : List Char} {numeral : IntegerNumeral} :
    ofChars? cs = some numeral ↔ WritesInteger cs numeral := by
  constructor
  · intro h
    obtain ⟨sign, hcs, hsign⟩ := splitSign_split cs
    obtain ⟨digits, hrest, hdigits, -⟩ := spanDigits_split (splitSign cs).2
    unfold ofChars? at h
    split at h
    · cases h
    · next values hnil hspan =>
      cases h
      rw [hspan, List.append_nil] at hrest
      rw [hspan] at hdigits
      refine ⟨sign, digits, by rw [← hrest]; exact hcs, hsign, hdigits, ?_⟩
      rintro rfl
      exact hnil rfl
    · cases h
  · rintro ⟨sign, digits, rfl, hsign, hdigits, hne⟩
    have hunsigned := hdigits.unsigned unsigned_nil
    have hspan := spanDigits_append hdigits endsDigits_nil
    rw [List.append_nil] at hunsigned hspan
    unfold ofChars?
    rw [splitSign_append hsign hunsigned, hspan]
    cases hvalues : numeral.digits with
    | nil => exact absurd hvalues hne
    | cons value others => exact congrArg some (by rw [← hvalues])

/-! ## Written decimals -/

/-- Digits with at most one point among or around them, as the values before and after it. -/
inductive WritesMantissa : List Char → List Nat → List Nat → Prop
  | whole {cs : List Char} {values : List Nat} (h : AreDigits cs values) (hne : values ≠ []) :
    WritesMantissa cs values []
  | point {cs ds : List Char} {values others : List Nat} (hc : AreDigits cs values)
      (hd : AreDigits ds others) (hne : values ++ others ≠ []) :
    WritesMantissa (cs ++ '.' :: ds) values others

/-- An optional exponent: the letter `e` in either case, and a written integer. -/
inductive WritesExponent : List Char → Int → Prop
  | none : WritesExponent [] 0
  | written {c : Char} {cs : List Char} {numeral : IntegerNumeral} (hc : c = 'e' ∨ c = 'E')
      (h : WritesInteger cs numeral) : WritesExponent (c :: cs) numeral.value

/-- Whether a text writes a decimal: an optional sign, a mantissa and an optional exponent. -/
def WritesDecimal (cs : List Char) (numeral : DecimalNumeral) : Prop :=
  ∃ sign mantissa tail, cs = sign ++ (mantissa ++ tail) ∧ IsSign sign numeral.negative ∧
    WritesMantissa mantissa numeral.whole numeral.fraction ∧ WritesExponent tail numeral.exponent

theorem exponentOfChars?_eq_some_iff {cs : List Char} {exponent : Int} :
    DecimalNumeral.exponentOfChars? cs = some exponent ↔ WritesExponent cs exponent := by
  constructor
  · intro h
    unfold DecimalNumeral.exponentOfChars? at h
    split at h
    · cases h
      exact .none
    · split at h
      · next hc =>
        obtain ⟨numeral, hnumeral, rfl⟩ := Option.map_eq_some_iff.mp h
        exact .written (by simpa using hc) (IntegerNumeral.ofChars?_eq_some_iff.mp hnumeral)
      · cases h
  · intro h
    cases h with
    | none => rfl
    | @written c cs numeral hc h =>
      have hletter : (decide (c = 'e') || decide (c = 'E')) = true := by simpa using hc
      rw [DecimalNumeral.exponentOfChars?, if_pos hletter,
        IntegerNumeral.ofChars?_eq_some_iff.mpr h]
      rfl

/-- An exponent begins with a letter, so the digits and the point before it end there. -/
theorem WritesExponent.endsDigits {cs : List Char} {exponent : Int}
    (h : WritesExponent cs exponent) : EndsDigits cs := by
  cases h with
  | none => exact endsDigits_nil
  | written hc h =>
    intro first hfirst
    cases hfirst
    rcases hc with rfl | rfl <;> rfl

theorem WritesExponent.ne_point {cs : List Char} {exponent : Int} (h : WritesExponent cs exponent)
    (rest : List Char) : cs ≠ '.' :: rest := by
  rintro rfl
  cases h with
  | written hc h => rcases hc with hc | hc <;> cases hc

theorem endsDigits_point (cs : List Char) : EndsDigits ('.' :: cs) := by
  intro first hfirst
  cases hfirst
  rfl

theorem unsigned_point (cs : List Char) : Unsigned ('.' :: cs) := by
  intro first hfirst
  cases hfirst
  decide

theorem WritesMantissa.unsigned {cs : List Char} {values others : List Nat}
    (h : WritesMantissa cs values others) (rest : List Char) : Unsigned (cs ++ rest) := by
  cases h with
  | whole h hne =>
    rcases h.cases with ⟨-, rfl⟩ | ⟨c, ds, value, others, rfl, -, hc, -⟩
    · exact absurd rfl hne
    · exact unsigned_cons hc _
  | point hc hd hne =>
    rw [List.append_assoc]
    exact hc.unsigned (unsigned_point _)

/-- The digits after a point, if there is one, and what is left. -/
def spanFraction (rest : List Char) : List Nat × List Char :=
  match rest with
  | '.' :: after => spanDigits after
  | _ => ([], rest)

theorem spanFraction_of_ne {rest : List Char} (h : ∀ after, rest ≠ '.' :: after) :
    spanFraction rest = ([], rest) := by
  unfold spanFraction
  split
  · next after => exact absurd rfl (h after)
  · rfl

/-- The scanner of decimals, part by part. -/
theorem DecimalNumeral.ofChars?_eq_some_parts {cs : List Char} {numeral : DecimalNumeral} :
    ofChars? cs = some numeral ↔
      ∃ unsigned rest tail, splitSign cs = (numeral.negative, unsigned) ∧
        spanDigits unsigned = (numeral.whole, rest) ∧
        spanFraction rest = (numeral.fraction, tail) ∧
        numeral.whole ++ numeral.fraction ≠ [] ∧
        exponentOfChars? tail = some numeral.exponent := by
  have heq : ofChars? cs =
      if (spanDigits (splitSign cs).2).1.isEmpty &&
          (spanFraction (spanDigits (splitSign cs).2).2).1.isEmpty then none
      else (exponentOfChars? (spanFraction (spanDigits (splitSign cs).2).2).2).map fun exponent =>
        ⟨(splitSign cs).1, (spanDigits (splitSign cs).2).1,
          (spanFraction (spanDigits (splitSign cs).2).2).1, exponent⟩ := rfl
  rw [heq]
  constructor
  · intro h
    split at h
    · cases h
    · next hne =>
      obtain ⟨exponent, hexponent, rfl⟩ := Option.map_eq_some_iff.mp h
      exact ⟨_, _, _, rfl, rfl, rfl, by simpa using hne, hexponent⟩
  · rintro ⟨unsigned, rest, tail, hsign, hwhole, hfraction, hne, hexponent⟩
    rw [hsign, hwhole, hfraction, hexponent, if_neg (by simpa using hne)]
    rfl

/-- **The decimals that are read are those that are written.** -/
theorem DecimalNumeral.ofChars?_eq_some_iff {cs : List Char} {numeral : DecimalNumeral} :
    ofChars? cs = some numeral ↔ WritesDecimal cs numeral := by
  rw [ofChars?_eq_some_parts]
  constructor
  · rintro ⟨unsigned, rest, tail, hsplit, hwhole, hfraction, hne, hexponent⟩
    obtain ⟨sign, hcs, hsign⟩ := splitSign_split cs
    obtain ⟨digits, hunsigned, hdigits, -⟩ := spanDigits_split unsigned
    rw [hsplit] at hcs hsign
    rw [hwhole] at hunsigned hdigits
    have htail := exponentOfChars?_eq_some_iff.mp hexponent
    unfold spanFraction at hfraction
    split at hfraction
    · next after =>
      obtain ⟨others, hafter, hothers, -⟩ := spanDigits_split after
      rw [hfraction] at hafter hothers
      refine ⟨sign, digits ++ '.' :: others, tail, ?_, hsign, .point hdigits hothers hne, htail⟩
      rw [hcs, hunsigned, hafter]
      simp
    · obtain ⟨hnone, rfl⟩ := Prod.mk.inj hfraction
      rw [← hnone, List.append_nil] at hne
      refine ⟨sign, digits, rest, ?_, hsign, hnone ▸ .whole hdigits hne, htail⟩
      rw [hcs, hunsigned]
  · rintro ⟨sign, mantissa, tail, rfl, hsign, hmantissa, htail⟩
    have hsplit := splitSign_append hsign (hmantissa.unsigned tail)
    have hexponent := exponentOfChars?_eq_some_iff.mpr htail
    generalize numeral.whole = whole at *
    generalize numeral.fraction = fraction at *
    cases hmantissa with
    | whole h hne =>
      exact ⟨_, _, _, hsplit, spanDigits_append h htail.endsDigits,
        spanFraction_of_ne htail.ne_point, by simpa using hne, hexponent⟩
    | point hc hd hne =>
      rw [List.append_assoc] at hsplit ⊢
      exact ⟨_, _, _, hsplit, spanDigits_append hc (endsDigits_point _),
        spanDigits_append hd htail.endsDigits, hne, hexponent⟩

end CommandTree
