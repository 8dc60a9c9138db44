import CommandTree.Parameter.Builder
import CommandTree.Proofs.Parameter.Restated

/-!
# Which parameters there are

A parameter is declared, built step by step, or made from another one by replacing fields. In
whatever way it was made, its fields fit together; and whatever fits together are the fields of some
parameter. What a raw value is bound to fits the fields as well.

* `Parameter.exists_made_iff`: the fields of parameters are those that fit together
* `Parameter.admits_of_bind`: what is bound lies within the limits and within the full range
* `Parameter.made_fields_fit`: the two together
-/

namespace CommandTree

namespace Parameter

/-! ## Making a parameter -/

/-- The builders that a chain of steps leads to. -/
inductive Builder.Reached : Builder → Prop
  | start {label : String} {name : Datum} {b : Builder} (h : Builder.start label name = .ok b) :
    Reached b
  | step {b c : Builder} {word : String} {told : List Datum} (hb : b.Reached)
      (h : b.step word told = .ok c) : Reached c

/-- The parameters that can be made: declared, built, or made from others by replacements. -/
inductive Made : Parameter → Prop
  | declared {label : String} {name : Datum} {given : List (String × Datum)} {p : Parameter}
      (h : declareWith label name given = .ok p) : Made p
  | built {b : Builder} {p : Parameter} (hb : b.Reached) (h : b.build = .ok p) : Made p
  | replaced {p q : Parameter} {unnamed : Bool} {overrides : List (String × Datum)} (hp : Made p)
      (h : p.replace unnamed overrides = .ok q) : Made q

/-- Every parameter can be made: it can be declared from its own fields. -/
theorem made (p : Parameter) : Made p := by
  have h := @replace_entries p [] (by simp)
  rw [widened_keptBy_nil] at h
  exact .declared h

end Parameter

/-! ## Fields that fit together -/

/-- Whether fields have no limits of numbers. -/
structure LacksBounds (fields : Field → Datum) : Prop where
  least : fields (.limit .least) = .null
  greatest : fields (.limit .greatest) = .null

/-- Whether fields have no limits of length, and are not greedy. -/
structure LacksLengths (fields : Field → Datum) : Prop where
  minLength : fields (.limit .minLength) = .null
  maxLength : fields (.limit .maxLength) = .null
  greedy : fields .greedy = .boolean false

/-- Whether the type of fields fits their limits. -/
inductive LimitsFit (fields : Field → Datum) : Prop
  | integral {t : ValueType} {lower upper least greatest : Int}
      (htype : fields .type = .valueType t)
      (hrange : t.range? = some (.integer lower, .integer upper))
      (hleast : fields (.limit .least) = .integer least)
      (hgreatest : fields (.limit .greatest) = .integer greatest)
      (hin : lower ≤ least ∧ least ≤ greatest ∧ greatest ≤ upper) (hlengths : LacksLengths fields)
  | double {least greatest : Double} (htype : fields .type = .valueType .double)
      (hleast : fields (.limit .least) = .double least)
      (hgreatest : fields (.limit .greatest) = .double greatest)
      (hfinite : least.isFinite = true ∧ greatest.isFinite = true)
      (hle : least.le greatest = true) (hlengths : LacksLengths fields)
  | boolean (htype : fields .type = .valueType .boolean) (hbounds : LacksBounds fields)
      (hlengths : LacksLengths fields)
  | string {minLength : Int} {greedy : Bool} (htype : fields .type = .valueType .string)
      (hbounds : LacksBounds fields)
      (hmin : fields (.limit .minLength) = .integer minLength ∧ 0 ≤ minLength)
      (hmax : fields (.limit .maxLength) = .null ∨
        ∃ maxLength, fields (.limit .maxLength) = .integer maxLength ∧ minLength ≤ maxLength)
      (hgreedy : fields .greedy = .boolean greedy)

/-- Whether fields fit together. -/
structure FieldsFit (fields : Field → Datum) : Prop where
  name : ∃ text, fields .name = .string text ∧ isToken text = true
  limits : LimitsFit fields
  optional : ∃ b, fields .optional = .boolean b

namespace Parameter

theorem fieldsFit (p : Parameter) : FieldsFit p.field where
  name := ⟨p.name.text, rfl, p.name.isToken⟩
  optional := ⟨p.optional, rfl⟩
  limits := by
    obtain ⟨label, name, domain, optional, sound⟩ := p
    cases domain with
    | integer lower upper | long lower upper =>
      exact .integral rfl rfl rfl rfl sound ⟨rfl, rfl, rfl⟩
    | double lower upper =>
      exact .double rfl rfl rfl ⟨sound.1, sound.2.1⟩ sound.2.2 ⟨rfl, rfl, rfl⟩
    | boolean => exact .boolean rfl ⟨rfl, rfl⟩ ⟨rfl, rfl, rfl⟩
    | string shortest longest greedy =>
      refine .string rfl ⟨rfl, rfl⟩ ⟨rfl, Int.natCast_nonneg _⟩ ?_ rfl
      cases longest with
      | none => exact .inl rfl
      | some n => exact .inr ⟨n, rfl, Int.ofNat_le.mpr (sound n rfl)⟩

theorem field_eq {p : Parameter} {fields : Field → Datum}
    (hname : fields .name = .string p.name.text) (htype : fields .type = .valueType p.type)
    (hleast : fields (.limit .least) = p.least) (hgreatest : fields (.limit .greatest) = p.greatest)
    (hmin : fields (.limit .minLength) = p.minLength)
    (hmax : fields (.limit .maxLength) = p.maxLength)
    (hgreedy : fields .greedy = .boolean p.greedy)
    (hoptional : fields .optional = .boolean p.optional) : p.field = fields := by
  funext f
  rcases f with _ | _ | (_ | _ | _ | _) | _ | _
  · exact hname.symm
  · exact htype.symm
  · exact hleast.symm
  · exact hgreatest.symm
  · exact hmin.symm
  · exact hmax.symm
  · exact hgreedy.symm
  · exact hoptional.symm

/-- Fields that fit together are those of a parameter. -/
theorem exists_of_fieldsFit {fields : Field → Datum} (h : FieldsFit fields) :
    ∃ p : Parameter, p.field = fields := by
  obtain ⟨⟨text, hname, htoken⟩, hlimits, optional, hoptional⟩ := h
  cases hlimits with
  | @integral t lower upper least greatest htype hrange hleast hgreatest hin hlengths =>
    obtain ⟨hmin, hmax, hgreedy⟩ := hlengths
    cases t with
    | string | double | boolean => cases hrange
    | integer =>
      cases hrange
      exact ⟨⟨defaultLabel, ⟨text, htoken⟩, .integer least greatest, optional, hin⟩,
        field_eq hname htype hleast hgreatest hmin hmax hgreedy hoptional⟩
    | long =>
      cases hrange
      exact ⟨⟨defaultLabel, ⟨text, htoken⟩, .long least greatest, optional, hin⟩,
        field_eq hname htype hleast hgreatest hmin hmax hgreedy hoptional⟩
  | @double least greatest htype hleast hgreatest hfinite hle hlengths =>
    obtain ⟨hmin, hmax, hgreedy⟩ := hlengths
    exact ⟨⟨defaultLabel, ⟨text, htoken⟩, .double least greatest, optional, hfinite.1, hfinite.2,
      hle⟩, field_eq hname htype hleast hgreatest hmin hmax hgreedy hoptional⟩
  | boolean htype hbounds hlengths =>
    obtain ⟨hmin, hmax, hgreedy⟩ := hlengths
    exact ⟨⟨defaultLabel, ⟨text, htoken⟩, .boolean, optional, trivial⟩,
      field_eq hname htype hbounds.least hbounds.greatest hmin hmax hgreedy hoptional⟩
  | @string minLength greedy htype hbounds hmin hmax hgreedy =>
    obtain ⟨hmin, hnonneg⟩ := hmin
    obtain ⟨shortest, rfl⟩ := Int.eq_ofNat_of_zero_le hnonneg
    rcases hmax with hmax | ⟨maxLength, hmax, hle⟩
    · exact ⟨⟨defaultLabel, ⟨text, htoken⟩, .string shortest none greedy, optional, nofun⟩,
        field_eq hname htype hbounds.least hbounds.greatest hmin hmax hgreedy hoptional⟩
    · obtain ⟨longest, rfl⟩ := Int.eq_ofNat_of_zero_le (Int.le_trans hnonneg hle)
      have hsound : (Domain.string shortest (some longest) greedy).Sound := by
        intro m hm
        cases hm
        exact Int.ofNat_le.mp hle
      exact ⟨⟨defaultLabel, ⟨text, htoken⟩, .string shortest (some longest) greedy, optional,
        hsound⟩,
        field_eq hname htype hbounds.least hbounds.greatest hmin hmax hgreedy hoptional⟩

/-- **The fields of the parameters that can be made are those that fit together.** -/
theorem exists_made_iff {fields : Field → Datum} :
    (∃ p, Made p ∧ p.field = fields) ↔ FieldsFit fields := by
  constructor
  · rintro ⟨p, -, rfl⟩
    exact p.fieldsFit
  · intro h
    obtain ⟨p, hp⟩ := exists_of_fieldsFit h
    exact ⟨p, p.made, hp⟩

end Parameter

/-! ## What is bound -/

/-- Whether fields admit a value: it has their type, a payload of that kind, and lies within the
full range of the type and within the limits. -/
inductive FieldsAdmit (fields : Field → Datum) : Value → Prop
  | integral {t : ValueType} {lower upper least greatest n : Int}
      (htype : fields .type = .valueType t)
      (hrange : t.range? = some (.integer lower, .integer upper))
      (hleast : fields (.limit .least) = .integer least)
      (hgreatest : fields (.limit .greatest) = .integer greatest)
      (hfull : lower ≤ n ∧ n ≤ upper) (hin : least ≤ n ∧ n ≤ greatest) :
    FieldsAdmit fields (.of t (.integer n))
  | double {least greatest x : Double} (htype : fields .type = .valueType .double)
      (hleast : fields (.limit .least) = .double least)
      (hgreatest : fields (.limit .greatest) = .double greatest)
      (hfull : x.isFinite = true) (hin : least.le x = true ∧ x.le greatest = true) :
    FieldsAdmit fields (.of .double (.double x))
  | boolean {b : Bool} (htype : fields .type = .valueType .boolean) :
    FieldsAdmit fields (.of .boolean (.boolean b))
  | string {minLength : Int} {s : String} (htype : fields .type = .valueType .string)
      (hmin : fields (.limit .minLength) = .integer minLength ∧ minLength ≤ s.length)
      (hmax : fields (.limit .maxLength) = .null ∨
        ∃ maxLength : Int, fields (.limit .maxLength) = .integer maxLength ∧ s.length ≤ maxLength) :
    FieldsAdmit fields (.of .string (.string s))

/-- A double between finite doubles is finite. -/
theorem Double.isFinite_of_between {least greatest x : Double} (hl : least.isFinite = true)
    (hg : greatest.isFinite = true) (hle : least.le x = true) (hge : x.le greatest = true) :
    x.isFinite = true := by
  refine isFinite_iff_isWithin.mpr ⟨_, _, rfl, ?_, ?_⟩
  · exact Number.le_trans (le_largest hl).1 hle
  · exact Number.le_trans hge (le_largest hg).2

namespace Parameter

/-- **What a raw value is bound to is admitted by the fields.** -/
theorem admits_of_bind {p : Parameter} {raw : Datum} {v : Value} (h : p.bind raw = .ok v) :
    FieldsAdmit p.field v := by
  obtain ⟨found, hread, hholds, rfl⟩ := bind_eq_ok_iff.mp h
  have hkind := isOf_of_read hread
  clear h hread
  obtain ⟨label, name, domain, optional, sound⟩ := p
  cases domain with
  | integer lower upper | long lower upper =>
    cases found with
    | text s | double x | boolean b => cases hkind
    | integer n =>
      have hin : lower ≤ n ∧ n ≤ upper := by
        simpa [Domain.holds, Domain.limits?, Domain.lengths?, Scalar.isBetween, Scalar.number?,
          Number.le_integer] using hholds
      obtain ⟨hlower, -, hupper⟩ := sound
      exact .integral rfl rfl rfl rfl ⟨by omega, by omega⟩ hin
  | double lower upper =>
    cases found with
    | text s | integer n | boolean b => cases hkind
    | double x =>
      have hin : lower.le x = true ∧ x.le upper = true := by
        simpa [Domain.holds, Domain.limits?, Domain.lengths?, Scalar.isBetween, Scalar.number?,
          Double.le] using hholds
      exact .double rfl rfl rfl (Double.isFinite_of_between sound.1 sound.2.1 hin.1 hin.2) hin
  | boolean =>
    cases found with
    | text s | integer n | double x => cases hkind
    | boolean b => exact .boolean rfl
  | string shortest longest greedy =>
    cases found with
    | integer n | double x | boolean b => cases hkind
    | text s =>
      have hin : shortest ≤ s.length ∧ longest.all (s.length ≤ ·) = true := by
        simpa [Domain.holds, Domain.limits?, Domain.lengths?, Scalar.isOfLength] using hholds
      refine .string rfl ⟨rfl, Int.ofNat_le.mpr hin.1⟩ ?_
      cases longest with
      | none => exact .inl rfl
      | some n => exact .inr ⟨n, rfl, Int.ofNat_le.mpr (by simpa using hin.2)⟩

/--
**However a parameter is made, its fields fit together, and so does what it binds.** The fields of
the parameters that can be made are exactly those that fit together; and what such a parameter binds
a raw value to is of its type and lies within its limits and within the full range.
-/
theorem made_fields_fit :
    (∀ fields : Field → Datum, (∃ p, Made p ∧ p.field = fields) ↔ FieldsFit fields) ∧
      ∀ p, Made p → ∀ raw v, p.bind raw = .ok v → FieldsAdmit p.field v :=
  ⟨fun _ => exists_made_iff, fun _ _ _ _ => admits_of_bind⟩

/-- An amount can be made, and binds the token `7` to a value that its fields admit. -/
theorem made_fields_fit_amount :
    Made amountParameter ∧ FieldsFit amountParameter.field ∧
      amountParameter.bind (.string "7") = .ok (.of .integer (.integer 7)) ∧
      FieldsAdmit amountParameter.field (.of .integer (.integer 7)) := by
  have hmade : Made amountParameter := amountParameter.made
  have hbind : amountParameter.bind (.string "7") = .ok (.of .integer (.integer 7)) := rfl
  obtain ⟨hfit, hadmit⟩ := made_fields_fit
  exact ⟨hmade, (hfit _).mp ⟨amountParameter, hmade, rfl⟩, hbind, hadmit _ hmade _ _ hbind⟩

end Parameter

end CommandTree
