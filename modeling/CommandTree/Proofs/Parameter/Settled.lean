import CommandTree.Proofs.Parameter.Restated

/-!
# What the fields of a parameter come to

Options are checked and completed when a parameter is declared. Under the type of the parameter each
field does so by itself: a limit that is not chosen is that of the full range, an integer for a
double is the double nearest to it, and a truth value is what counts as one. A parameter is declared
exactly if each of its fields is what the choice for it comes to. What a field came to once comes to
itself again, so replacing fields twice is replacing them once.

* `Parameter.declareDomain_eq_ok_iff`: which domain options declare
* `Parameter.declareChosen_eq_ok_iff`: a parameter is declared field by field
* `Parameter.replace_eq_ok_iff`: so is one that is made by a replacement
* `Parameter.replace_replace`: two replacements come to one
-/

namespace CommandTree

/-- A datum as a limit of a type; under the type of doubles, an integer counts as the double nearest
to it. -/
def Datum.under (d : Datum) (t : ValueType) : Datum :=
  match d.number? with
  | some b => .ofNumber (b.under t)
  | none => d

theorem Datum.under_of_ne {t : ValueType} (h : t ≠ .double) (d : Datum) : d.under t = d := by
  unfold under
  cases d <;> cases t <;> first | rfl | exact absurd rfl h

namespace Parameter

variable {label : String} {o : Options}

/-! ## Limits that are accepted -/

theorem integerLimit_eq_ok_iff {t : ValueType} {limit : LimitName} {lower upper : Int} {d : Datum}
    {n : { n : Int // lower ≤ n ∧ n ≤ upper }} (hl : longLeast ≤ lower)
    (hu : upper ≤ longGreatest) :
    integerLimit label t limit lower upper d = .ok n ↔ d = .integer n.val := by
  constructor
  · intro h
    unfold integerLimit at h
    split at h
    · split at h
      · cases h
      · split at h
        · cases h
          rfl
        · cases h
    · cases h
    · cases h
  · rintro rfl
    obtain ⟨hlower, hupper⟩ := n.property
    exact integerLimit_of_within n.property (by omega) (by omega)

theorem doubleLimit_double_eq_ok_iff {limit : LimitName} {y : Double}
    {x : { x : Double // x.isFinite = true }} :
    doubleLimit label limit (.double y) = .ok x ↔ y = x.val := by
  constructor
  · intro h
    simp only [doubleLimit, Bind.bind, Except.bind] at h
    split at h
    · cases h
      rfl
    · cases h
  · rintro rfl
    exact doubleLimit_of_isFinite x.property

theorem doubleLimit_eq_ok_iff {limit : LimitName} {d : Datum}
    {x : { x : Double // x.isFinite = true }} :
    doubleLimit label limit d = .ok x ↔ d.under .double = .double x.val := by
  cases d with
  | double y =>
    rw [doubleLimit_double_eq_ok_iff]
    exact Datum.double.injEq .. ▸ Iff.rfl
  | integer n =>
    simp only [Datum.under, Datum.number?, Number.under]
    cases hy : Double.ofInt? n with
    | none =>
      have hbeyond : doubleLimit label limit (.integer n) = .error (.datum .beyondDouble) := by
        simp only [doubleLimit, hy]
        rfl
      rw [hbeyond]
      constructor
      · intro h
        cases h
      · intro h
        cases h
    | some y =>
      have hrounded : doubleLimit label limit (.integer n)
          = doubleLimit label limit (.double y) := by
        simp only [doubleLimit, hy]
      rw [hrounded, doubleLimit_double_eq_ok_iff]
      exact Datum.double.injEq .. ▸ Iff.rfl
  | _ =>
    constructor
    · intro h
      cases h
    · intro h
      cases h

theorem lengthLimit_eq_ok_iff {limit : LimitName} {d : Datum} {n : Nat} :
    lengthLimit label limit d = .ok n ↔ d = .integer n := by
  cases d with
  | integer m =>
    simp only [lengthLimit, Datum.integer.injEq]
    split
    · refine iff_of_false (fun h => ?_) (by omega)
      cases h
    · rw [Except.ok.injEq]
      omega
  | _ =>
    constructor
    · intro h
      cases h
    · intro h
      cases h

theorem greatestLength_eq_ok_iff {d : Datum} {m : Option Nat} :
    greatestLength label d = .ok m ↔ d = m.elim .null fun n => .integer n := by
  by_cases hd : d = .null
  · subst hd
    cases m <;> simp [greatestLength]
  · have hlength : greatestLength label d = some <$> lengthLimit label .maxLength d := by
      cases d <;> first | rfl | exact absurd rfl hd
    rw [hlength]
    cases m with
    | none =>
      refine iff_of_false (fun h => ?_) hd
      cases hl : lengthLimit label .maxLength d <;> rw [hl] at h <;> cases h
    | some n =>
      show _ ↔ d = .integer n
      rw [← @lengthLimit_eq_ok_iff label .maxLength]
      cases lengthLimit label .maxLength d <;> simp [Functor.map, Except.map]

theorem refuseBounds_eq_ok_iff {t : ValueType} :
    refuseBounds label t o = .ok () ↔ o.least.isGiven = false ∧ o.greatest.isGiven = false := by
  unfold refuseBounds
  cases o.least.isGiven <;> cases o.greatest.isGiven <;> simp

/-! ## Domains by their limits -/

/-- A declaration that takes one limit, then the other, and then holds them against each other. -/
theorem limits_eq_ok_iff {α : Type} {first second : Except Fault α} {ordered : α → α → Prop}
    [∀ l g, Decidable (ordered l g)] {make : ∀ l g, ordered l g → SoundDomain}
    {refuse : Except Fault Unit} {d : SoundDomain} :
    (do
        let l ← first
        let g ← second
        if h : ordered l g then
          refuse
          .ok (make l g h)
        else .error (.parameter (.boundsCrossed label)) : Except Fault SoundDomain) = .ok d ↔
      ∃ l g, ∃ h : ordered l g, first = .ok l ∧ second = .ok g ∧ refuse = .ok () ∧
        make l g h = d := by
  constructor
  · intro h
    obtain ⟨l, hl, h⟩ := exists_of_bind_eq_ok h
    obtain ⟨g, hg, h⟩ := exists_of_bind_eq_ok h
    split at h
    · next hle =>
      obtain ⟨⟨⟩, hrefuse, h⟩ := exists_of_bind_eq_ok h
      exact ⟨l, g, hle, hl, hg, hrefuse, Except.ok.inj h⟩
    · cases h
  · rintro ⟨l, g, hle, rfl, rfl, rfl, rfl⟩
    simp only [Bind.bind, Except.bind, dif_pos hle]

theorem declareInteger_eq_ok_iff {least greatest : Int}
    {hd : (Domain.integer least greatest).Sound} :
    declareInteger label o = .ok ⟨.integer least greatest, hd⟩ ↔
      (o.least.orElse (.integer integerLeast)).under .integer = .integer least ∧
        (o.greatest.orElse (.integer integerGreatest)).under .integer = .integer greatest ∧
        refuseLengths label .integer o = .ok () := by
  have hwide : longLeast ≤ integerLeast ∧ integerGreatest ≤ longGreatest := by decide
  have hunder := @Datum.under_of_ne .integer nofun
  rw [hunder, hunder]
  constructor
  · intro h
    obtain ⟨l, g, hle, hl, hg, hrefuse, hmade⟩ := limits_eq_ok_iff.mp h
    cases hmade
    exact ⟨(integerLimit_eq_ok_iff hwide.1 hwide.2).mp hl,
      (integerLimit_eq_ok_iff hwide.1 hwide.2).mp hg, hrefuse⟩
  · rintro ⟨hl, hg, hrefuse⟩
    exact declareInteger_of_limits hd hl hg hrefuse

theorem declareLong_eq_ok_iff {least greatest : Int} {hd : (Domain.long least greatest).Sound} :
    declareLong label o = .ok ⟨.long least greatest, hd⟩ ↔
      (o.least.orElse (.integer longLeast)).under .long = .integer least ∧
        (o.greatest.orElse (.integer longGreatest)).under .long = .integer greatest ∧
        refuseLengths label .long o = .ok () := by
  have hunder := @Datum.under_of_ne .long nofun
  rw [hunder, hunder]
  constructor
  · intro h
    obtain ⟨l, g, hle, hl, hg, hrefuse, hmade⟩ := limits_eq_ok_iff.mp h
    cases hmade
    exact ⟨(integerLimit_eq_ok_iff (Int.le_refl _) (Int.le_refl _)).mp hl,
      (integerLimit_eq_ok_iff (Int.le_refl _) (Int.le_refl _)).mp hg, hrefuse⟩
  · rintro ⟨hl, hg, hrefuse⟩
    exact declareLong_of_limits hd hl hg hrefuse

theorem declareDouble_eq_ok_iff {least greatest : Double}
    {hd : (Domain.double least greatest).Sound} :
    declareDouble label o = .ok ⟨.double least greatest, hd⟩ ↔
      (o.least.orElse (.double Double.largest.negated)).under .double = .double least ∧
        (o.greatest.orElse (.double Double.largest)).under .double = .double greatest ∧
        refuseLengths label .double o = .ok () := by
  refine limits_eq_ok_iff.trans ?_
  simp only [doubleLimit_eq_ok_iff]
  constructor
  · rintro ⟨l, g, hle, hl, hg, hrefuse, hmade⟩
    cases hmade
    exact ⟨hl, hg, hrefuse⟩
  · rintro ⟨hl, hg, hrefuse⟩
    obtain ⟨hlower, hupper, hle⟩ := hd
    exact ⟨⟨least, hlower⟩, ⟨greatest, hupper⟩, hle, hl, hg, hrefuse, rfl⟩

theorem declareBoolean_eq_ok_iff {hd : Domain.boolean.Sound} :
    declareBoolean label o = .ok ⟨.boolean, hd⟩ ↔
      refuseBounds label .boolean o = .ok () ∧ refuseLengths label .boolean o = .ok () := by
  unfold declareBoolean
  constructor
  · intro h
    obtain ⟨⟨⟩, hbounds, h⟩ := exists_of_bind_eq_ok h
    obtain ⟨⟨⟩, hlengths, -⟩ := exists_of_bind_eq_ok h
    exact ⟨hbounds, hlengths⟩
  · rintro ⟨hbounds, hlengths⟩
    rw [hbounds, hlengths]
    rfl

theorem declareString_eq_ok_iff {minLength : Nat} {maxLength : Option Nat} {greedy : Bool}
    {hd : (Domain.string minLength maxLength greedy).Sound} :
    declareString label o = .ok ⟨.string minLength maxLength greedy, hd⟩ ↔
      o.minLength.orElse (.integer 0) = .integer minLength ∧
        o.maxLength.orElse .null = (maxLength.elim .null fun n => .integer n) ∧
        o.greedy.isTrue = greedy ∧ refuseBounds label .string o = .ok () := by
  constructor
  · intro h
    unfold declareString at h
    obtain ⟨⟨⟩, hbounds, h⟩ := exists_of_bind_eq_ok h
    obtain ⟨shortest, hmin, h⟩ := exists_of_bind_eq_ok h
    obtain ⟨longest, hmax, h⟩ := exists_of_bind_eq_ok h
    split at h
    · cases h
      exact ⟨lengthLimit_eq_ok_iff.mp hmin, greatestLength_eq_ok_iff.mp hmax, rfl, hbounds⟩
    · cases h
  · rintro ⟨hmin, hmax, hgreedy, hbounds⟩
    exact declareString_of_limits hd hmin hmax hgreedy hbounds

/-- What is declared has the type that is asked for. -/
theorem declareDomain_type {d : SoundDomain} (h : declareDomain label o = .ok d) :
    o.type = .valueType d.val.type := by
  unfold declareDomain at h
  split at h
  case h_1 htype | h_2 htype | h_3 htype =>
    obtain ⟨l, g, hle, -, -, -, rfl⟩ := limits_eq_ok_iff.mp h
    exact htype
  case h_4 htype =>
    obtain ⟨-, -, h⟩ := exists_of_bind_eq_ok h
    obtain ⟨-, -, h⟩ := exists_of_bind_eq_ok h
    cases h
    exact htype
  case h_5 htype =>
    obtain ⟨-, -, h⟩ := exists_of_bind_eq_ok h
    obtain ⟨minLength, -, h⟩ := exists_of_bind_eq_ok h
    obtain ⟨maxLength, -, h⟩ := exists_of_bind_eq_ok h
    split at h
    · cases h
      exact htype
    · cases h
  case h_6 => cases h

/-! ## Limits that settle -/

/-- A limit among options. -/
def Options.limit (o : Options) : LimitName → Datum
  | .least => o.least
  | .greatest => o.greatest
  | .minLength => o.minLength
  | .maxLength => o.maxLength

/-- What a limit comes to under a type, where something or nothing is chosen for it: a limit that
the type has is what is chosen or else what it usually is, and no other limit can be chosen. -/
def settledLimit (t : ValueType) (l : LimitName) (chosen : Datum) : Option Datum :=
  if t.hasLimit l then some ((chosen.orElse (t.usualLimit l)).under t)
  else if chosen.isGiven then none else some .null

variable {p : Parameter} {l : LimitName}

theorem settledLimit_iff_of_hasLimit (h : p.type.hasLimit l = true) :
    settledLimit p.type l (o.limit l) = some (p.limit l) ↔
      ((o.limit l).orElse (p.type.usualLimit l)).under p.type = p.limit l := by
  rw [settledLimit, if_pos h, Option.some.injEq]

/-- A limit that a parameter does not have is kept out. -/
theorem settledLimit_iff_of_not_hasLimit (h : p.type.hasLimit l = false) :
    settledLimit p.type l (o.limit l) = some (p.limit l) ↔ (o.limit l).isGiven = false := by
  have hnull : p.limit l = .null := by
    obtain ⟨label, name, domain, optional, sound⟩ := p
    cases domain <;> cases l <;> first | rfl | cases h
  rw [settledLimit, h, if_neg Bool.false_ne_true, hnull]
  cases (o.limit l).isGiven <;> simp

theorem forall_limit_iff {P : LimitName → Prop} :
    (∀ l, P l) ↔ P .least ∧ P .greatest ∧ P .minLength ∧ P .maxLength := by
  constructor
  · exact fun h => ⟨h _, h _, h _, h _⟩
  · rintro ⟨hl, hg, hmin, hmax⟩ (_ | _ | _ | _) <;> assumption

theorem greedy_of_ne_string (h : p.type ≠ .string) : p.greedy = false := by
  obtain ⟨label, name, domain, optional, sound⟩ := p
  cases domain <;> first | rfl | exact absurd rfl h

/-- Lengths are kept out of a parameter exactly if its limits of length settle. -/
theorem refuseLengths_eq_ok_iff_settled (h : p.type ≠ .string) :
    refuseLengths label p.type o = .ok () ↔
      o.greedy.isTrue = p.greedy ∧
        settledLimit p.type .minLength o.minLength = some p.minLength ∧
        settledLimit p.type .maxLength o.maxLength = some p.maxLength := by
  have hmin := @settledLimit_iff_of_not_hasLimit o p .minLength (decide_eq_false h)
  have hmax := @settledLimit_iff_of_not_hasLimit o p .maxLength (decide_eq_false h)
  simp only [Options.limit, limit] at hmin hmax
  rw [refuseLengths_eq_ok_iff, hmin, hmax, greedy_of_ne_string h, ← and_assoc, and_comm]

/-- Bounds are kept out of a parameter exactly if its limits of numbers settle. -/
theorem refuseBounds_eq_ok_iff_settled (h : p.type.isNumeric = false) :
    refuseBounds label p.type o = .ok () ↔
      settledLimit p.type .least o.least = some p.least ∧
        settledLimit p.type .greatest o.greatest = some p.greatest := by
  have hleast := @settledLimit_iff_of_not_hasLimit o p .least h
  have hgreatest := @settledLimit_iff_of_not_hasLimit o p .greatest h
  simp only [Options.limit, limit] at hleast hgreatest
  rw [refuseBounds_eq_ok_iff, hleast, hgreatest]

/-- Whether the limits of options, and whether they are greedy, settle to those of a parameter. -/
structure Settles (o : Options) (p : Parameter) : Prop where
  greedy : o.greedy.isTrue = p.greedy
  limit : ∀ l, settledLimit p.type l (o.limit l) = some (p.limit l)

theorem settles_iff_of_numeric (h : p.type.isNumeric = true) :
    Settles o p ↔
      (o.least.orElse (p.type.usualLimit .least)).under p.type = p.least ∧
        (o.greatest.orElse (p.type.usualLimit .greatest)).under p.type = p.greatest ∧
        refuseLengths label p.type o = .ok () := by
  have hstring : p.type ≠ .string := by
    intro hs
    rw [hs] at h
    cases h
  have hleast := @settledLimit_iff_of_hasLimit o p .least h
  have hgreatest := @settledLimit_iff_of_hasLimit o p .greatest h
  simp only [Options.limit, Parameter.limit] at hleast hgreatest
  rw [refuseLengths_eq_ok_iff_settled hstring, ← hleast, ← hgreatest]
  constructor
  · rintro ⟨hgreedy, hlimit⟩
    exact ⟨hlimit .least, hlimit .greatest, hgreedy, hlimit .minLength, hlimit .maxLength⟩
  · rintro ⟨hl, hg, hgreedy, hmin, hmax⟩
    exact ⟨hgreedy, forall_limit_iff.mpr ⟨hl, hg, hmin, hmax⟩⟩

/-- **Options declare a domain exactly if their limits settle to those of the domain.** -/
theorem declareDomain_eq_ok_iff :
    declareDomain label o = .ok ⟨p.domain, p.sound⟩ ↔
      o.type = .valueType p.type ∧ Settles o p := by
  by_cases htype : o.type = .valueType p.type
  · rw [and_iff_right htype]
    have hnumeric := @settles_iff_of_numeric label o p
    have hhas := @settledLimit_iff_of_hasLimit o p
    have hlengths := @refuseLengths_eq_ok_iff_settled label o p
    have hbounds := @refuseBounds_eq_ok_iff_settled label o p
    obtain ⟨word, name, domain, optional, sound⟩ := p
    unfold declareDomain
    rw [htype]
    cases domain with
    | integer least greatest => exact declareInteger_eq_ok_iff.trans (hnumeric rfl).symm
    | long least greatest => exact declareLong_eq_ok_iff.trans (hnumeric rfl).symm
    | double least greatest => exact declareDouble_eq_ok_iff.trans (hnumeric rfl).symm
    | boolean =>
      refine declareBoolean_eq_ok_iff.trans ((and_congr (hbounds rfl) (hlengths nofun)).trans ?_)
      constructor
      · rintro ⟨⟨hl, hg⟩, hgreedy, hmin, hmax⟩
        exact ⟨hgreedy, forall_limit_iff.mpr ⟨hl, hg, hmin, hmax⟩⟩
      · rintro ⟨hgreedy, hlimit⟩
        exact ⟨⟨hlimit .least, hlimit .greatest⟩, hgreedy, hlimit .minLength, hlimit .maxLength⟩
    | string shortest longest greedy =>
      have hunder := @Datum.under_of_ne .string nofun
      have hmin := @hhas .minLength rfl
      have hmax := @hhas .maxLength rfl
      rw [show Parameter.type _ = ValueType.string from rfl, hunder] at hmin hmax
      have hlongest : (longest.elim .null fun n => Datum.integer n) = Parameter.limit
          ⟨word, name, .string shortest longest greedy, optional, sound⟩ .maxLength := by
        cases longest <;> rfl
      refine declareString_eq_ok_iff.trans ?_
      rw [hlongest]
      refine (and_congr hmin.symm (and_congr hmax.symm
        (and_congr Iff.rfl (hbounds rfl)))).trans ?_
      constructor
      · rintro ⟨hmin, hmax, hgreedy, hl, hg⟩
        exact ⟨hgreedy, forall_limit_iff.mpr ⟨hl, hg, hmin, hmax⟩⟩
      · rintro ⟨hgreedy, hlimit⟩
        exact ⟨hlimit .minLength, hlimit .maxLength, hgreedy, hlimit .least, hlimit .greatest⟩
  · exact iff_of_false (fun h => htype (declareDomain_type h)) fun h => htype h.1

/-! ## Fields that settle -/

theorem declare_eq_ok_iff {name : Datum} :
    declare label name o = .ok p ↔
      p.label = label ∧ name = .string p.name.text ∧
        declareDomain label o = .ok ⟨p.domain, p.sound⟩ ∧ o.optional.isTrue = p.optional := by
  unfold declare
  constructor
  · intro h
    obtain ⟨found, hname, h⟩ := exists_of_bind_eq_ok h
    obtain ⟨domain, hdomain, h⟩ := exists_of_bind_eq_ok h
    cases h
    exact ⟨rfl, Name.declare_eq_ok_iff.mp hname, hdomain, rfl⟩
  · rintro ⟨rfl, hname, hdomain, hoptional⟩
    rw [Name.declare_eq_ok_iff.mpr hname, hdomain]
    simp only [Bind.bind, Except.bind, hoptional]

/-- What a field comes to under a type, where something or nothing is chosen for it; nothing where
that cannot be chosen. -/
def settled (t : ValueType) (f : Field) (chosen : Option Datum) : Option Datum :=
  match f with
  | .name => chosen
  | .type => some (chosen.getD (.valueType .string))
  | .limit l => settledLimit t l (chosen.getD .unset)
  | .greedy | .optional => some (.boolean (chosen.getD (.boolean false)).isTrue)

theorem forall_field_iff {P : Field → Prop} :
    (∀ f, P f) ↔ P .name ∧ P .type ∧ (∀ l, P (.limit l)) ∧ P .greedy ∧ P .optional := by
  constructor
  · exact fun h => ⟨h _, h _, fun l => h _, h _, h _⟩
  · rintro ⟨hname, htype, hlimit, hgreedy, hoptional⟩ (_ | _ | l | _ | _)
    · exact hname
    · exact htype
    · exact hlimit l
    · exact hgreedy
    · exact hoptional

theorem limit_chosen (choice : Field → Option Datum) (l : LimitName) :
    (Options.chosen choice).limit l = (choice (.limit l)).getD .unset := by
  cases l <;> rfl

/-- **A parameter is declared exactly if each of its fields is what the choice for it comes to.** -/
theorem declareChosen_eq_ok_iff {choice : Field → Option Datum} :
    declareChosen label choice = .ok p ↔
      p.label = label ∧ ∀ f, settled p.type f (choice f) = some (p.field f) := by
  have hname : (choice .name).getD .unset = .string p.name.text ↔
      choice .name = some (.string p.name.text) := by
    cases choice .name <;> simp
  have hsettles : Settles (Options.chosen choice) p ↔
      settled p.type .greedy (choice .greedy) = some (p.field .greedy) ∧
        ∀ l, settled p.type (.limit l) (choice (.limit l)) = some (p.field (.limit l)) := by
    simp only [settled, field, Option.some.injEq, Datum.boolean.injEq, ← limit_chosen]
    exact ⟨fun h => ⟨h.greedy, h.limit⟩, fun h => ⟨h.1, h.2⟩⟩
  rw [declareChosen, declare_eq_ok_iff, declareDomain_eq_ok_iff, hname, hsettles, forall_field_iff]
  simp only [settled, field, Option.some.injEq, Datum.boolean.injEq]
  constructor
  · rintro ⟨hlabel, hname, ⟨htype, hgreedy, hlimit⟩, hoptional⟩
    exact ⟨hlabel, hname, htype, hlimit, hgreedy, hoptional⟩
  · rintro ⟨hlabel, hname, htype, hlimit, hgreedy, hoptional⟩
    exact ⟨hlabel, hname, ⟨htype, hgreedy, hlimit⟩, hoptional⟩

/-- What a field came to comes to itself again. -/
theorem settled_own (p : Parameter) (f : Field) :
    settled p.type f (p.own (keptBy []) f) = some (p.field f) := by
  have h := p.declareChosen_own (keptBy [])
  rw [widened_keptBy_nil] at h
  exact (declareChosen_eq_ok_iff.mp h).2 f

/-! ## Replacing twice -/

variable {q : Parameter} {overrides : Catalog Datum}

/-- A replacement without a type declares what it says, over the parameter's own fields. -/
theorem replace_eq_declareChosen
    (hwords : ∀ entry ∈ overrides.entries, ∃ f : Field, entry.1 = f.word)
    (htype : overrides.get? "type" = none) :
    p.replace false overrides.entries = declareChosen p.label fun f =>
      (overrides.get? f.word).or (p.own (keptBy []) f) := by
  have hretyped : (overrides.entries.any fun entry => entry.1 = "type") = false := by
    rw [List.any_eq_false]
    intro entry hentry heq
    have hget := Catalog.get?_of_mem_entries hentry
    rw [of_decide_eq_true heq, htype] at hget
    cases hget
  rw [replace_eq p hwords, hretyped]
  congr 1
  funext f
  have hcarried := @restated_eq_own p [] nofun f
  rw [said, Catalog.ofList_entries, ← hcarried]
  rfl

/-- **A replacement without a type leads to a parameter exactly if each of its fields is what is
said of it, or the parameter's own, comes to.** -/
theorem replace_eq_ok_iff (htype : overrides.get? "type" = none) :
    p.replace false overrides.entries = .ok q ↔
      (∀ entry ∈ overrides.entries, ∃ f : Field, entry.1 = f.word) ∧ q.label = p.label ∧
        ∀ f, settled q.type f ((overrides.get? f.word).or (p.own (keptBy []) f))
          = some (q.field f) := by
  constructor
  · intro h
    have hwords := exists_word_of_replace h
    rw [replace_eq_declareChosen hwords htype] at h
    exact ⟨hwords, declareChosen_eq_ok_iff.mp h⟩
  · rintro ⟨hwords, hq⟩
    rw [replace_eq_declareChosen hwords htype]
    exact declareChosen_eq_ok_iff.mpr hq

/-- A replacement without a type leaves the type as it is. -/
theorem type_of_replace (htype : overrides.get? "type" = none)
    (h : p.replace false overrides.entries = .ok q) : q.type = p.type := by
  have hsettled := ((replace_eq_ok_iff htype).mp h).2.2 .type
  rw [show overrides.get? Field.type.word = none from htype] at hsettled
  exact (Datum.valueType.inj (Option.some.inj hsettled)).symm

/-- **Two replacements come to one.** Replacing fields of a parameter, and then fields of what comes
of it, leads to the same as replacing all of them at once, the later ones put over the earlier ones;
as long as none of them is the type. -/
theorem replace_replace {a b c : Parameter} {earlier later : Catalog Datum}
    (hearlier : earlier.get? "type" = none) (hlater : later.get? "type" = none)
    (hb : a.replace false earlier.entries = .ok b) (hc : b.replace false later.entries = .ok c) :
    a.replace false (earlier.overlaid later).entries = .ok c := by
  have hboth : (earlier.overlaid later).get? "type" = none := by
    rw [Catalog.get?_overlaid, hearlier, hlater]
    rfl
  have hkept := type_of_replace hlater hc
  obtain ⟨hwordsb, hlabelb, hb⟩ := (replace_eq_ok_iff hearlier).mp hb
  obtain ⟨hwordsc, hlabelc, hc⟩ := (replace_eq_ok_iff hlater).mp hc
  refine (replace_eq_ok_iff hboth).mpr ⟨?_, hlabelc.trans hlabelb, fun f => ?_⟩
  · intro entry hentry
    have hkey : entry.1 ∈ (earlier.overlaid later).keys := List.mem_map_of_mem hentry
    rw [Catalog.overlaid, Catalog.keys_ofList, List.mem_eraseDups, List.mem_map] at hkey
    obtain ⟨given, hgiven, hword⟩ := hkey
    rw [← hword]
    exact (List.mem_append.mp hgiven).elim (hwordsb given) (hwordsc given)
  · rw [Catalog.get?_overlaid]
    have hcf := hc f
    cases hsaid : later.get? f.word with
    | some d =>
      -- what is said last counts, with or without the other replacement
      rw [hsaid] at hcf
      exact hcf
    | none =>
      -- the second replacement leaves what the first one came to
      rw [hsaid, Option.none_or, hkept, settled_own] at hcf
      rw [hkept, ← hcf, Option.none_or]
      exact hb f

/-- An amount is first given a limit and marked as optional by a number, and then another limit. -/
theorem replace_replace_amount :
    ∃ b c, amountParameter.replace false
          (Catalog.ofList [("max", .integer 50), ("optional", .integer 2)]).entries = .ok b ∧
      b.replace false (Catalog.ofList [("max", .integer 20)]).entries = .ok c ∧
      c.greatest = .integer 20 ∧ c.optional = true ∧
      amountParameter.replace false
        ((Catalog.ofList [("max", .integer 50), ("optional", .integer 2)]).overlaid
          (Catalog.ofList [("max", .integer 20)])).entries = .ok c := by
  have h50 : (Domain.integer 1 50).Sound := ⟨by decide, by decide, by decide⟩
  have h20 : (Domain.integer 1 20).Sound := ⟨by decide, by decide, by decide⟩
  have hfirst : amountParameter.replace false
        (Catalog.ofList [("max", .integer 50), ("optional", .integer 2)]).entries
      = .ok { amountParameter with domain := .integer 1 50, optional := true, sound := h50 } := by
    refine (replace_eq_ok_iff rfl).mpr ⟨?_, rfl, fun f => ?_⟩
    · intro entry hentry
      rcases List.mem_cons.mp hentry with rfl | hentry
      · exact ⟨.limit .greatest, rfl⟩
      · exact ⟨.optional, List.mem_singleton.mp hentry ▸ rfl⟩
    · rcases f with _ | _ | (_ | _ | _ | _) | _ | _ <;> rfl
  have hsecond : Parameter.replace
        { amountParameter with domain := .integer 1 50, optional := true, sound := h50 } false
        (Catalog.ofList [("max", .integer 20)]).entries
      = .ok { amountParameter with domain := .integer 1 20, optional := true, sound := h20 } := by
    refine (replace_eq_ok_iff rfl).mpr ⟨?_, rfl, fun f => ?_⟩
    · intro entry hentry
      exact ⟨.limit .greatest, List.mem_singleton.mp hentry ▸ rfl⟩
    · rcases f with _ | _ | (_ | _ | _ | _) | _ | _ <;> rfl
  exact ⟨_, _, hfirst, hsecond, rfl, rfl, replace_replace rfl rfl hfirst hsecond⟩

end Parameter

end CommandTree
