import CommandTree.Proofs.Parameter.Bounds

/-!
# Which limits of numbers can be declared

Bounds call for an answer: to be declared if each of them fits and both are in order, and otherwise
to be refused for the first fault. They get it unless one of them is beyond the doubles, or their
first fault is none once they are rounded.

* `Judged`: the answer that bounds call for
* `Parameter.declareBetween_iff`: which bounds get it, and what the others get
-/

namespace CommandTree

open Text

/-- The answer that bounds of a type with a full range call for. They are declared exactly if each
bound that is given fits and both are in order, and otherwise refused for the first fault. -/
structure Judged (label : String) (t : ValueType) (lower upper : Number) (lo hi : Option Number)
    (answer : Except Fault Parameter) : Prop where
  declared_iff : (∃ p, answer = .ok p) ↔
    (∀ b, lo = some b → b.Fits t) ∧ (∀ b, hi = some b → b.Fits t) ∧
      (lo.getD lower).le (hi.getD upper) = true
  refused_iff : ∀ fault, answer = .error fault ↔
    ∃ f, fault = .parameter f ∧
      FirstFault label t (lo.getD lower) (hi.getD upper) fault.kind f

/-! ## Declaring one bound -/

/-- What declaring one bound leads to: it is judged as it is rounded. -/
inductive BoundOutcome (label : String) (t : ValueType) (limit : LimitName) (b : Number) :
    Except Fault Number → Prop
  | beyond (h : b.IsBeyond) : BoundOutcome label t limit b (.error (.datum .beyondDouble))
  | kept (h : (b.under t).Fits t) : BoundOutcome label t limit b (.ok (b.under t))
  | refused (hnear : ¬ b.IsBeyond) {kind : FaultKind} {f : ParameterFault}
      (h : BoundFault label t limit (b.under t) kind f) :
    BoundOutcome label t limit b (.error (.parameter f))

namespace Parameter

variable {label : String} {limit : LimitName} {t : ValueType}

theorem integerLimit_outcome {lower upper : Int}
    (hrange : t.range? = some (.integer lower, .integer upper)) {b : Number} {d : Datum}
    (hd : d = .ofNumber b) :
    BoundOutcome label t limit b ((fun n => Number.integer n.val) <$>
      integerLimit label t limit lower upper d) := by
  have hunder := Number.under_of_integral hrange b
  subst hd
  cases b with
  | double x =>
    refine .refused (Number.not_isBeyond_double x) (.notInteger ?_)
    rw [hunder]
    rintro (rfl | ⟨n, h⟩)
    · cases hrange
    · cases h
  | integer n =>
    unfold integerLimit
    simp only [Datum.ofNumber, Option.isNone_iff_eq_none, Double.ofInt?_eq_none_iff]
    split
    · next hfar => exact .beyond (Number.isBeyond_integer_iff.mpr hfar)
    · next hnear =>
      split
      · next h =>
        have hkept : BoundOutcome label t limit (.integer n) (.ok ((Number.integer n).under t)) :=
          .kept (by rwa [hunder, Number.fits_integer_iff hrange])
        rwa [hunder] at hkept
      · next h =>
        have hkind : (Number.integer n).IsOfKind t := .inr ⟨n, rfl⟩
        have hout : BoundFault label t limit (.integer n) .value (.boundOutside t label limit) :=
          .outside hkind fun hin => h ((Number.fits_integer_iff hrange).mp ⟨hkind, hin⟩)
        rw [← hunder] at hout
        exact .refused (fun hfar => hnear (Number.isBeyond_integer_iff.mp hfar)) hout

/-- A bound that counts as a double is judged like that double. -/
theorem doubleLimit_double_outcome {b : Number} {x : Double} (hx : b.under .double = .double x)
    (hnear : ¬ b.IsBeyond) :
    BoundOutcome label .double limit b ((fun x => Number.double x.val) <$>
      doubleLimit label limit (.double x)) := by
  simp only [doubleLimit, Bind.bind, Except.bind]
  split
  · next h =>
    have hkept : BoundOutcome label .double limit b (.ok (b.under .double)) :=
      .kept ⟨.inl rfl, hx ▸ Double.isFinite_iff_isWithin.mp h⟩
    rwa [hx] at hkept
  · next h =>
    exact .refused hnear (.outside (.inl rfl)
      fun hin => h (Double.isFinite_iff_isWithin.mpr (hx ▸ hin)))

theorem doubleLimit_outcome {b : Number} {d : Datum} (hd : d = .ofNumber b) :
    BoundOutcome label .double limit b ((fun x => Number.double x.val) <$>
      doubleLimit label limit d) := by
  subst hd
  cases b with
  | double x => exact doubleLimit_double_outcome rfl (Number.not_isBeyond_double x)
  | integer n =>
    cases hx : Double.ofInt? n with
    | none =>
      simp only [doubleLimit, Datum.ofNumber, hx]
      exact .beyond (Number.isBeyond_integer_iff.mpr (Double.ofInt?_eq_none_iff.mp hx))
    | some x =>
      have hnear : ¬ (Number.integer n).IsBeyond := by
        rw [Number.isBeyond_integer_iff, ← Double.ofInt?_eq_none_iff, hx]
        nofun
      have hrounded : doubleLimit label limit (.integer n)
          = doubleLimit label limit (.double x) := by
        simp only [doubleLimit, hx]
      rw [Datum.ofNumber, hrounded]
      exact doubleLimit_double_outcome (by simp [Number.under, hx]) hnear

end Parameter

/-! ## Declaring both bounds -/

/-- A rounded bound that fits is none beyond the doubles. -/
theorem Number.not_isBeyond_of_fits_under {t : ValueType} {b : Number} (h : (b.under t).Fits t) :
    ¬ b.IsBeyond := by
  intro hfar
  rw [under_of_isBeyond hfar] at h
  exact not_fits_of_isBeyond hfar h

theorem ReachesBeyond.not_admitted {t : ValueType} {least greatest : Number}
    (h : ReachesBeyond t least greatest) :
    ¬ ((least.under t).Fits t ∧ (greatest.under t).Fits t) := by
  rintro ⟨hl, hg⟩
  rcases h with h | ⟨-, h⟩
  · exact Number.not_isBeyond_of_fits_under hl h
  · exact Number.not_isBeyond_of_fits_under hg h

/-- What declaring a pair of bounds leads to. -/
inductive PairOutcome (label : String) (t : ValueType) (least greatest : Number) :
    Except Fault (Number × Number) → Prop
  | beyond (h : ReachesBeyond t least greatest) :
    PairOutcome label t least greatest (.error (.datum .beyondDouble))
  | kept (hl : (least.under t).Fits t) (hg : (greatest.under t).Fits t)
      (hle : (least.under t).le (greatest.under t) = true) :
    PairOutcome label t least greatest (.ok (least.under t, greatest.under t))
  | refused (hnear : ¬ ReachesBeyond t least greatest) {kind : FaultKind} {f : ParameterFault}
      (h : FirstFault label t (least.under t) (greatest.under t) kind f) :
    PairOutcome label t least greatest (.error (.parameter f))

namespace PairOutcome

variable {label : String} {t : ValueType} {least greatest : Number}
  {outcome : Except Fault (Number × Number)}

/-- A pair of bounds is declared exactly if it is admitted and in order when it is rounded. -/
theorem ok_iff (h : PairOutcome label t least greatest outcome) :
    (∃ limits, outcome = .ok limits) ↔
      (least.under t).Fits t ∧ (greatest.under t).Fits t ∧
        (least.under t).le (greatest.under t) = true := by
  cases h with
  | beyond hfar =>
    refine iff_of_false ?_ fun h => hfar.not_admitted ⟨h.1, h.2.1⟩
    rintro ⟨limits, h⟩
    cases h
  | kept hl hg hle => exact iff_of_true ⟨_, rfl⟩ ⟨hl, hg, hle⟩
  | refused hnear h =>
    refine iff_of_false ?_ h.not_in_order
    rintro ⟨limits, h⟩
    cases h

/-- Short of the integers beyond the doubles, a pair of bounds is refused for the first fault of
the rounded bounds. -/
theorem error_iff (h : PairOutcome label t least greatest outcome)
    (hnear : ¬ ReachesBeyond t least greatest) {fault : Fault} :
    outcome = .error fault ↔
      ∃ f, fault = .parameter f ∧
        FirstFault label t (least.under t) (greatest.under t) fault.kind f := by
  cases h with
  | beyond hfar => exact absurd hfar hnear
  | kept hl hg hle =>
    constructor
    · intro h
      cases h
    · rintro ⟨f, -, hf⟩
      exact absurd ⟨hl, hg, hle⟩ hf.not_in_order
  | @refused _ kind f h =>
    have hkind : (Fault.parameter f).kind = kind := h.kind_eq
    constructor
    · intro hfault
      cases hfault
      exact ⟨f, rfl, hkind.symm ▸ h⟩
    · rintro ⟨f', rfl, hf⟩
      rw [h.unique hf]

theorem of_reachesBeyond (h : PairOutcome label t least greatest outcome)
    (hfar : ReachesBeyond t least greatest) : outcome = .error (.datum .beyondDouble) := by
  cases h with
  | beyond _ => rfl
  | kept hl hg _ => exact absurd ⟨hl, hg⟩ hfar.not_admitted
  | refused hnear _ => exact absurd hfar hnear

end PairOutcome

namespace Parameter

variable {label : String} {t : ValueType} {least greatest : Number}

/-- Two bounds, one after the other, and their order. -/
def pairUp (label : String) (first second : Except Fault Number) :
    Except Fault (Number × Number) := do
  let least ← first
  let greatest ← second
  if least.le greatest = true then .ok (least, greatest)
  else .error (.parameter (.boundsCrossed label))

theorem pairUp_outcome {first second : Except Fault Number}
    (hfirst : BoundOutcome label t .least least first)
    (hsecond : BoundOutcome label t .greatest greatest second) :
    PairOutcome label t least greatest (pairUp label first second) := by
  cases hfirst with
  | beyond h => exact .beyond (.inl h)
  | refused hnear h =>
    refine .refused ?_ (.least h)
    rintro (hfar | ⟨hl, -⟩)
    · exact hnear hfar
    · exact h.not_fits hl
  | kept hl =>
    cases hsecond with
    | beyond h => exact .beyond (.inr ⟨hl, h⟩)
    | refused hnear h =>
      refine .refused ?_ (.greatest hl h)
      rintro (hfar | ⟨-, hfar⟩)
      · exact Number.not_isBeyond_of_fits_under hl hfar
      · exact hnear hfar
    | kept hg =>
      show PairOutcome label t least greatest (if _ then _ else _)
      split
      · next hle => exact .kept hl hg hle
      · next hle =>
        exact .refused (fun hfar => hfar.not_admitted ⟨hl, hg⟩)
          (.crossed hl hg (by simpa using hle))

/-! ## Declaring a domain -/

/-- The options of a type and its bounds; a bound that is not given is left out. -/
def boundOptions (t : ValueType) (lo hi : Option Number) : Options where
  type := .valueType t
  least := lo.elim .unset .ofNumber
  greatest := hi.elim .unset .ofNumber

theorem orElse_bound (given : Option Number) (usual : Number) :
    (given.elim Datum.unset .ofNumber).orElse (.ofNumber usual)
      = .ofNumber (given.getD usual) := by
  cases given with
  | none => rfl
  | some b => cases b <;> rfl

/-- A declaration that takes one limit, then the other, and then holds them against each other has
the limits that are paired up, where it keeps lengths out. -/
theorem limits_pairUp {α : Type} {first second : Except Fault α} {ordered : α → α → Prop}
    [∀ l g, Decidable (ordered l g)] {make : ∀ l g, ordered l g → SoundDomain}
    {refuse : Except Fault Unit} (hrefuse : refuse = .ok ()) (num : α → Number)
    (hordered : ∀ l g, ordered l g ↔ (num l).le (num g) = true)
    (hmake : ∀ l g h, (make l g h).val.limits? = some (num l, num g)) :
    (fun d => d.val.limits?) <$> (do
        let l ← first
        let g ← second
        if h : ordered l g then
          refuse
          .ok (make l g h)
        else .error (.parameter (.boundsCrossed label)) : Except Fault SoundDomain)
      = some <$> pairUp label (num <$> first) (num <$> second) := by
  unfold pairUp
  cases first with
  | error f => rfl
  | ok l =>
    cases second with
    | error f => rfl
    | ok g =>
      simp only [Bind.bind, Except.bind, Functor.map, Except.map, hrefuse]
      by_cases h : ordered l g
      · simp only [dif_pos h, if_pos ((hordered l g).mp h), hmake]
      · simp only [dif_neg h, if_neg (mt (hordered l g).mpr h)]

/-- The limits of a declared domain come from its two bounds alone. -/
theorem declareDomain_outcome {lower upper : Number} (hrange : t.range? = some (lower, upper))
    (label : String) (lo hi : Option Number) :
    ∃ outcome, PairOutcome label t (lo.getD lower) (hi.getD upper) outcome ∧
      (fun d => d.val.limits?) <$> declareDomain label (boundOptions t lo hi)
        = some <$> outcome := by
  have hle : ∀ m n : Int, m ≤ n ↔ (Number.integer m).le (.integer n) = true := by
    intro m n
    rw [Number.le_integer, decide_eq_true_eq]
  cases t with
  | string | boolean => cases hrange
  | integer =>
    cases hrange
    exact ⟨_, pairUp_outcome (integerLimit_outcome rfl (orElse_bound lo (.integer _)))
        (integerLimit_outcome rfl (orElse_bound hi (.integer _))),
      limits_pairUp rfl _ (fun l g => hle l.val g.val) fun _ _ _ => rfl⟩
  | long =>
    cases hrange
    exact ⟨_, pairUp_outcome (integerLimit_outcome rfl (orElse_bound lo (.integer _)))
        (integerLimit_outcome rfl (orElse_bound hi (.integer _))),
      limits_pairUp rfl _ (fun l g => hle l.val g.val) fun _ _ _ => rfl⟩
  | double =>
    cases hrange
    exact ⟨_, pairUp_outcome (doubleLimit_outcome (orElse_bound lo (.double _)))
        (doubleLimit_outcome (orElse_bound hi (.double _))),
      limits_pairUp rfl _ (fun l g => Iff.rfl) fun _ _ _ => rfl⟩

/-! ## Declaring a parameter -/

/-- The declaration of a parameter with a name, a type and bounds. -/
def declareBetween (label : String) (name : Name) (t : ValueType) (lo hi : Option Number) :
    Except Fault Parameter :=
  declareWith label (.string name.text)
    [("type", .valueType t), (LimitName.least.word, lo.elim .unset .ofNumber),
      (LimitName.greatest.word, hi.elim .unset .ofNumber)]

theorem declareBetween_eq (label : String) (name : Name) (t : ValueType)
    (lo hi : Option Number) :
    declareBetween label name t lo hi
      = (fun d => ⟨label, name, d.val, false, d.property⟩) <$>
          declareDomain label (boundOptions t lo hi) := by
  have hoptions : Options.ofList
      [("type", .valueType t), (LimitName.least.word, lo.elim .unset .ofNumber),
        (LimitName.greatest.word, hi.elim .unset .ofNumber)] = .ok (boundOptions t lo hi) := rfl
  rw [declareBetween, declareWith, hoptions]
  simp only [Bind.bind, Except.bind, declare, Name.declare_text]
  cases declareDomain label (boundOptions t lo hi) <;> rfl

/-- The outcome of a declaration is that of its two bounds. -/
theorem declareBetween_outcome {lower upper : Number} (hrange : t.range? = some (lower, upper))
    (label : String) (name : Name) (lo hi : Option Number) :
    ∃ outcome, PairOutcome label t (lo.getD lower) (hi.getD upper) outcome ∧
      ((∃ p, declareBetween label name t lo hi = .ok p) ↔ ∃ limits, outcome = .ok limits) ∧
      ∀ fault, declareBetween label name t lo hi = .error fault ↔ outcome = .error fault := by
  obtain ⟨outcome, houtcome, hlimits⟩ := declareDomain_outcome hrange label lo hi
  refine ⟨outcome, houtcome, ?_⟩
  rw [declareBetween_eq]
  cases hd : declareDomain label (boundOptions t lo hi) with
  | error f =>
    rw [hd] at hlimits
    cases outcome with
    | ok limits => cases hlimits
    | error f' =>
      cases hlimits
      simp [Functor.map, Except.map]
  | ok d =>
    rw [hd] at hlimits
    cases outcome with
    | ok limits => simp [Functor.map, Except.map]
    | error f' => cases hlimits

/-- A declaration that comes to an integer beyond the doubles fails for it. -/
theorem declareBetween_of_reachesBeyond {lower upper : Number}
    (hrange : t.range? = some (lower, upper)) (label : String) (name : Name)
    {lo hi : Option Number} (h : ReachesBeyond t (lo.getD lower) (hi.getD upper)) :
    declareBetween label name t lo hi = .error (.datum .beyondDouble) := by
  obtain ⟨outcome, houtcome, -, herror⟩ := declareBetween_outcome hrange label name lo hi
  exact (herror _).mpr (houtcome.of_reachesBeyond h)

/-- A bound that is not given is not rounded. -/
theorem getD_map_under {lower upper : Number} (hrange : t.range? = some (lower, upper))
    (given : Option Number) :
    (given.map (·.under t)).getD lower = (given.getD lower).under t ∧
      (given.map (·.under t)).getD upper = (given.getD upper).under t := by
  cases t with
  | string | boolean => cases hrange
  | integer | long | double =>
    cases hrange
    cases given <;> exact ⟨rfl, rfl⟩

/-- In the answer that bounds call for, one that is not given is admitted in any case. -/
theorem judged_iff {lower upper : Number} (hrange : t.range? = some (lower, upper))
    {lo hi : Option Number} {answer : Except Fault Parameter} :
    Judged label t lower upper lo hi answer ↔
      ((∃ p, answer = .ok p) ↔ (lo.getD lower).Fits t ∧ (hi.getD upper).Fits t ∧
        (lo.getD lower).le (hi.getD upper) = true) ∧
      ∀ fault, answer = .error fault ↔ ∃ f, fault = .parameter f ∧
        FirstFault label t (lo.getD lower) (hi.getD upper) fault.kind f := by
  obtain ⟨hlower, hupper⟩ := Number.fits_range hrange
  rw [Number.fits_getD_iff hlower, Number.fits_getD_iff hupper]
  exact ⟨fun h => ⟨h.declared_iff, h.refused_iff⟩, fun h => ⟨h.1, h.2⟩⟩

/-- A declaration that does not come to an integer beyond the doubles is judged by the rounded
bounds. -/
theorem judged_rounded {lower upper : Number} (hrange : t.range? = some (lower, upper))
    (label : String) (name : Name) {lo hi : Option Number}
    (hnear : ¬ ReachesBeyond t (lo.getD lower) (hi.getD upper)) :
    Judged label t lower upper (lo.map (·.under t)) (hi.map (·.under t))
      (declareBetween label name t lo hi) := by
  obtain ⟨outcome, houtcome, hok, herror⟩ := declareBetween_outcome hrange label name lo hi
  rw [judged_iff hrange, (getD_map_under hrange lo).1, (getD_map_under hrange hi).2]
  exact ⟨hok.trans houtcome.ok_iff, fun fault => (herror fault).trans (houtcome.error_iff hnear)⟩

/-- Where rounding removes no first fault, rounded bounds call for the same answer. -/
theorem judged_rounded_iff {lower upper : Number} (hrange : t.range? = some (lower, upper))
    {lo hi : Option Number} (h : ¬ RoundsAway t (lo.getD lower) (hi.getD upper))
    {answer : Except Fault Parameter} :
    Judged label t lower upper (lo.map (·.under t)) (hi.map (·.under t)) answer ↔
      Judged label t lower upper lo hi answer := by
  rw [judged_iff hrange, judged_iff hrange, (getD_map_under hrange lo).1,
    (getD_map_under hrange hi).2, RoundsAway.in_order_iff h]
  simp only [RoundsAway.firstFault_iff h]

/-- Where rounding removes the first fault, the bounds call for another answer. -/
theorem not_judged_of_roundsAway {lower upper : Number} (hrange : t.range? = some (lower, upper))
    {lo hi : Option Number} (h : RoundsAway t (lo.getD lower) (hi.getD upper))
    {answer : Except Fault Parameter}
    (hrounded : Judged label t lower upper (lo.map (·.under t)) (hi.map (·.under t)) answer) :
    ¬ Judged label t lower upper lo hi answer := by
  intro hgiven
  obtain ⟨f, hfault, hnone⟩ := h.exists_fault label
  have hrefused : answer = .error (.parameter f) :=
    (hgiven.refused_iff _).mpr ⟨f, rfl, hfault⟩
  rw [judged_iff hrange, (getD_map_under hrange lo).1, (getD_map_under hrange hi).2] at hrounded
  obtain ⟨f', hf', hround⟩ := (hrounded.2 _).mp hrefused
  cases hf'
  exact hnone _ hround

/--
**Bounds get the answer that they call for, unless they reach beyond the doubles or rounding removes
their first fault.** Bounds that reach beyond the doubles are refused for that, and all others are
judged as they are rounded.
-/
theorem declareBetween_iff {lower upper : Number} (hrange : t.range? = some (lower, upper))
    (label : String) (name : Name) (lo hi : Option Number) :
    (Judged label t lower upper lo hi (declareBetween label name t lo hi) ↔
        ¬ ReachesBeyond t (lo.getD lower) (hi.getD upper) ∧
          ¬ RoundsAway t (lo.getD lower) (hi.getD upper)) ∧
      (ReachesBeyond t (lo.getD lower) (hi.getD upper) →
        declareBetween label name t lo hi = .error (.datum .beyondDouble)) ∧
      (¬ ReachesBeyond t (lo.getD lower) (hi.getD upper) →
        Judged label t lower upper (lo.map (·.under t)) (hi.map (·.under t))
          (declareBetween label name t lo hi)) := by
  have hbeyond := @declareBetween_of_reachesBeyond t lower upper hrange label name lo hi
  have hrounded := @judged_rounded t lower upper hrange label name lo hi
  refine ⟨⟨fun hjudged => ?_, fun h => ?_⟩, hbeyond, hrounded⟩
  · have hnear : ¬ ReachesBeyond t (lo.getD lower) (hi.getD upper) := by
      intro hfar
      obtain ⟨f, hf, -⟩ := (hjudged.refused_iff _).mp (hbeyond hfar)
      cases hf
    exact ⟨hnear, fun haway => not_judged_of_roundsAway hrange haway (hrounded hnear) hjudged⟩
  · exact (judged_rounded_iff hrange h.2).mp (hrounded h.1)

/-- Bounds of integers that are the wrong way round are refused for their order. -/
theorem declareBetween_iff_crossed :
    Judged defaultLabel .integer (.integer integerLeast) (.integer integerGreatest)
        (some (.integer 5)) (some (.integer 1))
        (declareBetween defaultLabel ⟨"amount", by decide⟩ .integer (some (.integer 5))
          (some (.integer 1))) ∧
      declareBetween defaultLabel ⟨"amount", by decide⟩ .integer (some (.integer 5))
          (some (.integer 1))
        = .error (.parameter (.boundsCrossed defaultLabel)) := by
  have hleast : (Number.integer 5).Fits .integer := (Number.fits_integer_iff rfl).mpr (by decide)
  have hgreatest : (Number.integer 1).Fits .integer :=
    (Number.fits_integer_iff rfl).mpr (by decide)
  have hcrossed : (Number.integer 5).le (.integer 1) = false := Number.le_integer 5 1
  have hnear : ¬ ReachesBeyond .integer (.integer 5) (.integer 1) :=
    fun hfar => hfar.not_admitted ⟨hleast, hgreatest⟩
  have haway : ¬ RoundsAway .integer (.integer 5) (.integer 1) := by
    rintro (⟨hnot, -⟩ | ⟨-, hnot, -⟩ | ⟨-, -, -, hle⟩)
    · exact hnot hleast
    · exact hnot hgreatest
    · exact Bool.false_ne_true (hcrossed.symm.trans hle)
  have hjudged := (@declareBetween_iff .integer _ _ rfl defaultLabel ⟨"amount", by decide⟩
    (some (.integer 5)) (some (.integer 1))).1.mpr ⟨hnear, haway⟩
  exact ⟨hjudged, (hjudged.refused_iff _).mpr ⟨_, rfl, .crossed hleast hgreatest hcrossed⟩⟩

/-- Bounds that are admitted and in order when they are rounded are declared. -/
theorem exists_declared {lower upper : Number} (hrange : t.range? = some (lower, upper))
    (label : String) (name : Name) {lo hi : Option Number}
    (hl : ((lo.getD lower).under t).Fits t) (hg : ((hi.getD upper).under t).Fits t)
    (hle : ((lo.getD lower).under t).le ((hi.getD upper).under t) = true) :
    ∃ p, declareBetween label name t lo hi = .ok p := by
  obtain ⟨outcome, houtcome, hok, -⟩ := declareBetween_outcome hrange label name lo hi
  exact hok.mpr (houtcome.ok_iff.mpr ⟨hl, hg, hle⟩)

/-- The integer that comes after the largest double. -/
def pastLargest : Int := (Nat.pow 2 1024 - Nat.pow 2 971 + 1 : Nat)

/-- Bounds that get another answer than they call for: one far outside the full range, two that are
the wrong way round before they are rounded, of which the first has 54 bits, and one just outside
the range of doubles. -/
theorem far_and_rounded_bounds_are_judged_otherwise :
    (FirstFault defaultLabel .integer (.integer (powerOfTen 400)) (.integer integerGreatest)
          .value (.boundOutside .integer defaultLabel .least) ∧
        declareBetween defaultLabel ⟨"amount", by decide⟩ .integer
            (some (.integer (powerOfTen 400))) none
          = .error (.datum .beyondDouble) ∧
        (Fault.datum .beyondDouble).kind ≠ .type ∧ (Fault.datum .beyondDouble).kind ≠ .value) ∧
      (FirstFault defaultLabel .double (.integer 9007199254740993) (.integer 9007199254740992)
          .value (.boundsCrossed defaultLabel) ∧
        ∃ p, declareBetween defaultLabel ⟨"amount", by decide⟩ .double
          (some (.integer 9007199254740993)) (some (.integer 9007199254740992)) = .ok p) ∧
      (FirstFault defaultLabel .double (.double Double.largest.negated) (.integer pastLargest)
          .value (.boundOutside .double defaultLabel .greatest) ∧
        ∃ p, declareBetween defaultLabel ⟨"amount", by decide⟩ .double none
          (some (.integer pastLargest)) = .ok p) := by
  have hfar : (Number.integer (powerOfTen 400)).IsBeyond :=
    Number.isBeyond_integer_iff.mpr (by decide +kernel)
  have hlargest : Double.ofInt? pastLargest = some .largest := by decide +kernel
  obtain ⟨hlowest, hhighest⟩ := Number.fits_range (t := .double) rfl
  -- the two integers are taken for one double
  obtain ⟨x, hx⟩ := @Double.exists_ofInt? 9007199254740992 (by decide) (by decide)
  have hx' : Double.ofInt? 9007199254740993 = some x := by
    rw [← hx]
    decide +kernel
  have hfits : (Number.double x).Fits .double :=
    ⟨.inl rfl, Double.isFinite_iff_isWithin.mp (Double.isFinite_of_ofInt? hx)⟩
  refine ⟨⟨?_, ?_, nofun, nofun⟩, ⟨?_, ?_⟩, ⟨?_, ?_⟩⟩
  · have hkind : (Number.integer (powerOfTen 400)).IsOfKind .integer := .inr ⟨_, rfl⟩
    exact .least (.outside hkind fun hin => Number.not_fits_of_isBeyond hfar ⟨hkind, hin⟩)
  · exact @declareBetween_of_reachesBeyond .integer _ _ rfl _ _ (some (.integer (powerOfTen 400)))
      none (.inl hfar)
  · refine .crossed ⟨.inl rfl, _, _, rfl, ?_, ?_⟩ ⟨.inl rfl, _, _, rfl, ?_, ?_⟩ ?_ <;>
      decide +kernel
  · refine exists_declared rfl _ _ ?_ ?_ ?_ <;>
      simp only [Option.getD_some, Number.under, hx, hx', Option.elim_some]
    · exact hfits
    · exact hfits
    · exact Number.le_of_takenFor (.integer hx) (.integer hx) (by decide)
  · refine .greatest hlowest (.outside (.inl rfl) ?_)
    rintro ⟨lower, upper, hrange, -, hle⟩
    cases hrange
    revert hle
    decide +kernel
  · refine exists_declared rfl _ _ hlowest.under ?_ ?_ <;>
      simp only [Option.getD_some, Option.getD_none, Number.under, hlargest, Option.elim_some]
    · exact hhighest
    · decide +kernel

end Parameter

end CommandTree
