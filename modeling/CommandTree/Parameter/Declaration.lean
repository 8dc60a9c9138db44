import CommandTree.Name.Declaration

/-!
# Declaring parameters

A parameter is declared with a name and options. Each option may be anything that a host hands in,
and is checked in a fixed order: the name, the type, the limits of numbers, the limits of length,
and whether the parameter is greedy. Limits that are not given are those of the full range of the
type.

* `refuseLengths_eq_ok_iff`: which options keep the lengths out
-/

namespace CommandTree.Parameter

/-- What a parameter is declared with, besides its name. -/
structure Options where
  type : Datum := .valueType .string
  least : Datum := .unset
  greatest : Datum := .unset
  minLength : Datum := .unset
  maxLength : Datum := .unset
  greedy : Datum := .boolean false
  optional : Datum := .boolean false

namespace Options

/-- The options with the one of the given word set. -/
def assign (o : Options) (word : String) (d : Datum) : Except Fault Options :=
  if word = "type" then .ok { o with type := d }
  else if word = LimitName.least.word then .ok { o with least := d }
  else if word = LimitName.greatest.word then .ok { o with greatest := d }
  else if word = LimitName.minLength.word then .ok { o with minLength := d }
  else if word = LimitName.maxLength.word then .ok { o with maxLength := d }
  else if word = "greedy" then .ok { o with greedy := d }
  else if word = "optional" then .ok { o with optional := d }
  else .error (.parameter (.unexpected word))

/-- The options that are set one after the other. -/
def ofList (given : List (String × Datum)) : Except Fault Options :=
  given.foldlM (fun o entry => o.assign entry.1 entry.2) {}

end Options

/-! ## Limits of numbers -/

/-- An integer limit, which has to lie between the given integers. -/
def integerLimit (label : String) (type : ValueType) (limit : LimitName) (lower upper : Int)
    (d : Datum) : Except Fault { n : Int // lower ≤ n ∧ n ≤ upper } :=
  match d with
  | .integer n =>
    -- an integer beyond all doubles is refused as such, before it is held against the range
    if (Double.ofInt? n).isNone then .error (.datum .beyondDouble)
    else if h : lower ≤ n ∧ n ≤ upper then .ok ⟨n, h⟩
    else .error (.parameter (.boundOutside type label limit))
  | .double _ => .error (.parameter (.boundNotInteger type label limit))
  | _ => .error (.parameter (.boundNotNumber label limit))

/-- A limit that is a double, which has to be finite. -/
def doubleLimit (label : String) (limit : LimitName) (d : Datum) :
    Except Fault { x : Double // x.isFinite = true } := do
  let x ← match d with
    | .integer n =>
      match Double.ofInt? n with
      | some x => .ok x
      | none => .error (.datum .beyondDouble)
    | .double x => .ok x
    | _ => .error (.parameter (.boundNotNumber label limit))
  if h : x.isFinite = true then .ok ⟨x, h⟩
  else .error (.parameter (.boundOutside .double label limit))

/-- Refuses limits of numbers. -/
def refuseBounds (label : String) (type : ValueType) (o : Options) : Except Fault Unit :=
  if o.least.isGiven || o.greatest.isGiven then .error (.parameter (.boundsRefused type label))
  else .ok ()

/-! ## Limits of length -/

/-- A limit of length, which has to be a natural number. -/
def lengthLimit (label : String) (limit : LimitName) (d : Datum) : Except Fault Nat :=
  match d with
  | .integer n =>
    if n < 0 then .error (.parameter (.lengthNegative label limit)) else .ok n.toNat
  | _ => .error (.parameter (.lengthNotInteger label limit))

/-- The greatest length; nothing means that there is none. -/
def greatestLength (label : String) (d : Datum) : Except Fault (Option Nat) :=
  match d with
  | .null => .ok none
  | d => some <$> lengthLimit label .maxLength d

/-- Refuses limits of length, and to be greedy. -/
def refuseLengths (label : String) (type : ValueType) (o : Options) : Except Fault Unit :=
  if o.minLength.isGiven || o.maxLength.isGiven then
    .error (.parameter (.lengthsRefused type label))
  else if o.greedy.isTrue then .error (.parameter (.greedyRefused type label))
  else .ok ()

theorem refuseLengths_eq_ok_iff {label : String} {type : ValueType} {o : Options} :
    refuseLengths label type o = .ok () ↔
      o.minLength.isGiven = false ∧ o.maxLength.isGiven = false ∧ o.greedy.isTrue = false := by
  unfold refuseLengths
  cases o.minLength.isGiven <;> cases o.maxLength.isGiven <;> cases o.greedy.isTrue <;> simp

/-! ## Domains -/

/-- A domain whose limits are in order and within the range of its type. -/
abbrev SoundDomain := { d : Domain // d.Sound }

/-- The domain of integers of 32 bits between the declared limits. -/
def declareInteger (label : String) (o : Options) : Except Fault SoundDomain := do
  let least ← integerLimit label .integer .least integerLeast integerGreatest
    (o.least.orElse (.integer integerLeast))
  let greatest ← integerLimit label .integer .greatest integerLeast integerGreatest
    (o.greatest.orElse (.integer integerGreatest))
  if h : least.val ≤ greatest.val then
    refuseLengths label .integer o
    .ok ⟨.integer least.val greatest.val, least.property.1, h, greatest.property.2⟩
  else .error (.parameter (.boundsCrossed label))

/-- The domain of integers of 64 bits between the declared limits. -/
def declareLong (label : String) (o : Options) : Except Fault SoundDomain := do
  let least ← integerLimit label .long .least longLeast longGreatest
    (o.least.orElse (.integer longLeast))
  let greatest ← integerLimit label .long .greatest longLeast longGreatest
    (o.greatest.orElse (.integer longGreatest))
  if h : least.val ≤ greatest.val then
    refuseLengths label .long o
    .ok ⟨.long least.val greatest.val, least.property.1, h, greatest.property.2⟩
  else .error (.parameter (.boundsCrossed label))

/-- The domain of doubles between the declared limits. -/
def declareDouble (label : String) (o : Options) : Except Fault SoundDomain := do
  let least ← doubleLimit label .least (o.least.orElse (.double Double.largest.negated))
  let greatest ← doubleLimit label .greatest (o.greatest.orElse (.double Double.largest))
  if h : least.val.le greatest.val = true then
    refuseLengths label .double o
    .ok ⟨.double least.val greatest.val, least.property, greatest.property, h⟩
  else .error (.parameter (.boundsCrossed label))

/-- The domain of truth values. -/
def declareBoolean (label : String) (o : Options) : Except Fault SoundDomain := do
  refuseBounds label .boolean o
  refuseLengths label .boolean o
  .ok ⟨.boolean, trivial⟩

/-- The domain of strings of the declared lengths. -/
def declareString (label : String) (o : Options) : Except Fault SoundDomain := do
  refuseBounds label .string o
  let minLength ← lengthLimit label .minLength (o.minLength.orElse (.integer 0))
  let maxLength ← greatestLength label (o.maxLength.orElse .null)
  if h : ∀ m, maxLength = some m → minLength ≤ m then
    .ok ⟨.string minLength maxLength o.greedy.isTrue, h⟩
  else .error (.parameter (.lengthsCrossed label))

/-- The domain that the options declare. -/
def declareDomain (label : String) (o : Options) : Except Fault SoundDomain :=
  match o.type with
  | .valueType .integer => declareInteger label o
  | .valueType .long => declareLong label o
  | .valueType .double => declareDouble label o
  | .valueType .boolean => declareBoolean label o
  | .valueType .string => declareString label o
  | _ => .error (.parameter (.typeExpected label))

/-! ## Parameters -/

/-- The word for parameters in messages, where no other is given. -/
def defaultLabel : String := "argument"

/-- The parameter that a name and options declare. -/
def declare (label : String) (name : Datum) (o : Options) : Except Fault Parameter := do
  let name ← Name.declare label name
  let domain ← declareDomain label o
  .ok ⟨label, name, domain.val, o.optional.isTrue, domain.property⟩

/-- The parameter that a name and options, given by their words, declare. -/
def declareWith (label : String) (name : Datum) (given : List (String × Datum)) :
    Except Fault Parameter := do
  declare label name (← Options.ofList given)

end CommandTree.Parameter
