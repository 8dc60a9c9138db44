import CommandTree.Parameter.Replacement
import CommandTree.Proofs.Catalog
import CommandTree.Proofs.Parameter.Limits

/-!
# The fields of a parameter

A parameter has eight fields: its name, its type, four limits, and whether it is greedy and
optional. A host reads them by their words, and declares or replaces them by the same words. What a
list of words and data says of a field is what it says last; a declaration looks at nothing else.

* `Options.ofList_eq`: options by their words are options by their fields
* `Parameter.replace_eq`: a replacement declares what it says, over what it carries
* `Parameter.declareChosen_own`: a parameter can be declared again from its own fields
-/

namespace CommandTree

/-! ## Fields -/

/-- The fields of a parameter. -/
inductive Field where
  | name
  | type
  | limit (l : LimitName)
  | greedy
  | optional
deriving DecidableEq

namespace Field

def word : Field → String
  | .name => Parameter.nameWord
  | .type => "type"
  | .limit l => l.word
  | .greedy => "greedy"
  | .optional => "optional"

theorem word_inj {f g : Field} (h : f.word = g.word) : f = g := by
  rcases f with _ | _ | (_ | _ | _ | _) | _ | _ <;>
    rcases g with _ | _ | (_ | _ | _ | _) | _ | _ <;>
      first | rfl | exact absurd h (by decide)

theorem word_ne_receiverWord (f : Field) : f.word ≠ Parameter.receiverWord := by
  rcases f with _ | _ | (_ | _ | _ | _) | _ | _ <;> decide

end Field

namespace Parameter

/-- A limit of the parameter, or null where it has none. -/
def limit (p : Parameter) : LimitName → Datum
  | .least => p.least
  | .greatest => p.greatest
  | .minLength => p.minLength
  | .maxLength => p.maxLength

/-- What a field of the parameter holds. -/
def field (p : Parameter) : Field → Datum
  | .name => .string p.name.text
  | .type => .valueType p.type
  | .limit l => p.limit l
  | .greedy => .boolean p.greedy
  | .optional => .boolean p.optional

end Parameter

namespace ValueType

/-- Whether the parameters of a type have a limit: numbers have those of numbers, strings those of
length. -/
def hasLimit (t : ValueType) : LimitName → Bool
  | .least | .greatest => t.isNumeric
  | .minLength | .maxLength => t = .string

/-- What a limit of a parameter of a type is where it is not given. -/
def usualLimit (t : ValueType) : LimitName → Datum
  | .least => t.range?.elim .null fun range => .ofNumber range.1
  | .greatest => t.range?.elim .null fun range => .ofNumber range.2
  | .minLength => if t = .string then .integer 0 else .null
  | .maxLength => .null

end ValueType

/-! ## Options by their fields -/

/-- What a list of words and data says of a field: the last datum that it gives it. -/
def said (given : List (String × Datum)) (f : Field) : Option Datum :=
  (Catalog.ofList given).get? f.word

namespace Parameter

/-- The options of a choice for each field. -/
def Options.chosen (choice : Field → Option Datum) : Options where
  type := (choice .type).getD (.valueType .string)
  least := (choice (.limit .least)).getD .unset
  greatest := (choice (.limit .greatest)).getD .unset
  minLength := (choice (.limit .minLength)).getD .unset
  maxLength := (choice (.limit .maxLength)).getD .unset
  greedy := (choice .greedy).getD (.boolean false)
  optional := (choice .optional).getD (.boolean false)

theorem Options.assign_chosen {choice : Field → Option Datum} {f : Field} (hf : f ≠ .name)
    (d : Datum) :
    (Options.chosen choice).assign f.word d
      = .ok (Options.chosen fun g => if g = f then some d else choice g) := by
  rcases f with _ | _ | (_ | _ | _ | _) | _ | _
  · exact absurd rfl hf
  all_goals rfl

/-- A choice for the name is no option. -/
theorem Options.chosen_congr {choice other : Field → Option Datum}
    (h : ∀ f, f ≠ .name → choice f = other f) : Options.chosen choice = Options.chosen other := by
  unfold Options.chosen
  rw [h .type nofun, h (.limit .least) nofun, h (.limit .greatest) nofun,
    h (.limit .minLength) nofun, h (.limit .maxLength) nofun, h .greedy nofun, h .optional nofun]

theorem Options.ofList_concat (given : List (String × Datum)) (entry : String × Datum) :
    Options.ofList (given ++ [entry])
      = (Options.ofList given).bind fun o => o.assign entry.1 entry.2 := by
  simp only [Options.ofList, List.foldlM_append, List.foldlM_cons, List.foldlM_nil, bind_pure]
  rfl

/-- **Options by their words are options by their fields.** -/
theorem Options.ofList_eq {given : List (String × Datum)}
    (h : ∀ entry ∈ given, ∃ f : Field, f ≠ .name ∧ entry.1 = f.word) :
    Options.ofList given = .ok (Options.chosen (said given)) := by
  induction given using List.reverseRecOn with
  | nil => rfl
  | append_singleton given entry ih =>
    obtain ⟨f, hf, hword⟩ := h entry (by simp)
    have hrest := ih fun e he => h e (by simp [he])
    have hsaid : said (given ++ [entry])
        = fun g => if g = f then some entry.2 else said given g := by
      funext g
      have hiff : g.word = entry.1 ↔ g = f := by
        rw [hword]
        exact ⟨Field.word_inj, congrArg _⟩
      simp only [said, Catalog.ofList_concat, Catalog.get?_put, hiff]
    rw [ofList_concat, hrest, hsaid, hword]
    exact Options.assign_chosen hf entry.2

/-- Nothing but options is assigned. -/
theorem Options.exists_word_of_assign {o made : Options} {word : String} {d : Datum}
    (h : o.assign word d = .ok made) : ∃ f : Field, f ≠ .name ∧ word = f.word := by
  by_cases hword : ∃ f : Field, f ≠ .name ∧ word = f.word
  · exact hword
  · have hne : ∀ f : Field, f ≠ .name → word ≠ f.word := fun f hf heq => hword ⟨f, hf, heq⟩
    have htype : word ≠ "type" := hne .type nofun
    have hlimit : ∀ l : LimitName, word ≠ l.word := fun l => hne (.limit l) nofun
    have hgreedy : word ≠ "greedy" := hne .greedy nofun
    have hoptional : word ≠ "optional" := hne .optional nofun
    rw [assign, if_neg htype, if_neg (hlimit _), if_neg (hlimit _), if_neg (hlimit _),
      if_neg (hlimit _), if_neg hgreedy, if_neg hoptional] at h
    cases h

theorem Options.exists_word_of_ofList {given : List (String × Datum)} {o : Options}
    (h : Options.ofList given = .ok o) :
    ∀ entry ∈ given, ∃ f : Field, f ≠ .name ∧ entry.1 = f.word := by
  induction given using List.reverseRecOn generalizing o with
  | nil => exact fun entry hentry => absurd hentry List.not_mem_nil
  | append_singleton given last ih =>
    rw [ofList_concat] at h
    obtain ⟨before, hbefore, hlast⟩ := exists_of_bind_eq_ok h
    intro entry hentry
    rcases List.mem_append.mp hentry with hmem | hmem
    · exact ih hbefore entry hmem
    · rw [List.mem_singleton.mp hmem]
      exact exists_word_of_assign hlast

/-! ## What a replacement declares -/

/-- A field of the parameter, by its word. -/
def entry (p : Parameter) (f : Field) : String × Datum := (f.word, p.field f)

/-- What is said of a field by fields of the parameter: what it holds, if it is among them. -/
theorem said_map_entry (p : Parameter) (fs : List Field) (f : Field) :
    said (fs.map p.entry) f = if f ∈ fs then some (p.field f) else none := by
  induction fs using List.reverseRecOn with
  | nil => rfl
  | append_singleton fs g ih =>
    have hiff : f.word = g.word ↔ f = g := ⟨Field.word_inj, congrArg _⟩
    rw [said] at ih ⊢
    rw [List.map_append, List.map_singleton, Catalog.ofList_concat, Catalog.get?_put, ih]
    by_cases hg : f = g
    · subst hg
      simp [entry]
    · simp [entry, hiff, hg]

theorem said_append (earlier later : List (String × Datum)) (f : Field) :
    said (earlier ++ later) f = (said later f).or (said earlier f) :=
  Catalog.get?_ofList_append later

/-- The fields that a replacement carries over. -/
def carriedFields (p : Parameter) (retyped : Bool) : List Field :=
  [.name, .type]
    ++ (if p.type.isNumeric && !retyped then [.limit .least, .limit .greatest] else [])
    ++ (if p.type = .string && !retyped then [.limit .minLength, .limit .maxLength] else [])
    ++ [.greedy, .optional]

theorem carried_eq_map (p : Parameter) (retyped : Bool) :
    p.carried retyped = (p.carriedFields retyped).map p.entry := by
  unfold carried carriedFields
  cases p.type.isNumeric && !retyped <;> cases decide (p.type = .string) && !retyped <;> rfl

/-- Whether a replacement carries a field over: of the limits those that the parameter has, while
its type is not given anew, and all other fields. -/
def carries (p : Parameter) (retyped : Bool) : Field → Bool
  | .limit l => p.type.hasLimit l && !retyped
  | .name | .type | .greedy | .optional => true

theorem mem_carriedFields_iff {p : Parameter} {retyped : Bool} {f : Field} :
    f ∈ p.carriedFields retyped ↔ p.carries retyped f = true := by
  unfold carriedFields
  simp only [List.mem_append, List.mem_ite_nil_right, List.mem_cons, List.not_mem_nil, or_false]
  rcases f with _ | _ | (_ | _ | _ | _) | _ | _ <;> simp [carries, ValueType.hasLimit]

/-- The parameter of a choice for each field. -/
def declareChosen (label : String) (choice : Field → Option Datum) : Except Fault Parameter :=
  declare label ((choice .name).getD .unset) (Options.chosen choice)

/-- A catalog under the words of the fields is a choice for them. -/
theorem Options.ofList_entries {c : Catalog Datum}
    (hwords : ∀ key ∈ c.keys, ∃ f : Field, key = f.word) :
    Options.ofList (c.entries.filter fun entry => entry.1 ≠ nameWord)
      = .ok (Options.chosen fun f => c.get? f.word) := by
  have hnodup : ((c.entries.filter fun entry => entry.1 ≠ nameWord).map Prod.fst).Nodup :=
    c.nodup.sublist (List.filter_sublist.map Prod.fst)
  rw [Options.ofList_eq]
  · congr 1
    refine Options.chosen_congr fun f hf => ?_
    have hword : f.word ≠ nameWord := fun h => hf (Field.word_inj h)
    ext d
    rw [said, ← Catalog.mem_entries_iff_get?, ← Catalog.mem_entries_iff_get?,
      Catalog.entries_ofList hnodup, List.mem_filter]
    simp [hword]
  · intro entry hentry
    obtain ⟨hmem, hne⟩ := List.mem_filter.mp hentry
    obtain ⟨f, hf⟩ := hwords entry.1 (List.mem_map_of_mem hmem)
    refine ⟨f, ?_, hf⟩
    rintro rfl
    simp [hf, Field.word] at hne

/-- **A replacement declares what it says, over what it carries.** -/
theorem replace_eq (p : Parameter) {overrides : List (String × Datum)}
    (hwords : ∀ entry ∈ overrides, ∃ f : Field, entry.1 = f.word) :
    p.replace false overrides = declareChosen p.label fun f =>
      (said overrides f).or
        (said (p.carried (overrides.any fun entry => entry.1 = "type")) f) := by
  have hreceiver : (overrides.any fun entry => entry.1 = receiverWord) = false := by
    rw [List.any_eq_false]
    intro entry hentry
    obtain ⟨f, hf⟩ := hwords entry hentry
    simpa [hf] using f.word_ne_receiverWord
  have hkeys : ∀ key ∈ (p.overridden overrides).keys, ∃ f : Field, key = f.word := by
    intro key hkey
    rw [overridden, Catalog.keys_ofList, List.mem_eraseDups, List.mem_map] at hkey
    obtain ⟨entry, hentry, rfl⟩ := hkey
    rcases List.mem_append.mp hentry with hcarried | hentry
    · rw [carried_eq_map] at hcarried
      obtain ⟨f, -, rfl⟩ := List.mem_map.mp hcarried
      exact ⟨f, rfl⟩
    · exact hwords entry hentry
  have hget : ∀ f : Field, (p.overridden overrides).get? f.word = (said overrides f).or
      (said (p.carried (overrides.any fun entry => entry.1 = "type")) f) :=
    fun f => said_append _ overrides f
  simp only [replace, hreceiver, Bool.false_eq_true, if_false, declareWith,
    Options.ofList_entries hkeys, hget]
  exact congrArg (fun d => declare p.label (d.getD .unset) _) (hget .name)

/-- Nothing but fields is replaced. -/
theorem exists_word_of_replace {p q : Parameter} {unnamed : Bool}
    {overrides : List (String × Datum)} (h : p.replace unnamed overrides = .ok q) :
    ∀ entry ∈ overrides, ∃ f : Field, entry.1 = f.word := by
  unfold replace at h
  split at h
  · cases h
  split at h
  · cases h
  obtain ⟨o, ho, -⟩ := exists_of_bind_eq_ok h
  intro entry hentry
  have hkey : entry.1 ∈ (p.overridden overrides).keys := by
    rw [overridden, Catalog.keys_ofList, List.mem_eraseDups]
    exact List.mem_map_of_mem (List.mem_append_right _ hentry)
  obtain ⟨item, hitem⟩ := (Catalog.mem_keys_iff_get? _ _).mp hkey
  by_cases hname : entry.1 = nameWord
  · exact ⟨.name, hname⟩
  · have hmem := (Catalog.mem_entries_iff_get? _ _ _).mpr hitem
    obtain ⟨f, -, hf⟩ := Options.exists_word_of_ofList ho _
      (List.mem_filter.mpr ⟨hmem, by simpa using hname⟩)
    exact ⟨f, hf⟩

end Parameter

/-! ## Widening a domain -/

/-- The domain with the limits that are not kept widened to those of the full range. -/
def Domain.widened (d : Domain) (kept : LimitName → Bool) : Domain :=
  match d with
  | .integer least greatest =>
    .integer (if kept .least then least else integerLeast)
      (if kept .greatest then greatest else integerGreatest)
  | .long least greatest =>
    .long (if kept .least then least else longLeast)
      (if kept .greatest then greatest else longGreatest)
  | .double least greatest =>
    .double (if kept .least then least else Double.largest.negated)
      (if kept .greatest then greatest else Double.largest)
  | .boolean => .boolean
  | .string minLength maxLength greedy =>
    .string (if kept .minLength then minLength else 0)
      (if kept .maxLength then maxLength else none) greedy

theorem Double.le_largest {x : Double} (h : x.isFinite = true) :
    largest.negated.le x = true ∧ x.le largest = true := by
  obtain ⟨lower, upper, hrange, hl, hu⟩ := isFinite_iff_isWithin.mp h
  cases hrange
  exact ⟨hl, hu⟩

/-- Widening keeps the limits in order and within the range of the type. -/
theorem Domain.Sound.widened {d : Domain} (h : d.Sound) (kept : LimitName → Bool) :
    (d.widened kept).Sound := by
  cases d with
  | integer least greatest =>
    obtain ⟨hl, hle, hg⟩ := h
    simp only [Domain.widened, Sound]
    unfold integerLeast integerGreatest at *
    split <;> split <;> omega
  | long least greatest =>
    obtain ⟨hl, hle, hg⟩ := h
    simp only [Domain.widened, Sound]
    unfold longLeast longGreatest at *
    split <;> split <;> omega
  | double least greatest =>
    obtain ⟨hl, hg, hle⟩ := h
    simp only [Domain.widened, Sound]
    have hlargest : Double.largest.isFinite = true := rfl
    have hleast : Double.largest.negated.isFinite = true := rfl
    cases kept .least <;> cases kept .greatest
    · exact ⟨hleast, hlargest, (Double.le_largest hleast).2⟩
    · exact ⟨hleast, hg, (Double.le_largest hg).1⟩
    · exact ⟨hl, hlargest, (Double.le_largest hl).2⟩
    · exact ⟨hl, hg, hle⟩
  | boolean => trivial
  | string minLength maxLength greedy =>
    intro m hm
    cases hmin : kept .minLength with
    | false => simp
    | true =>
      cases hmax : kept .maxLength with
      | false => simp [hmax] at hm
      | true =>
        simp only [hmax, if_true] at hm
        simpa [hmin] using h m hm

namespace Parameter

variable {label : String} {o : Options}

/-! ## Declaring a domain by its limits -/

theorem integerLimit_of_within {t : ValueType} {limit : LimitName} {lower upper n : Int}
    (h : lower ≤ n ∧ n ≤ upper) (hl : longLeast ≤ n) (hg : n ≤ longGreatest) :
    integerLimit label t limit lower upper (.integer n) = .ok ⟨n, h⟩ := by
  obtain ⟨x, hx⟩ := Double.exists_ofInt? hl hg
  simp [integerLimit, hx, h]

theorem doubleLimit_of_isFinite {limit : LimitName} {x : Double} (h : x.isFinite = true) :
    doubleLimit label limit (.double x) = .ok ⟨x, h⟩ := by
  simp [doubleLimit, h, Bind.bind, Except.bind]

theorem declareInteger_of_limits {least greatest : Int}
    (hd : (Domain.integer least greatest).Sound)
    (hl : o.least.orElse (.integer integerLeast) = .integer least)
    (hg : o.greatest.orElse (.integer integerGreatest) = .integer greatest)
    (hrefuse : refuseLengths label .integer o = .ok ()) :
    declareInteger label o = .ok ⟨.integer least greatest, hd⟩ := by
  obtain ⟨hlower, hle, hupper⟩ := hd
  have hwide : longLeast ≤ integerLeast ∧ integerGreatest ≤ longGreatest := by decide
  unfold declareInteger
  rw [hl, hg, integerLimit_of_within ⟨hlower, by omega⟩ (by omega) (by omega),
    integerLimit_of_within ⟨by omega, hupper⟩ (by omega) (by omega)]
  simp only [Bind.bind, Except.bind, dif_pos hle, hrefuse]

theorem declareLong_of_limits {least greatest : Int} (hd : (Domain.long least greatest).Sound)
    (hl : o.least.orElse (.integer longLeast) = .integer least)
    (hg : o.greatest.orElse (.integer longGreatest) = .integer greatest)
    (hrefuse : refuseLengths label .long o = .ok ()) :
    declareLong label o = .ok ⟨.long least greatest, hd⟩ := by
  obtain ⟨hlower, hle, hupper⟩ := hd
  unfold declareLong
  rw [hl, hg, integerLimit_of_within ⟨hlower, by omega⟩ hlower (by omega),
    integerLimit_of_within ⟨by omega, hupper⟩ (by omega) hupper]
  simp only [Bind.bind, Except.bind, dif_pos hle, hrefuse]

theorem declareDouble_of_limits {least greatest : Double}
    (hd : (Domain.double least greatest).Sound)
    (hl : o.least.orElse (.double Double.largest.negated) = .double least)
    (hg : o.greatest.orElse (.double Double.largest) = .double greatest)
    (hrefuse : refuseLengths label .double o = .ok ()) :
    declareDouble label o = .ok ⟨.double least greatest, hd⟩ := by
  obtain ⟨hlower, hupper, hle⟩ := hd
  unfold declareDouble
  rw [hl, hg, doubleLimit_of_isFinite hlower, doubleLimit_of_isFinite hupper]
  simp only [Bind.bind, Except.bind, dif_pos hle, hrefuse]

theorem declareString_of_limits {minLength : Nat} {maxLength : Option Nat} {greedy : Bool}
    (hd : (Domain.string minLength maxLength greedy).Sound)
    (hl : o.minLength.orElse (.integer 0) = .integer minLength)
    (hg : o.maxLength.orElse .null = maxLength.elim .null fun n => .integer n)
    (hgreedy : o.greedy.isTrue = greedy) (hrefuse : refuseBounds label .string o = .ok ()) :
    declareString label o = .ok ⟨.string minLength maxLength greedy, hd⟩ := by
  have hlength : ∀ (limit : LimitName) (n : Nat),
      lengthLimit label limit (.integer n) = .ok n := by
    intro limit n
    simp [lengthLimit]
  have hgreatest : greatestLength label (maxLength.elim .null fun n => .integer n)
      = .ok maxLength := by
    cases maxLength with
    | none => rfl
    | some n => simp [greatestLength, hlength, Functor.map, Except.map]
  unfold declareString
  rw [hl, hg, hlength, hgreatest]
  simp only [Bind.bind, Except.bind, hrefuse, hgreedy]
  exact dif_pos hd

/-! ## Declaring a parameter from its own fields -/

/-- The choice of the parameter's own fields, of the limits only those that it has and that are
kept. -/
def own (p : Parameter) (kept : LimitName → Bool) : Field → Option Datum
  | .limit l => if p.type.hasLimit l && kept l then some (p.limit l) else none
  | f => some (p.field f)

/-- The parameter with the limits that are not kept widened to those of the full range. -/
def widened (p : Parameter) (kept : LimitName → Bool) : Parameter :=
  { p with domain := p.domain.widened kept, sound := p.sound.widened kept }

/-- Widening leaves the limits that are kept, and gives the others what they usually are. -/
theorem limit_widened (p : Parameter) (kept : LimitName → Bool) (l : LimitName) :
    (p.widened kept).limit l = if kept l then p.limit l else p.type.usualLimit l := by
  obtain ⟨label, name, domain, optional, sound⟩ := p
  cases domain with
  | integer lower upper | long lower upper | double lower upper =>
    cases l <;> cases hk : kept _ <;>
      simp [limit, least, greatest, minLength, maxLength, widened, Domain.widened, Domain.limits?,
        Domain.lengths?, Parameter.type, Domain.type, ValueType.usualLimit, ValueType.range?, hk,
        Datum.ofNumber]
  | boolean => cases l <;> exact (ite_self _).symm
  | string shortest longest greedy =>
    cases l <;> cases hk : kept _ <;> cases longest <;>
      simp [limit, least, greatest, minLength, maxLength, widened, Domain.widened, Domain.limits?,
        Domain.lengths?, Parameter.type, Domain.type, ValueType.usualLimit, ValueType.range?, hk]

/-- A limit that a type does not have is what it usually is. -/
theorem limit_of_not_hasLimit {p : Parameter} {l : LimitName} (h : p.type.hasLimit l = false) :
    p.limit l = p.type.usualLimit l := by
  obtain ⟨label, name, domain, optional, sound⟩ := p
  cases domain <;> cases l <;> first | rfl | cases h

/-- Widening changes nothing but limits. -/
theorem field_widened (p : Parameter) (kept : LimitName → Bool) {f : Field}
    (h : ∀ l, f ≠ .limit l) : (p.widened kept).field f = p.field f := by
  obtain ⟨label, name, domain, optional, sound⟩ := p
  cases f with
  | limit l => exact absurd rfl (h l)
  | name | optional => rfl
  | type | greedy => cases domain <;> rfl

theorem limit_ne_unset (p : Parameter) (l : LimitName) : p.limit l ≠ .unset := by
  obtain ⟨label, name, domain, optional, sound⟩ := p
  cases domain with
  | integer lower upper | long lower upper | double lower upper => cases l <;> exact nofun
  | boolean => cases l <;> exact nofun
  | string shortest longest greedy => cases l <;> cases longest <;> exact nofun

/-- A limit of the parameter's own, with what it usually is where it is not kept, is the limit of
the widened parameter. -/
theorem own_orElse (p : Parameter) (kept : LimitName → Bool) {l : LimitName}
    (h : p.type.hasLimit l = true) :
    ((p.own kept (.limit l)).getD .unset).orElse (p.type.usualLimit l)
      = (p.widened kept).limit l := by
  rw [limit_widened, own, h, Bool.true_and]
  cases kept l with
  | false => rfl
  | true => exact Datum.orElse_of_ne (p.limit_ne_unset l) _

/-- **A parameter can be declared again from its own fields.** Limits that are left out are those of
the full range. -/
theorem declareChosen_own (p : Parameter) (kept : LimitName → Bool) :
    declareChosen p.label (p.own kept) = .ok (p.widened kept) := by
  have hdomain : declareDomain p.label (Options.chosen (p.own kept))
      = .ok ⟨p.domain.widened kept, p.sound.widened kept⟩ := by
    have hlimit := @own_orElse p kept
    obtain ⟨label, name, domain, optional, sound⟩ := p
    cases domain with
    | integer least greatest =>
      exact declareInteger_of_limits _ (@hlimit .least rfl) (@hlimit .greatest rfl) rfl
    | long least greatest =>
      exact declareLong_of_limits _ (@hlimit .least rfl) (@hlimit .greatest rfl) rfl
    | double least greatest =>
      exact declareDouble_of_limits _ (@hlimit .least rfl) (@hlimit .greatest rfl) rfl
    | boolean => rfl
    | string minLength maxLength greedy =>
      refine declareString_of_limits _ (@hlimit .minLength rfl) ((@hlimit .maxLength rfl).trans ?_)
        rfl rfl
      show Parameter.maxLength _ = _
      simp only [Parameter.maxLength, Parameter.widened, Domain.widened, Domain.lengths?]
      cases (if kept .maxLength then maxLength else none) <;> rfl
  have hname : Name.declare p.label (((p.own kept) .name).getD .unset) = .ok p.name :=
    Name.declare_text p.label p.name
  unfold declareChosen declare
  rw [hname, hdomain]
  rfl

end Parameter

end CommandTree
