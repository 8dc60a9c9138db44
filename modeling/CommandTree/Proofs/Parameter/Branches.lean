import CommandTree.Parameter.Builder
import CommandTree.Proofs.Parameter.Agreement
import CommandTree.Proofs.Parameter.Fields

/-!
# Building along branches

A builder does not change, so steps can be taken from any builder that there is, again and again,
and the builders form a tree. What a builder builds depends on its own branch alone: it is what is
declared with the options that the branch sets, each to what it is set to last. Steps on other
branches and steps that are refused do not matter, and neither does the order of steps that set
different options.

* `Builder.step_of_use`, `Builder.step_of_no_use`: a step sets an option or is refused
* `Builder.forall₂_follows`: after any requests, each builder follows its branch
* `Builder.build_of_branch`: what a builder builds, from its branch
-/

namespace CommandTree.Parameter

namespace Builder

/-! ## Steps -/

/-- Whether a word is that of an option. -/
def isOption (word : String) : Bool :=
  ["type", "min", "max", "min_len", "max_len", "greedy", "optional"].contains word

/-- What a step is used for: the word of an option and what the option is set to. A step is told one
thing, and two of them may be told nothing and mean yes. -/
def use? (word : String) (told : List Datum) : Option (String × Datum) :=
  match told with
  | [] => if word = "greedy" ∨ word = "optional" then some (word, .boolean true) else none
  | [d] => if isOption word then some (word, d) else none
  | _ => none

theorem isOption_iff {word : String} :
    isOption word = true ↔ ∃ f : Field, f ≠ .name ∧ word = f.word := by
  constructor
  · intro h
    have hmem := List.contains_iff_mem.mp h
    simp only [List.mem_cons, List.not_mem_nil, or_false] at hmem
    rcases hmem with rfl | rfl | rfl | rfl | rfl | rfl | rfl
    · exact ⟨.type, nofun, rfl⟩
    · exact ⟨.limit .least, nofun, rfl⟩
    · exact ⟨.limit .greatest, nofun, rfl⟩
    · exact ⟨.limit .minLength, nofun, rfl⟩
    · exact ⟨.limit .maxLength, nofun, rfl⟩
    · exact ⟨.greedy, nofun, rfl⟩
    · exact ⟨.optional, nofun, rfl⟩
  · rintro ⟨f, hf, rfl⟩
    rcases f with _ | _ | (_ | _ | _ | _) | _ | _
    · exact absurd rfl hf
    all_goals decide

/-- An option is one that has to be told, or one of the two that may be told nothing. -/
theorem options?_of_isOption {word : String} (h : isOption word = true) :
    options? word = some (if word = "greedy" ∨ word = "optional" then some (.boolean true)
      else none) := by
  obtain ⟨f, hf, rfl⟩ := isOption_iff.mp h
  rcases f with _ | _ | (_ | _ | _ | _) | _ | _
  · exact absurd rfl hf
  all_goals rfl

theorem options?_of_not_isOption {word : String} (h : isOption word = false) :
    options? word = none := by
  rw [options?, List.lookup_eq_none_iff]
  intro entry hentry
  have hmem : isOption entry.1 = true := List.contains_iff_mem.mpr (List.mem_map_of_mem hentry)
  have hne : word ≠ entry.1 := by
    rintro rfl
    rw [h] at hmem
    cases hmem
  exact bne_iff_ne.mpr hne

theorem step_of_use {b : Builder} {word : String} {told : List Datum} {entry : String × Datum}
    (h : use? word told = some entry) : b.step word told = .ok (b.set entry.1 entry.2) := by
  unfold use? at h
  split at h
  · obtain ⟨hword, hentry⟩ := Option.ite_none_right_eq_some.mp h
    cases hentry
    rcases hword with rfl | rfl <;> rfl
  · next d =>
    obtain ⟨hword, hentry⟩ := Option.ite_none_right_eq_some.mp h
    cases hentry
    exact step_told (options?_of_isOption hword) b d
  · cases h

theorem step_of_no_use {b : Builder} {word : String} {told : List Datum}
    (h : use? word told = none) : ∃ fault, b.step word told = .error fault := by
  cases hoption : isOption word with
  | false =>
    simp only [step, options?_of_not_isOption hoption]
    exact ⟨_, rfl⟩
  | true =>
    have husual := options?_of_isOption hoption
    rcases told with _ | ⟨d, _ | ⟨other, more⟩⟩
    · have hword : ¬ (word = "greedy" ∨ word = "optional") := by
        intro hword
        rw [use?, if_pos hword] at h
        cases h
      rw [if_neg hword] at husual
      simp only [step, husual]
      exact ⟨_, rfl⟩
    · rw [use?, if_pos hoption] at h
      cases h
    · simp only [step, husual]
      exact ⟨_, rfl⟩

theorem exists_word_of_use {word : String} {told : List Datum} {entry : String × Datum}
    (h : use? word told = some entry) : ∃ f : Field, f ≠ .name ∧ entry.1 = f.word := by
  unfold use? at h
  split at h
  · obtain ⟨hword, hentry⟩ := Option.ite_none_right_eq_some.mp h
    cases hentry
    rcases hword with rfl | rfl
    · exact ⟨.greedy, nofun, rfl⟩
    · exact ⟨.optional, nofun, rfl⟩
  · obtain ⟨hword, hentry⟩ := Option.ite_none_right_eq_some.mp h
    cases hentry
    exact isOption_iff.mp hword
  · cases h

/-! ## Requests and branches -/

/-- A request for a step of the builder at a place. -/
structure Request where
  place : Nat
  word : String
  told : List Datum

/-- The builders that there are after a request: what the step leads to comes last. A step that is
refused, or that is asked of no builder, changes nothing. -/
def serve (builders : List Builder) (r : Request) : List Builder :=
  match builders[r.place]? with
  | none => builders
  | some b =>
    match b.step r.word r.told with
    | .ok c => builders ++ [c]
    | .error _ => builders

/-- The builders that there are after requests, the first one having no options. -/
def served (label : String) (name : Name) (requests : List Request) : List Builder :=
  requests.foldl serve [⟨label, name, .empty⟩]

/-- What the branches of the builders set, after a request. -/
def branchOut (branches : List (List (String × Datum))) (r : Request) :
    List (List (String × Datum)) :=
  match branches[r.place]?, use? r.word r.told with
  | some branch, some entry => branches ++ [branch ++ [entry]]
  | _, _ => branches

/-- What the branch of each builder sets, in order, after requests. -/
def branches (requests : List Request) : List (List (String × Datum)) :=
  requests.foldl branchOut [[]]

/-- The builder with the options that a branch sets. -/
def along (label : String) (name : Name) (branch : List (String × Datum)) : Builder :=
  ⟨label, name, Catalog.ofList branch⟩

variable {label : String} {name : Name} {branch : List (String × Datum)}

theorem along_set (entry : String × Datum) :
    (along label name branch).set entry.1 entry.2 = along label name (branch ++ [entry]) := by
  rw [along, along, Catalog.ofList_concat]
  rfl

/-- A request keeps each builder on its branch. -/
theorem serve_map_along (bs : List (List (String × Datum))) (r : Request) :
    serve (bs.map (along label name)) r = (branchOut bs r).map (along label name) := by
  unfold serve branchOut
  rw [List.getElem?_map]
  cases bs[r.place]? with
  | none => rfl
  | some branch =>
    simp only [Option.map_some]
    cases huse : use? r.word r.told with
    | none =>
      obtain ⟨fault, hfault⟩ := step_of_no_use huse
      rw [hfault]
    | some entry =>
      rw [step_of_use huse, along_set, List.map_append]
      rfl

/-- **After any requests, each builder has the options that its branch sets.** -/
theorem served_eq_map_along (label : String) (name : Name) (requests : List Request) :
    served label name requests = (branches requests).map (along label name) := by
  have hrun : ∀ bs : List (List (String × Datum)), requests.foldl serve (bs.map (along label name))
      = (requests.foldl branchOut bs).map (along label name) := by
    induction requests with
    | nil => exact fun _ => rfl
    | cons r requests ih =>
      intro bs
      rw [List.foldl_cons, List.foldl_cons, serve_map_along, ih]
  exact hrun [[]]

/-- Whether entries are all about options. -/
def AreOptions (entries : List (String × Datum)) : Prop :=
  ∀ entry ∈ entries, ∃ f : Field, f ≠ .name ∧ entry.1 = f.word

theorem areOptions_branchOut {bs : List (List (String × Datum))} {r : Request}
    (h : ∀ branch ∈ bs, AreOptions branch) : ∀ branch ∈ branchOut bs r, AreOptions branch := by
  unfold branchOut
  split
  · next branch entry hbranch huse =>
    intro other hother
    rcases List.mem_append.mp hother with hmem | hmem
    · exact h other hmem
    · rw [List.mem_singleton.mp hmem]
      intro e he
      rcases List.mem_append.mp he with hold | hnew
      · exact h branch (List.mem_of_getElem? hbranch) e hold
      · rw [List.mem_singleton.mp hnew]
        exact exists_word_of_use huse
  · exact h

/-- A branch sets nothing but options. -/
theorem areOptions_of_mem {requests : List Request} (h : branch ∈ branches requests) :
    AreOptions branch := by
  have hrun : ∀ bs : List (List (String × Datum)), (∀ branch ∈ bs, AreOptions branch) →
      ∀ branch ∈ requests.foldl branchOut bs, AreOptions branch := by
    clear h
    induction requests with
    | nil => exact fun _ hbs => hbs
    | cons r requests ih => exact fun bs hbs => ih _ (areOptions_branchOut hbs)
  refine hrun [[]] ?_ branch h
  intro first hfirst entry hentry
  rw [List.mem_singleton.mp hfirst] at hentry
  cases hentry

/-! ## What is built -/

/-- Options that hold what a branch sets last are declared like those of the branch. -/
theorem declareWith_of_isLast (label : String) (name : Datum)
    (hwords : AreOptions branch) {options : Catalog Datum}
    (h : ∀ word d, options.get? word = some d ↔ Catalog.IsLast branch word d) :
    declareWith label name options.entries
      = declare label name (Options.chosen (said branch)) := by
  have hsaid : said options.entries = said branch := by
    funext f
    rw [said, said, Catalog.ofList_entries]
    ext d
    rw [h, Catalog.get?_ofList_eq_some_iff]
  have hentries : AreOptions options.entries := by
    intro entry hentry
    have hlast := (h _ _).mp (Catalog.get?_of_mem_entries hentry)
    obtain ⟨given, hgiven, hword⟩ := List.mem_map.mp (Catalog.exists_isLast_iff.mp ⟨_, hlast⟩)
    rw [← hword]
    exact hwords given hgiven
  rw [declareWith, Options.ofList_eq hentries, hsaid]
  rfl

/-- A builder builds what is declared with what its branch says. -/
theorem build_of_getElem? {requests : List Request} {place : Nat} {b : Builder}
    (hb : (served label name requests)[place]? = some b)
    (hbranch : (branches requests)[place]? = some branch) :
    b.build = declare label (.string name.text) (Options.chosen (said branch)) := by
  have hwords := areOptions_of_mem (List.mem_of_getElem? hbranch)
  rw [served_eq_map_along, List.getElem?_map, hbranch, Option.map_some] at hb
  cases hb
  exact declareWith_of_isLast label _ hwords fun _ _ => Catalog.get?_ofList_eq_some_iff

/-- Whether two branches set the same, in the same order for each option. Only steps for different
options may have changed places. -/
def Reordered (branch other : List (String × Datum)) : Prop :=
  ∀ word, (branch.filter fun entry => entry.1 = word) = other.filter fun entry => entry.1 = word

theorem said_of_reordered {other : List (String × Datum)} (h : Reordered branch other) :
    said branch = said other := by
  funext f
  ext d
  rw [said, said, Catalog.get?_ofList_eq_some_iff, Catalog.get?_ofList_eq_some_iff,
    Catalog.isLast_iff_getLast?, Catalog.isLast_iff_getLast?, h]

/--
**A builder builds what is declared with the options that its branch sets.** After any requests for
steps of any builders, a builder builds exactly what is declared, or refused, with the name and with
options that hold, for each option that its branch sets, what the branch sets it to last. Steps for
different options may have been taken in another order, and others on other branches.
-/
theorem build_of_branch {requests : List Request} {place : Nat} {b : Builder}
    (h : (served label name requests)[place]? = some b) :
    start label (.string name.text) = .ok ⟨label, name, .empty⟩ ∧
      ∃ branch, (branches requests)[place]? = some branch ∧
        (∀ options : Catalog Datum,
          (∀ word d, options.get? word = some d ↔ Catalog.IsLast branch word d) →
            b.build = declareWith label (.string name.text) options.entries) ∧
        ∀ (others : List Request) (elsewhere : Nat) (c : Builder) (other : List (String × Datum)),
          (served label name others)[elsewhere]? = some c →
            (branches others)[elsewhere]? = some other → Reordered branch other →
              c.build = b.build := by
  have hstart : start label (.string name.text) = .ok ⟨label, name, .empty⟩ := by
    rw [start, Name.declare_text]
    rfl
  obtain ⟨branch, hbranch⟩ : ∃ branch, (branches requests)[place]? = some branch := by
    rw [served_eq_map_along, List.getElem?_map, Option.map_eq_some_iff] at h
    obtain ⟨branch, hbranch, -⟩ := h
    exact ⟨branch, hbranch⟩
  have hwords := areOptions_of_mem (List.mem_of_getElem? hbranch)
  have hb := build_of_getElem? h hbranch
  refine ⟨hstart, branch, hbranch, ?_, ?_⟩
  · intro options hoptions
    rw [hb, declareWith_of_isLast label _ hwords hoptions]
  · intro others elsewhere c other hc hother hsame
    rw [hb, build_of_getElem? hc hother, said_of_reordered hsame]

/-- The limits of an amount are set before its type, and the other steps from the same builders do
not matter. -/
theorem build_of_branch_amount :
    ∃ b, (served defaultLabel amountParameter.name
          [⟨0, "min", [.integer 1]⟩, ⟨1, "max", [.integer 0]⟩, ⟨1, "max", [.integer 100]⟩,
            ⟨2, "greedy", []⟩, ⟨3, "type", [.valueType .integer]⟩])[5]? = some b ∧
      b.build = .ok amountParameter ∧
      b.build = declareWith defaultLabel (.string amountParameter.name.text)
        (Catalog.ofList [("min", .integer 1), ("max", .integer 100),
          ("type", .valueType .integer)]).entries := by
  have hserved : (served defaultLabel amountParameter.name
      [⟨0, "min", [.integer 1]⟩, ⟨1, "max", [.integer 0]⟩, ⟨1, "max", [.integer 100]⟩,
        ⟨2, "greedy", []⟩, ⟨3, "type", [.valueType .integer]⟩])[5]?
      = some (along defaultLabel amountParameter.name [("min", .integer 1), ("max", .integer 100),
          ("type", .valueType .integer)]) := rfl
  have hchosen : Options.chosen (said [("min", .integer 1), ("max", .integer 100),
        ("type", .valueType .integer)])
      = { type := .valueType .integer, least := .integer 1, greatest := .integer 100 } := rfl
  have hdomain : declareDomain defaultLabel
        { type := .valueType .integer, least := .integer 1, greatest := .integer 100 }
      = .ok ⟨amountParameter.domain, amountParameter.sound⟩ :=
    declareInteger_of_limits _ rfl rfl rfl
  obtain ⟨-, branch, hbranch, hbuild, -⟩ := build_of_branch hserved
  have hbuilt := build_of_getElem? hserved hbranch
  have hdeclared := hbuild (Catalog.ofList branch) fun _ _ => Catalog.get?_ofList_eq_some_iff
  cases hbranch
  refine ⟨_, hserved, hbuilt.trans ?_, hdeclared⟩
  refine (congrArg (declare _ _) hchosen).trans ?_
  rw [declare, Name.declare_text, hdomain]
  rfl

end Builder

end CommandTree.Parameter
