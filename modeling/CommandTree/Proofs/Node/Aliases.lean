import CommandTree.Node.Declaration
import CommandTree.Proofs.Grammar.Route

/-!
# The aliases of a node

Of the aliases that a node is declared with, the first of each key is kept, in the order and in the
letters in which they were given, and none with the key of the node itself. So the aliases of a node
can be given to another node of its name, which has the same aliases then.

* `keptAliases_text`: what has been seen are the key of the node and those of the aliases before
* `keptAliases_eq_self`: names that differ in their keys are all kept
* `describe_withAliases`: what aliases change in a declaration
* `describe_keeps_first_of_keys`: the aliases of a node that is declared
-/

namespace CommandTree.Node

open Text

/-! ## First texts of their keys -/

/-- Whether a text, which stands at a place of several ones, is the first of its key, and the key is
not a given one. -/
def isFirst (own : String) (texts : List String) (placed : String × Nat) : Bool :=
  lowercase placed.1 != own &&
    (texts.take placed.2).all fun before => lowercase before != lowercase placed.1

/-- The texts that are the first of their key, in order, but for those of a given key. -/
def firstOfKeys (own : String) (texts : List String) : List String :=
  (texts.zipIdx.filter (isFirst own texts)).map Prod.fst

theorem firstOfKeys_sublist (own : String) (texts : List String) :
    (firstOfKeys own texts).Sublist texts := by
  have h := (List.filter_sublist (p := isFirst own texts) (l := texts.zipIdx)).map Prod.fst
  rwa [List.zipIdx_map_fst] at h

/-- Behind other texts, a text is the first of its key exactly if the key is neither the given one
nor that of a text before. -/
theorem isFirst_append (own text : String) (before rest : List String) :
    isFirst own (before ++ text :: rest) (text, before.length) = true ↔
      lowercase text ≠ own ∧ lowercase text ∉ before.map lowercase := by
  simp only [isFirst, List.take_left, Bool.and_eq_true, bne_iff_ne, List.all_eq_true, List.mem_map,
    not_exists, not_and]

/-- Where the keys that have been seen are a given one and those of the texts before, the names that
are kept are the first of their keys. -/
theorem keptAliases_text {own : String} {seen : List String} (before : List String)
    (names : List Name) (h : ∀ key, key ∈ seen ↔ key = own ∨ key ∈ before.map lowercase) :
    (keptAliases seen names).map Name.text
      = (((names.map Name.text).zipIdx before.length).filter
          (isFirst own (before ++ names.map Name.text))).map Prod.fst := by
  induction names generalizing seen before with
  | nil => rfl
  | cons name rest ih =>
    have hfirst := isFirst_append own name.text before (rest.map Name.text)
    have hseen : name.key ∉ seen ↔ isFirst own (before ++ name.text :: rest.map Name.text)
        (name.text, before.length) = true := by
      rw [hfirst, h, not_or]
      rfl
    have hmove : before ++ name.text :: rest.map Name.text
        = (before ++ [name.text]) ++ rest.map Name.text := by simp
    have hkeys : ∀ key, key ∈ (before ++ [name.text]).map lowercase ↔
        key = name.key ∨ key ∈ before.map lowercase := fun key => by
      rw [List.map_append, List.mem_append, List.map_singleton, List.mem_singleton, or_comm]
      rfl
    rw [keptAliases, List.map_cons, List.zipIdx_cons]
    by_cases hmem : name.key ∈ seen
    · -- a key that has been seen adds nothing to those of the texts before
      have hnext : ∀ key, key ∈ seen ↔
          key = own ∨ key ∈ (before ++ [name.text]).map lowercase := fun key => by
        rw [hkeys, or_left_comm, ← h]
        exact ⟨Or.inr, fun hkey => hkey.elim (fun heq => heq ▸ hmem) id⟩
      have hrest := ih _ hnext
      rw [List.length_append, List.length_singleton] at hrest
      rw [if_pos hmem, List.filter_cons_of_neg (hseen.not_right.mp hmem), hmove]
      exact hrest
    · have hnext : ∀ key, key ∈ name.key :: seen ↔
          key = own ∨ key ∈ (before ++ [name.text]).map lowercase := fun key => by
        rw [List.mem_cons, hkeys, h]
        exact or_left_comm
      have hrest := ih _ hnext
      rw [List.length_append, List.length_singleton] at hrest
      rw [if_neg hmem, List.filter_cons_of_pos (hseen.mp hmem), List.map_cons, List.map_cons,
        hmove, hrest]

/-- The names that are kept are those of the keys that have not been seen. -/
theorem mem_keys_keptAliases {seen : List String} {names : List Name} {key : String} :
    key ∈ (keptAliases seen names).map Name.key ↔ key ∈ names.map Name.key ∧ key ∉ seen := by
  induction names generalizing seen with
  | nil => simp [keptAliases]
  | cons name rest ih =>
    rw [keptAliases]
    by_cases hmem : name.key ∈ seen
    · rw [if_pos hmem, ih]
      grind
    · rw [if_neg hmem, List.map_cons, List.mem_cons, ih]
      grind

/-- Names that differ in their keys, from each other and from what has been seen, are all kept. -/
theorem keptAliases_eq_self {seen : List String} {names : List Name}
    (hnodup : (names.map Name.key).Nodup) (h : ∀ name ∈ names, name.key ∉ seen) :
    keptAliases seen names = names := by
  induction names generalizing seen with
  | nil => rfl
  | cons name rest ih =>
    rw [List.map_cons, List.nodup_cons] at hnodup
    obtain ⟨hname, hrest⟩ := List.forall_mem_cons.mp h
    rw [keptAliases, if_neg hname, ih hnodup.2]
    intro other hother hmem
    rcases List.mem_cons.mp hmem with hkey | hold
    · exact hnodup.1 (hkey ▸ List.mem_map_of_mem hother)
    · exact hrest other hother hold

/-! ## Declarations with aliases -/

/-- What is declared as aliases are the texts of the names. -/
theorem eq_of_mapM_declare {role : String} {items : List Datum} {names : List Name}
    (h : items.mapM (Name.declare role) = .ok names) :
    items = names.map fun a => .string a.text := by
  have hall := (Grammar.forall₂_of_mapM h).imp fun _ _ => Name.declare_eq_ok_iff.mp
  exact List.forall₂_eq_eq_eq ▸ List.forall₂_map_right_iff.mpr hall

theorem mapM_declare (role : String) (names : List Name) :
    (names.map fun a => Datum.string a.text).mapM (Name.declare role) = .ok names := by
  induction names with
  | nil => rfl
  | cons name rest ih =>
    rw [List.map_cons, List.mapM_cons, ih, Name.declare_text]
    rfl

theorem items_of_readAliases {label : String} {d : Datum} {names : List Name}
    (h : readAliases label d = .ok names) : d.items = .ok (names.map fun a => .string a.text) := by
  unfold readAliases at h
  split at h
  · cases h
  · cases h
  · cases hitems : d.items with
    | error fault =>
      rw [hitems] at h
      cases h
    | ok items =>
      rw [hitems] at h
      rw [eq_of_mapM_declare h]

/-- The options with aliases that are names. -/
def Options.withAliases (o : Options) (aliases : List Name) : Options :=
  { o with aliases := .tuple (aliases.map fun a => .string a.text) }

theorem readAliases_withAliases (label : String) (o : Options) (names : List Name) :
    readAliases label (o.withAliases names).aliases = .ok names :=
  mapM_declare (aliasRole label) names

/-- A node that is declared has the name that it is declared with, and of the names that its aliases
are those that are kept. -/
theorem describe_eq_ok {label : String} {role : NodeRole} {name : Datum} {o : Options}
    {d : Description} (h : describe label role name o = .ok d) :
    name = .string d.name.text ∧ ∃ names, readAliases label o.aliases = .ok names ∧
      d.aliases = keptAliases [d.name.key] names := by
  simp only [describe, bind, Except.bind] at h
  split at h
  · cases h
  next declared hname =>
  split at h
  · cases h
  split at h
  · cases h
  split at h
  · cases h
  next names haliases =>
  split at h
  · cases h
  cases h
  exact ⟨Name.declare_eq_ok_iff.mp hname, names, haliases, rfl⟩

/-- A declaration knows only of the names of its aliases. -/
theorem describe_eq_withAliases {label : String} {o : Options} {names : List Name}
    (h : readAliases label o.aliases = .ok names) (role : NodeRole) (name : Datum) :
    describe label role name o = describe label role name (o.withAliases names) := by
  rw [describe, describe, h, readAliases_withAliases]
  rfl

/-- **Aliases are the same for whatever else a node of a name is declared with**, and nothing but
its aliases depends on them. -/
theorem describe_withAliases (label : String) (role : NodeRole) (name : Name) (o : Options)
    (names : List Name) :
    describe label role (.string name.text) (o.withAliases names)
      = (describe label role (.string name.text) (o.withAliases [])).map fun d =>
          { d with aliases := keptAliases [name.key] names } := by
  rw [describe, describe, readAliases_withAliases, readAliases_withAliases, Name.declare_text]
  simp only [Options.withAliases, bind, Except.bind]
  cases optionalText label "permission" o.permission with
  | error fault => rfl
  | ok permission =>
    cases optionalText label "description" o.description with
    | error fault => rfl
    | ok description => cases readAudience label o.audience <;> rfl

/--
**Of the aliases of a node the first of each key is kept.** A node that is declared with texts as
aliases has those of them that are the first of their key, as they are written and in their order,
but for those with the key of the node itself: the keys of its aliases differ from each other and
from its own, and there is one for every other key of the texts. Declared with these aliases, the
node is the same, and any other node of its name, which is refused for other reasons only, has the
same aliases.
-/
theorem describe_keeps_first_of_keys {label : String} {role : NodeRole} {name : Datum}
    {o : Options} {d : Description} (h : describe label role name o = .ok d) {texts : List String}
    (hitems : o.aliases.items = .ok (texts.map Datum.string)) :
    d.aliases.map Name.text = firstOfKeys d.name.key texts ∧
      (d.aliases.map Name.text).Sublist texts ∧
      (d.aliases.map Name.key).Nodup ∧ d.name.key ∉ d.aliases.map Name.key ∧
      (∀ t ∈ texts, lowercase t ≠ d.name.key → lowercase t ∈ d.aliases.map Name.key) ∧
      describe label role name (o.withAliases d.aliases) = .ok d ∧
      ∀ label' role' (o' : Options), describe label' role' name (o'.withAliases d.aliases)
        = (describe label' role' name (o'.withAliases [])).map fun d' =>
            { d' with aliases := d.aliases } := by
  obtain ⟨rfl, names, hnames, haliases⟩ := describe_eq_ok h
  obtain ⟨hnodup, hown⟩ := keptAliases_keys [d.name.key] names
  rw [← haliases] at hnodup hown
  have htexts : texts = names.map Name.text := by
    rw [items_of_readAliases hnames, Except.ok.injEq] at hitems
    refine List.map_injective_iff.mpr (fun _ _ => Datum.string.inj) ?_
    rw [← hitems, List.map_map]
    rfl
  have hfirst : d.aliases.map Name.text = firstOfKeys d.name.key texts := by
    rw [haliases, htexts]
    exact keptAliases_text [] names (by simp)
  have hagain : keptAliases [d.name.key] d.aliases = d.aliases := keptAliases_eq_self hnodup hown
  refine ⟨hfirst, hfirst ▸ firstOfKeys_sublist .., hnodup, fun hmem => ?_, fun t ht hkey => ?_, ?_,
    fun label' role' o' => ?_⟩
  · obtain ⟨a, ha, hkey⟩ := List.mem_map.mp hmem
    exact hown a ha (List.mem_singleton.mpr hkey)
  · rw [htexts] at ht
    obtain ⟨a, ha, rfl⟩ := List.mem_map.mp ht
    rw [haliases, mem_keys_keptAliases, List.mem_singleton]
    exact ⟨List.mem_map_of_mem ha, hkey⟩
  · rw [describe_withAliases, hagain, haliases, ← describe_withAliases,
      ← describe_eq_withAliases hnames]
    exact h
  · rw [describe_withAliases, hagain]

/-- The name and one of the aliases are given again in other letters, and are not kept. -/
theorem describe_keeps_first_of_keys_points :
    ∃ d, describe "command" .root (.string "Points")
          { aliases := .list (["PTS", "points", "p", "pts"].map .string) } = .ok d ∧
      d.aliases.map Name.text = ["PTS", "p"] ∧
      describe "command" .root (.string "Points") (Options.withAliases {} d.aliases) = .ok d := by
  have hitems : Datum.items (.list (["PTS", "points", "p", "pts"].map .string))
      = .ok (["PTS", "points", "p", "pts"].map .string) := rfl
  obtain ⟨d, hd⟩ : ∃ d, describe "command" .root (.string "Points")
      { aliases := .list (["PTS", "points", "p", "pts"].map .string) } = .ok d := ⟨_, rfl⟩
  obtain ⟨hfirst, -, -, -, -, hagain, -⟩ := describe_keeps_first_of_keys hd hitems
  have hkey : d.name.key = "points" := by
    obtain ⟨hname, -⟩ := describe_eq_ok hd
    rw [Name.key, ← Datum.string.inj hname]
    decide
  refine ⟨d, hd, ?_, hagain⟩
  rw [hfirst, hkey]
  decide

end CommandTree.Node
