import CommandTree.Proofs.Host.Language
import CommandTree.Proofs.Host.Ready

/-!
# Mounting that stops halfway

Mounting does one thing after the other. A word is put at the start, its description and its aliases
are noted, and then a redirecting word is put beside it for each alias. The first alias that is no
name stops it, and what has been done until then stays. So mounting that fails leaves no trace only
if there was nothing left to change.

* `branch?_mount`: mounting changes no branch but the start
* `mountAliases_start`: what the aliases up to the first that is no name put at the start
* `mountAliases_append`: an alias that is no name stops mounting there
* `mount_traceless_iff`: when mounting that fails leaves no trace
-/

namespace CommandTree

open Text

/-- Whether a datum is a name. -/
def Datum.IsName (d : Datum) : Prop := ∃ name : Name, d = .string name.text

namespace Registrar

open Grammar

variable {g : Grammar} {start word : BranchId}

/-! ## One alias -/

/-- The grammar with a redirecting word at the start for an alias. -/
def mountAlias (g : Grammar) (start word : BranchId) (name : Name) : Grammar :=
  (g.add (.bare (.word name (some word)))).1.attach start g.size

theorem mountAliases_cons_name (hword : g.IsWord word) (name : Name) (rest : List Datum) :
    mountAliases g start word (.string name.text :: rest)
      = mountAliases (mountAlias g start word name) start word rest := by
  rw [mountAliases, addWord_redirect hword, Name.declare_text]
  rfl

theorem mountAliases_cons_other (start : BranchId) (hword : g.IsWord word) {a : Datum}
    (ha : ¬ a.IsName) (rest : List Datum) :
    ∃ fault, mountAliases g start word (a :: rest) = (g, .error fault) := by
  rw [mountAliases, addWord_redirect hword]
  cases hname : Name.declare "literal" a with
  | error fault => exact ⟨fault, rfl⟩
  | ok name => exact absurd ⟨name, Name.declare_eq_ok_iff.mp hname⟩ ha

theorem keepsKinds_mountAlias (g : Grammar) (start word : BranchId) (name : Name) :
    g.KeepsKinds (mountAlias g start word name) :=
  (keepsKinds_add g _).trans (keepsKinds_attach _ start g.size)

theorem size_mountAlias (g : Grammar) (start word : BranchId) (name : Name) :
    (mountAlias g start word name).size = g.size + 1 := by
  rw [mountAlias, size_attach, size_add]

theorem branch?_mountAlias {b : BranchId} (hb : b ≠ start) {B : Branch} (hB : g.branch? b = some B)
    (name : Name) : (mountAlias g start word name).branch? b = some B := by
  rw [mountAlias, branch?_attach (Ne.symm hb), branch?_add_of_some hB]

theorem branch?_mountAlias_start {S : Branch} (hS : g.branch? start = some S) (name : Name) :
    (mountAlias g start word name).branch? start
      = some { S with children := S.children.put name.key g.size } := by
  have hattached := branch?_attach_self (branch?_add_of_some hS (.bare (.word name (some word))))
    (branch?_add_self g (.bare (.word name (some word))))
  exact hattached

/-! ## All aliases -/

/-- Mounting aliases changes no branch but the start. -/
theorem branch?_mountAliases (hword : g.IsWord word) {b : BranchId} (hb : b ≠ start) {B : Branch}
    (hB : g.branch? b = some B) (items : List Datum) :
    (mountAliases g start word items).1.branch? b = some B := by
  induction items generalizing g with
  | nil => exact hB
  | cons a rest ih =>
    by_cases ha : a.IsName
    · obtain ⟨name, rfl⟩ := ha
      rw [mountAliases_cons_name hword]
      exact ih (hword.keepsKinds (keepsKinds_mountAlias g start word name))
        (branch?_mountAlias hb hB name)
    · obtain ⟨fault, heq⟩ := mountAliases_cons_other start hword ha rest
      rw [heq]
      exact hB

theorem namesOf_cons_name (name : Name) (rest : List Datum) :
    namesOf (.string name.text :: rest) = name :: namesOf rest := by
  rw [namesOf, Name.declare_text]

theorem namesOf_cons_other {a : Datum} (ha : ¬ a.IsName) (rest : List Datum) :
    namesOf (a :: rest) = [] := by
  rw [namesOf]
  cases hname : Name.declare "literal" a with
  | error fault => rfl
  | ok name => exact absurd ⟨name, Name.declare_eq_ok_iff.mp hname⟩ ha

/-- **What aliases put at the start**: under each that is mounted a word that was not there before,
and nothing elsewhere. -/
theorem mountAliases_start (hword : g.IsWord word) {S : Branch} (hS : g.branch? start = some S)
    (items : List Datum) :
    ∃ S', (mountAliases g start word items).1.branch? start = some S' ∧ S'.kind = S.kind ∧
      (∀ name ∈ namesOf items, ∃ c, g.size ≤ c ∧ S'.children.get? name.key = some c) ∧
      ∀ key ∉ (namesOf items).map Name.key, S'.children.get? key = S.children.get? key := by
  induction items generalizing g S with
  | nil => exact ⟨S, hS, rfl, fun name hname => (by cases hname), fun key _ => rfl⟩
  | cons a rest ih =>
    by_cases ha : a.IsName
    · obtain ⟨name, rfl⟩ := ha
      obtain ⟨S', hS', hkind, hnamed, hothers⟩ :=
        ih (hword.keepsKinds (keepsKinds_mountAlias g start word name))
          (branch?_mountAlias_start hS name)
      rw [mountAliases_cons_name hword, namesOf_cons_name]
      rw [size_mountAlias] at hnamed
      refine ⟨S', hS', hkind, fun other hother => ?_, fun key hkey => ?_⟩
      · by_cases hlater : other.key ∈ (namesOf rest).map Name.key
        -- an alias of the same key that comes later has replaced the word of this one
        · obtain ⟨later, hmem, hsame⟩ := List.mem_map.mp hlater
          obtain ⟨c, hc, hget⟩ := hnamed later hmem
          exact ⟨c, Nat.le_of_succ_le hc, hsame ▸ hget⟩
        · rcases List.mem_cons.mp hother with rfl | hmem
          · refine ⟨g.size, Nat.le_refl _, ?_⟩
            rw [hothers _ hlater]
            exact Catalog.get?_put_self ..
          · exact absurd (List.mem_map_of_mem hmem) hlater
      · rw [List.map_cons, List.mem_cons, not_or] at hkey
        rw [hothers key hkey.2]
        exact (Catalog.get?_put ..).trans (if_neg hkey.1)
    · obtain ⟨fault, heq⟩ := mountAliases_cons_other start hword ha rest
      rw [heq, namesOf_cons_other ha]
      exact ⟨S, hS, rfl, fun name hname => (by cases hname), fun key _ => rfl⟩

/-- **An alias that is no name stops mounting**: those before it have been mounted. -/
theorem mountAliases_append (start : BranchId) (hword : g.IsWord word) (names : List Name)
    {bad : Datum} (hbad : ¬ bad.IsName) (rest : List Datum) :
    ∃ fault, mountAliases g start word (names.map (fun a => .string a.text) ++ bad :: rest)
      = ((mountAliases g start word (names.map fun a => .string a.text)).1, .error fault) := by
  induction names generalizing g with
  | nil => exact mountAliases_cons_other start hword hbad rest
  | cons name names ih =>
    rw [List.map_cons, List.cons_append, mountAliases_cons_name hword, mountAliases_cons_name hword]
    exact ih (hword.keepsKinds (keepsKinds_mountAlias g start word name))

theorem mountAliases_all_names (start : BranchId) (hword : g.IsWord word) (names : List Name) :
    (mountAliases g start word (names.map fun a => .string a.text)).2 = .ok () := by
  induction names generalizing g with
  | nil => rfl
  | cons name names ih =>
    rw [List.map_cons, mountAliases_cons_name hword]
    exact ih (hword.keepsKinds (keepsKinds_mountAlias g start word name))

/-- Aliases are all names, or there is a first one that is not. -/
theorem names_or_first_other (items : List Datum) :
    (∃ names : List Name, items = names.map fun a => .string a.text) ∨
      ∃ (names : List Name) (bad : Datum) (rest : List Datum), ¬ bad.IsName ∧
        items = names.map (fun a => .string a.text) ++ bad :: rest := by
  induction items with
  | nil => exact Or.inl ⟨[], rfl⟩
  | cons a items ih =>
    by_cases ha : a.IsName
    · obtain ⟨name, rfl⟩ := ha
      rcases ih with ⟨names, rfl⟩ | ⟨names, bad, rest, hbad, rfl⟩
      · exact Or.inl ⟨name :: names, rfl⟩
      · exact Or.inr ⟨name :: names, bad, rest, hbad, rfl⟩
    · exact Or.inr ⟨[], a, items, ha, rfl⟩

/-! ## Mounting -/

/-- What mounting a word does, where its aliases can be listed. -/
theorem mount_of_items {r : Registrar} {w : BranchArgument}
    (hword : g.branchThat Branch.isWord w = some word) {aliases : Datum} {items : List Datum}
    (hitems : aliases.items = .ok items) (description : Datum) :
    mount g r w description aliases
      = ((mountAliases (g.attach r.start word) r.start word items).1,
        ⟨r.start, r.descriptions.put (lowercase (g.nameOf word)) description,
          r.aliases.put (lowercase (g.nameOf word)) items⟩,
        (mountAliases (g.attach r.start word) r.start word items).2) := by
  rw [mount, hword]
  dsimp only
  rw [hitems]

theorem mount_of_no_word {r : Registrar} {w : BranchArgument}
    (hword : g.branchThat Branch.isWord w = none) (description aliases : Datum) :
    mount g r w description aliases = (g, r, .error (.use .wordExpected)) := by
  rw [mount, hword]

/-- **Mounting changes no branch but the start.** -/
theorem branch?_mount {r : Registrar} {b : BranchId} (hb : b ≠ r.start) {B : Branch}
    (hB : g.branch? b = some B) (w : BranchArgument) (description aliases : Datum) :
    (mount g r w description aliases).1.branch? b = some B := by
  cases hword : g.branchThat Branch.isWord w with
  | none =>
    rw [mount_of_no_word hword]
    exact hB
  | some word =>
    have hattached : (g.attach r.start word).branch? b = some B := by
      rw [branch?_attach (Ne.symm hb), hB]
    rw [mount, hword]
    dsimp only
    cases aliases.items with
    | error fault => exact hattached
    | ok items =>
      have hisWord : g.IsWord word := (branchThat_eq_some hword).2
      have hisWord' := hisWord.keepsKinds (keepsKinds_attach g r.start word)
      exact branch?_mountAliases hisWord' hb hattached items

end Registrar

namespace Host

variable {h : Host}

/-! ## Traces -/

/-- Whether nothing that a registrar tells differs between two hosts: what stands at the start, the
descriptions, and the aliases. -/
structure SameMounts (h h' : Host) : Prop where
  children : h'.grammar.childrenOf h'.registrar.start = h.grammar.childrenOf h.registrar.start
  descriptions : h'.registrar.descriptions = h.registrar.descriptions
  aliases : h'.registrar.aliases = h.registrar.aliases

/-- Whether a word is mounted with a description and aliases. -/
structure Records (h : Host) (word : BranchId) (description : Datum) (aliases : List Datum) :
    Prop where
  child : (h.grammar.childrenOf h.registrar.start).get? (lowercase (h.grammar.nameOf word))
    = some word
  description : h.registrar.descriptions.get? (lowercase (h.grammar.nameOf word))
    = some description
  aliases : h.registrar.aliases.get? (lowercase (h.grammar.nameOf word)) = some aliases

theorem isWord_attached {word : BranchId} (hword : h.grammar.IsWord word) :
    (h.grammar.attach h.registrar.start word).IsWord word :=
  hword.keepsKinds (Grammar.keepsKinds_attach _ h.registrar.start word)

/-- What stands at the start after a word has been put there. -/
theorem Ready.attached (hh : h.Ready) {word : BranchId} (hword : h.grammar.IsWord word) :
    ∃ S, (h.grammar.attach h.registrar.start word).branch? h.registrar.start = some S ∧
      S.kind = .start ∧
      S.children = (h.grammar.childrenOf h.registrar.start).put
        (lowercase (h.grammar.nameOf word)) word := by
  obtain ⟨S, hS, hkind⟩ := hh.start
  obtain ⟨W, hW, -⟩ := (Option.any_eq_true _ _).mp hword
  refine ⟨_, Grammar.branch?_attach_self hS hW, hkind, ?_⟩
  rw [Grammar.childrenOf_start hS hkind, Grammar.nameOf, hW]
  rfl

/-- Where an alias has been mounted, something stands at the start that did not before. -/
theorem Reachable.children_ne (hh : h.Reachable) {word : BranchId} (hword : h.grammar.IsWord word)
    {items : List Datum} (hne : Registrar.namesOf items ≠ []) :
    (Registrar.mountAliases (h.grammar.attach h.registrar.start word) h.registrar.start word
        items).1.childrenOf h.registrar.start ≠ h.grammar.childrenOf h.registrar.start := by
  obtain ⟨S, hS, hkind, -⟩ := hh.ready.attached hword
  obtain ⟨S₀, hS₀, hkind₀⟩ := hh.ready.start
  obtain ⟨S', hS', hkind', hnamed, -⟩ :=
    Registrar.mountAliases_start (isWord_attached hword) hS items
  rw [Grammar.childrenOf_start hS' (hkind'.trans hkind), Grammar.childrenOf_start hS₀ hkind₀]
  intro hsame
  obtain ⟨name, hname⟩ := List.exists_mem_of_ne_nil _ hne
  obtain ⟨c, hc, hget⟩ := hnamed name hname
  rw [hsame] at hget
  -- what stood at the start before is a branch that was there before
  have hfollow := hh.wellFormed.child hS₀ (Catalog.mem_items_iff_get?.mpr ⟨_, hget⟩)
  obtain ⟨C, hC, -⟩ := hfollow.exists_branch
  rw [Grammar.size_attach] at hc
  exact Nat.not_le_of_lt (Grammar.branch?_lt hC) hc

/-- Mounting that is stopped by its first alias has put the word at the start and noted what was
said of it. -/
theorem Ready.sameMounts_iff (hh : h.Ready) {word : BranchId} (hword : h.grammar.IsWord word)
    (description : Datum) (items : List Datum) :
    h.SameMounts { h with
        grammar := h.grammar.attach h.registrar.start word
        registrar := ⟨h.registrar.start,
          h.registrar.descriptions.put (lowercase (h.grammar.nameOf word)) description,
          h.registrar.aliases.put (lowercase (h.grammar.nameOf word)) items⟩ } ↔
      h.Records word description items := by
  obtain ⟨S, hS, hkind, hchildren⟩ := hh.attached hword
  have hstart : (h.grammar.attach h.registrar.start word).childrenOf h.registrar.start
      = (h.grammar.childrenOf h.registrar.start).put (lowercase (h.grammar.nameOf word)) word :=
    (Grammar.childrenOf_start hS hkind).trans hchildren
  constructor
  · rintro ⟨hc, hd, ha⟩
    exact ⟨Catalog.put_eq_self_iff.mp (hstart.symm.trans hc), Catalog.put_eq_self_iff.mp hd,
      Catalog.put_eq_self_iff.mp ha⟩
  · rintro ⟨hc, hd, ha⟩
    exact ⟨hstart.trans (Catalog.put_eq_self_iff.mpr hc), Catalog.put_eq_self_iff.mpr hd,
      Catalog.put_eq_self_iff.mpr ha⟩

/-! ## Mounting that fails -/

variable {w : Grammar.BranchArgument} {word : BranchId} {aliases : Datum} {items : List Datum}

/-- What is no word is not mounted, and nothing happens. -/
theorem mount_of_no_word (hthat : h.grammar.branchThat Branch.isWord w = none)
    (description aliases : Datum) :
    h.mount w description aliases = (h, .error (.use .wordExpected)) := by
  rw [Host.mount, Registrar.mount_of_no_word hthat]

/-- Mounting a word fails exactly if one of its aliases is no name. -/
theorem mount_fails_iff (hthat : h.grammar.branchThat Branch.isWord w = some word)
    (hitems : aliases.items = .ok items) (description : Datum) :
    (∃ fault, (h.mount w description aliases).2 = .error fault) ↔ ∃ a ∈ items, ¬ a.IsName := by
  have hword := isWord_attached (Grammar.branchThat_eq_some hthat).2
  have hresult : (h.mount w description aliases).2 = (Registrar.mountAliases
      (h.grammar.attach h.registrar.start word) h.registrar.start word items).2 := by
    rw [Host.mount, Registrar.mount_of_items hthat hitems]
  rw [hresult]
  rcases Registrar.names_or_first_other items with ⟨names, rfl⟩ | ⟨names, bad, rest, hbad, rfl⟩
  · rw [Registrar.mountAliases_all_names h.registrar.start hword names]
    refine iff_of_false ?_ ?_
    · rintro ⟨fault, hfault⟩
      cases hfault
    · rintro ⟨a, ha, hother⟩
      obtain ⟨name, -, rfl⟩ := List.mem_map.mp ha
      exact hother ⟨name, rfl⟩
  · obtain ⟨fault, hstop⟩ :=
      Registrar.mountAliases_append h.registrar.start hword names hbad rest
    exact iff_of_true ⟨fault, by rw [hstop]⟩
      ⟨bad, List.mem_append_right _ (List.mem_cons_self ..), hbad⟩

/-- What mounting has done when the first alias that is no name stops it. -/
theorem mount_stopped (hthat : h.grammar.branchThat Branch.isWord w = some word)
    (names : List Name) {bad : Datum} (hbad : ¬ bad.IsName) {rest : List Datum}
    (hitems : aliases.items = .ok (names.map (fun a => .string a.text) ++ bad :: rest))
    (description : Datum) :
    (h.mount w description aliases).1 = { h with
      grammar := (Registrar.mountAliases (h.grammar.attach h.registrar.start word)
        h.registrar.start word (names.map fun a => .string a.text)).1
      registrar := ⟨h.registrar.start,
        h.registrar.descriptions.put (lowercase (h.grammar.nameOf word)) description,
        h.registrar.aliases.put (lowercase (h.grammar.nameOf word))
          (names.map (fun a => .string a.text) ++ bad :: rest)⟩ } := by
  have hword := isWord_attached (Grammar.branchThat_eq_some hthat).2
  obtain ⟨fault, hstop⟩ := Registrar.mountAliases_append h.registrar.start hword names hbad rest
  rw [Host.mount, Registrar.mount_of_items hthat hitems, hstop]

/-- Mounting that is stopped leaves no trace exactly if its first alias stopped it and nothing that
was done before was new. -/
theorem Reachable.sameMounts_stopped (hh : h.Reachable)
    (hthat : h.grammar.branchThat Branch.isWord w = some word) (names : List Name) {bad : Datum}
    (hbad : ¬ bad.IsName) {rest : List Datum}
    (hitems : aliases.items = .ok (names.map (fun a => .string a.text) ++ bad :: rest))
    (description : Datum) :
    h.SameMounts (h.mount w description aliases).1 ↔ names = [] ∧
      h.Records word description (names.map (fun a => .string a.text) ++ bad :: rest) := by
  have hword : h.grammar.IsWord word := (Grammar.branchThat_eq_some hthat).2
  rw [mount_stopped hthat names hbad hitems]
  cases names with
  | nil => exact (hh.ready.sameMounts_iff hword description _).trans (and_iff_right rfl).symm
  | cons name names =>
    refine iff_of_false (fun hsame => ?_) (fun hnil => by cases hnil.1)
    refine hh.children_ne hword ?_ hsame.children
    rw [Registrar.namesOf_text]
    exact List.cons_ne_nil name names

end Host

/--
**Mounting that fails leaves no trace only if there was nothing left to change.** At any host that
can be made, mounting fails exactly if what is to be mounted is no word, or if one of the aliases is
no name. What is no word changes nothing. Otherwise the word and the aliases before the first that
is no name have been mounted, and the description and all aliases have been noted; that leaves
everything as it was exactly if the first alias is the one that is no name, and the word was mounted
before with that description and those aliases.
-/
theorem mount_traceless_iff {h : Host} (hh : h.Reachable) (w : Grammar.BranchArgument)
    (description : Datum) {aliases : Datum} {items : List Datum}
    (hitems : aliases.items = .ok items) :
    let h' := (h.mount w description aliases).1
    let fails := ∃ fault, (h.mount w description aliases).2 = .error fault
    (fails ↔ h.grammar.branchThat Branch.isWord w = none ∨ ∃ a ∈ items, ¬ a.IsName) ∧
      (h.grammar.branchThat Branch.isWord w = none → h' = h) ∧
      ∀ word names bad rest, h.grammar.branchThat Branch.isWord w = some word →
        items = names.map (fun a : Name => .string a.text) ++ bad :: rest → ¬ bad.IsName →
        h'.grammar
            = (h.mount w description (.tuple (names.map fun a => .string a.text))).1.grammar ∧
          h'.registrar.descriptions
            = h.registrar.descriptions.put (lowercase (h.grammar.nameOf word)) description ∧
          h'.registrar.aliases
            = h.registrar.aliases.put (lowercase (h.grammar.nameOf word)) items ∧
          (h.SameMounts h' ↔ names = [] ∧ h.Records word description items) := by
  intro h' fails
  cases hthat : h.grammar.branchThat Branch.isWord w with
  | none =>
    have hmount := Host.mount_of_no_word hthat description aliases
    exact ⟨iff_of_true ⟨_, congrArg Prod.snd hmount⟩ (Or.inl rfl),
      fun _ => congrArg Prod.fst hmount, fun word names bad rest hword => by cases hword⟩
  | some word =>
    refine ⟨?_, fun hnone => (by cases hnone), fun word' names bad rest hsome hsplit hbad => ?_⟩
    · have hfails := Host.mount_fails_iff hthat hitems description
      exact hfails.trans ⟨Or.inr, fun h => h.resolve_left fun hnone => by cases hnone⟩
    · cases hsome
      have hnamed : aliases.items = .ok (names.map (fun a => .string a.text) ++ bad :: rest) :=
        hitems.trans (congrArg Except.ok hsplit)
      have hhost := Host.mount_stopped hthat names hbad hnamed description
      have hbefore := Registrar.mount_of_items (r := h.registrar) hthat
        (rfl : (Datum.tuple (names.map fun a => .string a.text)).items = .ok _) description
      have hsame := hh.sameMounts_stopped hthat names hbad hnamed description
      subst hsplit
      refine ⟨?_, congrArg (·.registrar.descriptions) hhost, congrArg (·.registrar.aliases) hhost,
        hsame⟩
      refine (congrArg Host.grammar hhost).trans ?_
      rw [Host.mount, hbefore]

/-! ## A word with a bad alias -/

/-- A host with a word that is mounted nowhere. -/
def wordHost : Host :=
  { Host.create none with
    grammar := ((Host.create none).grammar.add (.bare (.word ⟨"stats", by decide⟩ none))).1 }

theorem wordHost_reachable : wordHost.Reachable :=
  Host.Reachable.operation ⟨none, .refl⟩
    (.word (rfl : (Host.create none).grammar.addWord (.string "stats") .nothing
      = .ok (wordHost.grammar, 1)))

/-- A text that is no name. -/
def badAlias : Datum := .string "bad alias"

theorem badAlias_not_isName : ¬ badAlias.IsName := by
  rintro ⟨name, hname⟩
  have htext : name.text = "bad alias" := (Datum.string.inj hname).symm
  have htoken := name.isToken
  rw [htext] at htoken
  exact absurd htoken (by decide)

/-- The host after an attempt to mount the word with that alias. -/
def halfMounted : Host := (wordHost.mount (.branch 1) .null (.list [badAlias])).1

/-- A word that has been mounted halfway is mounted halfway once more, and that changes nothing. -/
theorem mount_traceless_again :
    halfMounted.Reachable ∧ (Datum.list [badAlias]).items = .ok [badAlias] ∧
      (∃ fault, (halfMounted.mount (.branch 1) .null (.list [badAlias])).2 = .error fault) ∧
      halfMounted.SameMounts (halfMounted.mount (.branch 1) .null (.list [badAlias])).1 := by
  have hh : halfMounted.Reachable :=
    wordHost_reachable.operation (.mount wordHost (.branch 1) .null _)
  have hitems : (Datum.list [badAlias]).items = .ok [badAlias] := rfl
  obtain ⟨hfails, -, hhalf⟩ := mount_traceless_iff hh (.branch 1) .null hitems
  refine ⟨hh, hitems, hfails.mpr (Or.inr ⟨_, List.mem_singleton_self _, badAlias_not_isName⟩), ?_⟩
  obtain ⟨-, -, -, hsame⟩ := hhalf 1 [] badAlias [] rfl rfl badAlias_not_isName
  exact hsame.mpr ⟨rfl, rfl, rfl, rfl⟩

/-- A word whose second alias is no name is mounted with its first alias, though mounting fails. -/
theorem mount_leaves_word_and_alias :
    let aliases : Datum := .list [.string "st", badAlias]
    let h' := (wordHost.mount (.branch 1) (.string "counts") aliases).1
    wordHost.Reachable ∧
      (∃ fault, (wordHost.mount (.branch 1) (.string "counts") aliases).2 = .error fault) ∧
      (wordHost.grammar.childrenOf wordHost.registrar.start).entries = [] ∧
      (h'.grammar.childrenOf h'.registrar.start).entries = [("stats", 1), ("st", 2)] ∧
      wordHost.registrar.descriptions.get? "stats" = none ∧
      h'.registrar.descriptions.get? "stats" = some (.string "counts") ∧
      wordHost.registrar.aliases.get? "stats" = none ∧
      h'.registrar.aliases.get? "stats" = some [.string "st", badAlias] :=
  ⟨wordHost_reachable, ⟨_, rfl⟩, rfl, rfl, rfl, rfl, rfl, rfl⟩

end CommandTree
