import CommandTree.Proofs.Grammar.Likeness
import CommandTree.Proofs.Grammar.Route
import CommandTree.Proofs.Host.Halfway
import CommandTree.Proofs.Host.Refusal

/-!
# Inputs that mounting does not concern

Mounting a word changes the start only, and there only what is kept under the name of the word and
under its aliases. So an input that begins with another word is read as before, whether mounting
succeeds or stops halfway, and what is known of other words remains known.

* `Filed.mount`, `Orderly.filed`: nothing but words of their keys ever stands at the start
* `alike_of_branches`: a grammar that differs at the start only looks the same from everywhere else
* `mount_spares_others`: what mounting leaves as it was
-/

namespace CommandTree

open Text

namespace Grammar

variable {g g' : Grammar} {start b c word : BranchId}

/-! ## Words at the start -/

/-- What is filed at the start remains so while kinds are kept and the start is left alone. -/
theorem Filed.keepsKinds (h : g.Filed start) (hk : g.KeepsKinds g')
    (hsame : g'.childrenOf start = g.childrenOf start) : g'.Filed start where
  isStart := by
    obtain ⟨S, hS, hkind⟩ := h.isStart
    obtain ⟨S', hS', hkind'⟩ := hk _ S hS
    exact ⟨S', hS', hkind'.trans hkind⟩
  word := fun hc => by
    rw [hsame] at hc
    obtain ⟨C, name, redirect, hC, hkind, hname⟩ := h.word hc
    obtain ⟨C', hC', hkind'⟩ := hk _ C hC
    exact ⟨C', name, redirect, hC', hkind'.trans hkind, hname⟩

theorem Filed.kept (h : g.Filed start) (hk : Kept 0 g g') : g'.Filed start := by
  obtain ⟨S, hS, hkind⟩ := h.isStart
  refine h.keepsKinds hk.keepsKinds ?_
  rw [childrenOf_start (hk.branch (Nat.zero_le _) hS) hkind, childrenOf_start hS hkind]

theorem Filed.attach (h : g.Filed start) (hc : g.IsWord c) : (g.attach start c).Filed start := by
  obtain ⟨S, hS, hkind⟩ := h.isStart
  obtain ⟨C, hC, hword⟩ := (Option.any_eq_true _ _).mp hc
  have hS' := branch?_attach_self hS hC
  refine ⟨⟨_, hS', hkind⟩, fun {key x} hx => ?_⟩
  have hkeeps := keepsKinds_attach g start c
  rw [childrenOf_start hS' hkind, Catalog.get?_put] at hx
  split at hx
  · next hkey =>
    cases hx
    obtain ⟨C', hC', hkind'⟩ := hkeeps _ C hC
    unfold Branch.isWord at hword
    split at hword
    · next name redirect hk =>
      refine ⟨C', name, redirect, hC', hkind'.trans hk, ?_⟩
      rw [hkey, Branch.key, Branch.name, hk]
      rfl
    · cases hword
  · rw [← childrenOf_start hS hkind] at hx
    obtain ⟨X, name, redirect, hX, hk, hname⟩ := h.word hx
    obtain ⟨X', hX', hkind'⟩ := hkeeps _ X hX
    exact ⟨X', name, redirect, hX', hkind'.trans hk, hname⟩

theorem Filed.mountAliases (h : g.Filed start) (hword : g.IsWord word) (items : List Datum) :
    (Registrar.mountAliases g start word items).1.Filed start := by
  induction items generalizing g with
  | nil => exact h
  | cons a rest ih =>
    by_cases ha : a.IsName
    · obtain ⟨name, rfl⟩ := ha
      rw [Registrar.mountAliases_cons_name hword]
      refine ih ?_ (hword.keepsKinds (Registrar.keepsKinds_mountAlias g start word name))
      exact (h.kept (kept_add 0 g _)).attach (isWord_add_self g rfl)
    · obtain ⟨fault, heq⟩ := Registrar.mountAliases_cons_other start hword ha rest
      rw [heq]
      exact h

/-- **Mounting puts nothing at the start but words under their keys.** -/
theorem Filed.mount {r : Registrar} (h : g.Filed r.start) (w : BranchArgument)
    (description aliases : Datum) :
    (Registrar.mount g r w description aliases).1.Filed r.start := by
  cases hthat : g.branchThat Branch.isWord w with
  | none =>
    rw [Registrar.mount_of_no_word hthat]
    exact h
  | some word =>
    have hword : g.IsWord word := (branchThat_eq_some hthat).2
    rw [Registrar.mount, hthat]
    dsimp only
    cases aliases.items with
    | error fault => exact h.attach hword
    | ok items =>
      have hword' := hword.keepsKinds (keepsKinds_attach g r.start word)
      exact (h.attach hword).mountAliases hword' items

/-! ## Grammars that differ at the start only -/

theorem WellFormed.canFollow_target (h : g.WellFormed) (hb : g.CanFollow b) :
    g.CanFollow (g.target b) := by
  rcases h.target_cases b with hself | hword
  · rw [hself]
    exact hb
  · exact hword.canFollow

theorem WellFormed.canFollow_child (h : g.WellFormed) (hc : c ∈ (g.childrenOf b).items) :
    g.CanFollow c := by
  rw [childrenOf] at hc
  split at hc
  · next hB => exact h.child hB hc
  · cases hc

theorem WellFormed.canFollow_eligible (h : g.WellFormed) {w : String} (hc : c ∈ g.eligible b w) :
    g.CanFollow c := by
  rcases mem_eligible_iff.mp hc with hword | ⟨-, hmem, -⟩
  · exact h.canFollow_child hword.1
  · exact h.canFollow_child hmem

theorem eligible_congr (hchildren : g'.childrenOf b = g.childrenOf b)
    (hsame : ∀ c ∈ (g.childrenOf b).items, g'.branch? c = g.branch? c) (w : String) :
    g'.eligible b w = g.eligible b w := by
  have hfilter : ∀ p : Branch → Bool,
      ((g.childrenOf b).items.filter fun c => (g'.branch? c).any p)
        = (g.childrenOf b).items.filter fun c => (g.branch? c).any p := fun p =>
    List.filter_congr fun c hc => by rw [hsame c hc]
  rw [eligible, eligible, hchildren, hfilter, hfilter]

/-- **A grammar that differs at the start only looks the same from everywhere else.** -/
theorem alike_of_branches (h : g.WellFormed) (hk : g.KeepsKinds g')
    (hsame : ∀ {b B}, g.branch? b = some B → B.kind ≠ .start → g'.branch? b = some B) :
    g.Alike g' g.CanFollow := by
  have hbranch : ∀ {b}, g.CanFollow b → g'.branch? b = g.branch? b := fun hb => by
    obtain ⟨B, hB, hkind⟩ := hb.exists_branch
    rw [hB, hsame hB hkind]
  have htarget : ∀ {b}, g.CanFollow b → g'.branch? (g'.target b) = g.branch? (g.target b) :=
    fun hb => by
      obtain ⟨B, hB, -⟩ := hb.exists_branch
      rw [h.target_eq hk hB, hbranch (h.canFollow_target hb)]
  constructor
  · intro b hb w
    refine eligible_congr ?_ (fun c hc => hbranch (h.canFollow_child hc)) w
    rw [childrenOf, childrenOf, htarget hb]
  · exact fun _ hc => h.canFollow_eligible hc
  · exact fun hb => by rw [hbranch hb]
  · exact fun hb => by rw [callbackOf, callbackOf, htarget hb]

end Grammar

namespace Registrar

theorem mem_of_mem_namesOf {items : List Datum} {name : Name} (h : name ∈ namesOf items) :
    .string name.text ∈ items := by
  induction items with
  | nil => cases h
  | cons a rest ih =>
    by_cases ha : a.IsName
    · obtain ⟨first, rfl⟩ := ha
      rw [namesOf_cons_name, List.mem_cons] at h
      rcases h with rfl | hrest
      · exact List.mem_cons_self ..
      · exact List.mem_cons_of_mem _ (ih hrest)
    · rw [namesOf_cons_other ha] at h
      cases h

end Registrar

namespace Host

variable {h h' : Host}

/-! ## Hosts at whose start only words were mounted -/

/-- The hosts at whose start nothing was put but by mounting words and registering commands. What
else is done to them leaves the registrar and the start alone. -/
inductive Orderly : Host → Prop
  | create (handler : Option Handler) : Orderly (create handler)
  | renew {h : Host} (hh : h.Reachable) (handler : Option Handler) : Orderly (h.renewed handler)
  | mount {h : Host} (hh : Orderly h) (w : Grammar.BranchArgument) (description aliases : Datum) :
      Orderly (h.mount w description aliases).1
  | register {h : Host} (hh : Orderly h) (id : Option NodeId) : Orderly (h.register id).1
  | other {h h' : Host} (hh : Orderly h) (ho : Operation h h') (hr : h'.registrar = h.registrar)
      (hstart : h'.grammar.childrenOf h.registrar.start
        = h.grammar.childrenOf h.registrar.start) : Orderly h'

theorem Orderly.reachable (hh : h.Orderly) : h.Reachable := by
  induction hh with
  | create handler => exact ⟨handler, .refl⟩
  | renew hh handler => exact hh.operation (.renew _ handler)
  | mount _ w description aliases ih => exact ih.operation (.mount _ w description aliases)
  | register _ id ih => exact ih.operation (.register _ id)
  | other _ ho _ _ ih => exact ih.operation ho

theorem filed_new (g : Grammar) : (g.add (.bare .start)).1.Filed g.size where
  isStart := ⟨_, Grammar.branch?_add_self g _, rfl⟩
  word := fun hc => by
    rw [Grammar.childrenOf_start (Grammar.branch?_add_self g (.bare .start)) rfl] at hc
    cases hc

/-- **At an orderly host nothing but words of their keys stands at the start.** -/
theorem Orderly.filed (hh : h.Orderly) : h.grammar.Filed h.registrar.start := by
  induction hh with
  | create handler => exact filed_new .empty
  | renew hh handler => exact filed_new _
  | @mount h _ w description aliases ih =>
    rw [h.start_mount]
    exact ih.mount w description aliases
  | @register h hh id ih =>
    rcases h.register_eq id with hsame | ⟨g, f, word, description, aliases, registered, hc, heq⟩
    · rw [hsame]
      exact ih
    · have hkept : Grammar.Kept 0 h.grammar g := by
        cases id with
        | none => cases hc
        | some root =>
          exact (Grammar.compiled_of_compile hh.reachable.ready.forest.wellFormed hc).kept
      rw [heq, Host.start_mount { h with grammar := g, forest := f } (.branch word)]
      exact (ih.kept hkept).mount (.branch word) description aliases
  | other _ ho hr hstart ih =>
    rw [hr]
    exact ih.keepsKinds (Grammar.keepsKinds_of_steps ho.steps) hstart

/-! ## What mounting does not concern -/

/-- Whether a name is that of a word that is to be mounted, in letters of any case. -/
def Names (h : Host) (w : Grammar.BranchArgument) (name : String) : Prop :=
  ∃ word, h.grammar.branchThat Branch.isWord w = some word ∧
    lowercase name = lowercase (h.grammar.nameOf word)

/-- Whether a name is that of a word that is to be mounted or one of its aliases, in letters of any
case. -/
def Mentions (h : Host) (w : Grammar.BranchArgument) (aliases : Datum) (name : String) : Prop :=
  h.Names w name ∨
    ∃ items t, aliases.items = .ok items ∧ .string t ∈ items ∧ lowercase name = lowercase t

/-- What stands at the start under other names stands there after mounting. -/
theorem Ready.get?_mount (hh : h.Ready) {w : Grammar.BranchArgument} {aliases : Datum}
    {name : String} (hname : ¬ h.Mentions w aliases name) (description : Datum) :
    ((h.mount w description aliases).1.grammar.childrenOf h.registrar.start).get? (lowercase name)
      = (h.grammar.childrenOf h.registrar.start).get? (lowercase name) := by
  rw [Host.mount]
  dsimp only
  cases hthat : h.grammar.branchThat Branch.isWord w with
  | none => rw [Registrar.mount_of_no_word hthat]
  | some word =>
    have hword : h.grammar.IsWord word := (Grammar.branchThat_eq_some hthat).2
    obtain ⟨S, hS, hkind, hchildren⟩ := hh.attached hword
    have hfirst : S.children.get? (lowercase name)
        = (h.grammar.childrenOf h.registrar.start).get? (lowercase name) := by
      rw [hchildren, Catalog.get?_put, if_neg fun hsame => hname (.inl ⟨word, hthat, hsame⟩)]
    rw [Registrar.mount, hthat]
    dsimp only
    cases hitems : aliases.items with
    | error fault => rw [Grammar.childrenOf_start hS hkind, hfirst]
    | ok items =>
      obtain ⟨S', hS', hkind', -, hothers⟩ :=
        Registrar.mountAliases_start (isWord_attached hword) hS items
      rw [Grammar.childrenOf_start hS' (hkind'.trans hkind), ← hfirst]
      refine hothers _ fun hmem => ?_
      obtain ⟨a, ha, hkey⟩ := List.mem_map.mp hmem
      exact hname (.inr ⟨items, a.text, hitems, Registrar.mem_of_mem_namesOf ha, hkey.symm⟩)

/-- What is known of other words is known after mounting. -/
theorem notes_mount {w : Grammar.BranchArgument} {name : String} (hname : ¬ h.Names w name)
    (description aliases : Datum) :
    (h.mount w description aliases).1.registrar.descriptionOf name
        = h.registrar.descriptionOf name ∧
      (h.mount w description aliases).1.registrar.aliasesOf name
        = h.registrar.aliasesOf name := by
  rw [Host.mount]
  dsimp only
  cases hthat : h.grammar.branchThat Branch.isWord w with
  | none =>
    rw [Registrar.mount_of_no_word hthat]
    exact ⟨rfl, rfl⟩
  | some word =>
    have hne : ¬ lowercase name = lowercase (h.grammar.nameOf word) := fun hsame =>
      hname ⟨word, hthat, hsame⟩
    rw [Registrar.mount, hthat]
    dsimp only
    cases aliases.items with
    | error fault =>
      refine ⟨?_, rfl⟩
      rw [Registrar.descriptionOf, Registrar.descriptionOf, Catalog.get?_put, if_neg hne]
    | ok items =>
      refine ⟨?_, ?_⟩
      · rw [Registrar.descriptionOf, Registrar.descriptionOf, Catalog.get?_put, if_neg hne]
      · rw [Registrar.aliasesOf, Registrar.aliasesOf, Catalog.get?_put, if_neg hne]

/-- An input that begins with another word is read as before. -/
theorem Orderly.parse_mount (hh : h.Orderly) {w : Grammar.BranchArgument} {aliases : Datum}
    {s : String}
    (hs : ¬ h.Mentions w aliases (String.ofList (firstWord (Grammar.withoutSlash s.toList))))
    (description : Datum) (source : Option Sender) :
    (h.mount w description aliases).1.parse source (.string s) = h.parse source (.string s) := by
  have hwf := hh.reachable.wellFormed
  have hready := hh.reachable.ready
  have hkeeps := Grammar.keepsKinds_of_steps (h.steps_mount w description aliases)
  have halike : h.grammar.Alike (h.mount w description aliases).1.grammar h.grammar.CanFollow := by
    refine Grammar.alike_of_branches hwf hkeeps fun {b B} hB hkind => ?_
    refine Registrar.branch?_mount (fun hstart => hkind ?_) hB w description aliases
    obtain ⟨S, hS, hkindS⟩ := hready.start
    rw [hstart, hS] at hB
    cases hB
    exact hkindS
  have hfiled := (Orderly.mount hh w description aliases).filed
  rw [h.start_mount] at hfiled
  show (h.mount w description aliases).1.grammar.parse
    (h.mount w description aliases).1.registrar.start source s = _
  rw [h.start_mount]
  refine Grammar.parse_of_alike halike (fun spot hspot => ⟨?_, fun x hx => ?_⟩) source
  · rw [hfiled.eligible_eq, hh.filed.eligible_eq, Spot.word, hspot,
      hready.get?_mount hs description]
  · exact hwf.canFollow_eligible hx

end Host

/--
**Mounting leaves alone what it does not concern.** At a host at whose start only words were
mounted, one more word is mounted, whether that succeeds or not. An input that begins neither with
the name of the word nor with one of its aliases is read as before, or refused as before. The
description and the aliases of every other name are as before.
-/
theorem mount_spares_others {h : Host} (hh : h.Orderly) (w : Grammar.BranchArgument)
    (description aliases : Datum) :
    let h' := (h.mount w description aliases).1
    (∀ (source : Option Sender) (s : String),
        ¬ h.Mentions w aliases (String.ofList (firstWord (Grammar.withoutSlash s.toList))) →
          h'.parse source (.string s) = h.parse source (.string s)) ∧
      ∀ name, ¬ h.Names w name →
        h'.registrar.descriptionOf name = h.registrar.descriptionOf name ∧
          h'.registrar.aliasesOf name = h.registrar.aliasesOf name :=
  ⟨fun source _ hs => hh.parse_mount hs description source,
    fun _ hname => Host.notes_mount hname description aliases⟩

theorem pointsServer_orderly : pointsServer.Orderly :=
  .register (.renew (Host.reachable_of_forest pointsForest_reachable none) none) (some 0)

/-- The word of a child is mounted beside its command, which stops at its second alias. The command
is called as before. -/
theorem mount_spares_others_points :
    let aliases : Datum := .list [.string "plus", badAlias]
    let h' := (pointsServer.mount (.branch 3) .null aliases).1
    pointsServer.Orderly ∧
      (∃ fault, (pointsServer.mount (.branch 3) .null aliases).2 = .error fault) ∧
      ¬ pointsServer.Mentions (.branch 3) aliases
        (String.ofList (firstWord (Grammar.withoutSlash "/pts GIVE 7".toList))) ∧
      (∃ i, pointsServer.parse none (.string "/pts GIVE 7") = .ok i ∧
        h'.parse none (.string "/pts GIVE 7") = .ok i) ∧
      ¬ pointsServer.Names (.branch 3) "points" ∧
      pointsServer.registrar.aliasesOf "points" = [.string "pts"] ∧
      h'.registrar.aliasesOf "points" = [.string "pts"] := by
  intro aliases h'
  have hname : ∀ name, pointsServer.Names (.branch 3) name → lowercase name = "add" := by
    rintro name ⟨word, hword, hsame⟩
    obtain ⟨hbranch, -⟩ := Grammar.branchThat_eq_some hword
    cases hbranch
    exact hsame
  have hpts : ¬ pointsServer.Mentions (.branch 3) aliases
      (String.ofList (firstWord (Grammar.withoutSlash "/pts GIVE 7".toList))) := by
    rintro (hadd | ⟨items, t, hitems, ht, hsame⟩)
    · exact absurd (hname _ hadd) (by decide)
    · cases hitems
      rcases List.mem_cons.mp ht with hplus | hbad
      · cases hplus
        exact absurd hsame (by decide)
      · cases List.mem_singleton.mp hbad
        exact absurd hsame (by decide)
  have hpoints : ¬ pointsServer.Names (.branch 3) "points" := fun h =>
    absurd (hname _ h) (by decide)
  obtain ⟨hparse, hnotes⟩ :=
    mount_spares_others pointsServer_orderly (.branch 3) .null aliases
  obtain ⟨-, -, hs⟩ := Host.serves_of_compile (h := pointsHost) pointsForest_reachable
    compile_pointsHost
  obtain ⟨i, hi⟩ := hs.exists_invocation rfl none (fits_points rfl)
  exact ⟨pointsServer_orderly, ⟨_, rfl⟩, hpts, ⟨i, hi, (hparse none _ hpts).trans hi⟩, hpoints, rfl,
    (hnotes _ hpoints).2⟩

end CommandTree
