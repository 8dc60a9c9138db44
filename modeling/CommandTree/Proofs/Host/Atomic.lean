import CommandTree.Proofs.Grammar.Defect
import CommandTree.Proofs.Host.Language
import CommandTree.Proofs.Host.Ready

/-!
# Compiling and registering, completely or not at all

A command is compiled and sealed as a whole, or refused for a defect of a node under it, and then
nothing changes. Registering a command changes several tables one after the other: its tree is
sealed, its word and its aliases are mounted, and it is listed. Once the tree has been compiled
nothing is refused any more, so either all tables are changed or none.

* `compile_accepts_sound_trees`: when a command is compiled, and what changes
* `Registrar.mount_names`: what mounting a word under names puts at the start
* `register_atomic`: a command is registered completely or not at all
-/

namespace CommandTree

/-! ## Compiling -/

/--
**Compiling accepts the sound trees and seals them as a whole.** A command is refused exactly if a
node under it has a defect: a greedy parameter that is not the last one, or a first parameter named
like a child or an alias of one. The error names a defect of a node under the command, and the host
stays as it is. If the command is compiled, every node under it is sealed, and all others are what
they were.
-/
theorem compile_accepts_sound_trees {h : Host} {root : NodeId} {R : Node}
    (hf : h.forest.Reachable) (hR : h.forest.node? root = some R) (hrole : R.role = .root) :
    let f := h.forest
    let result := (h.compile (some root)).2
    let h' := (h.compile (some root)).1
    ((∃ fault, result = .error fault) ↔ ∃ n d, root ∈ f.pathOf n ∧ f.Defect n d) ∧
      (∀ fault, result = .error fault → h' = h ∧
        ∃ n d, root ∈ f.pathOf n ∧ f.Defect n d ∧ fault = .declaration d) ∧
      ∀ word, result = .ok word → ∀ n N, f.node? n = some N →
        h'.forest.node? n
          = some (if root ∈ f.pathOf n then { N with isSealed := true } else N) := by
  intro f result h'
  rcases Grammar.compile_decides hf h.grammar hR hrole .rootExpectedToCompile with
    ⟨g, word, hok, hnone⟩ | ⟨n, d, hunder, hd, herror⟩
  · have hcompile : h.compile (some root)
        = ({ h with grammar := g, forest := f.sealUnder root }, .ok word) := by
      rw [Host.compile, hok]
    have hresult : result = .ok word := congrArg Prod.snd hcompile
    have hhost : h' = { h with grammar := g, forest := f.sealUnder root } :=
      congrArg Prod.fst hcompile
    rw [hresult, hhost]
    refine ⟨⟨?_, ?_⟩, fun fault hfault => (by cases hfault), fun _ _ n N hN => ?_⟩
    · rintro ⟨fault, hfault⟩
      cases hfault
    · rintro ⟨n, d, hunder, hd⟩
      exact absurd hd (hnone n d hunder)
    · rw [Forest.node?_sealUnder, hN, Option.map_some, Forest.isUnder]
      simp only [List.contains_iff_mem]
  · have hcompile : h.compile (some root) = (h, .error (.declaration d)) := by
      rw [Host.compile, herror]
    have hresult : result = .error (.declaration d) := congrArg Prod.snd hcompile
    have hhost : h' = h := congrArg Prod.fst hcompile
    rw [hresult, hhost]
    refine ⟨iff_of_true ⟨_, rfl⟩ ⟨n, d, hunder, hd⟩, fun fault hfault => ?_,
      fun word hword => (by cases hword)⟩
    cases hfault
    exact ⟨rfl, n, d, hunder, hd, rfl⟩

/-- The parameter for an amount, under a name that is an alias of a child. -/
def givenParameter : Parameter := { amountParameter with name := ⟨"GIVE", by decide⟩ }

/-- The command for points, which takes an amount too. -/
def clashingForest : Forest :=
  pointsForest.update 0 fun n => { n with parameters := n.parameters.put "give" givenParameter }

theorem clashingForest_reachable : clashingForest.Reachable :=
  pointsForest_reachable.step (.parameter (show _ = .ok _ from rfl :
    pointsForest.registerParameter 0 (some givenParameter) = _))

/-- The command cannot be compiled, because its child answers to the name of the parameter. -/
theorem compile_accepts_sound_trees_clash :
    clashingForest.Reachable ∧ (∃ R, clashingForest.node? 0 = some R ∧ R.role = .root) ∧
      clashingForest.Defect 0 (.clash "GIVE" (clashingForest.usageOf 0)) ∧
      ∃ fault, ({ pointsHost with forest := clashingForest } : Host).compile (some 0)
        = ({ pointsHost with forest := clashingForest }, .error fault) := by
  have hdefect := @Forest.Defect.clash clashingForest 0 _ _ givenParameter [] 1 rfl rfl
    (List.mem_singleton_self 1) rfl rfl
  have hroot : ∃ R, clashingForest.node? 0 = some R ∧ R.role = .root := ⟨_, rfl, rfl⟩
  refine ⟨clashingForest_reachable, hroot, hdefect, ?_⟩
  obtain ⟨R, hR, hrole⟩ := hroot
  obtain ⟨hiff, hrefused, -⟩ := compile_accepts_sound_trees
    (h := { pointsHost with forest := clashingForest }) clashingForest_reachable hR hrole
  obtain ⟨fault, hfault⟩ := hiff.mpr ⟨0, _, by decide, hdefect⟩
  exact ⟨fault, Prod.ext (hrefused fault hfault).1 hfault⟩

/-! ## Mounting under names -/

namespace Grammar

/-- What mounting a word under its name and its aliases does to a grammar. -/
structure Stands (g g' : Grammar) (start word : BranchId) (name : Name) (aliases : List Name) :
    Prop where
  named : (g'.childrenOf start).get? name.key = some word
  /-- Under each alias there is a word of its own that redirects to the mounted one. -/
  redirected : ∀ a ∈ aliases, ∃ b, (g'.childrenOf start).get? a.key = some b ∧
    g'.branch? b = some (.bare (.word a (some word)))
  others : ∀ key ∉ name.key :: aliases.map Name.key,
    (g'.childrenOf start).get? key = (g.childrenOf start).get? key
  branches : ∀ b B, b ≠ start → g.branch? b = some B → g'.branch? b = some B

end Grammar

namespace Registrar

open Grammar

variable {g : Grammar} {start word : BranchId}

/-- **Aliases with different keys are all mounted**, each as a word that redirects. -/
theorem mountAliases_names :
    ∀ (names : List Name) {g : Grammar} {S : Branch}, g.branch? start = some S →
      S.kind = .start → (g.branch? word).any Branch.isWord = true → (names.map Name.key).Nodup →
      ∃ g' S', mountAliases g start word (names.map fun a => .string a.text) = (g', .ok ()) ∧
        g'.branch? start = some S' ∧ S'.kind = .start ∧
        (∀ b B, b ≠ start → g.branch? b = some B → g'.branch? b = some B) ∧
        (∀ a ∈ names, ∃ b, S'.children.get? a.key = some b ∧
          g'.branch? b = some (.bare (.word a (some word)))) ∧
        ∀ key ∉ names.map Name.key, S'.children.get? key = S.children.get? key
  | [], g, S, hS, hkind, _, _ =>
    ⟨g, S, rfl, hS, hkind, fun _ _ _ hB => hB, fun a ha => (by cases ha), fun _ _ => rfl⟩
  | a :: rest, g, S, hS, hkind, hword, hnodup => by
    obtain ⟨hnew, hrest⟩ := List.nodup_cons.mp hnodup
    have hnotStart : g.size ≠ start := (Nat.ne_of_lt (branch?_lt hS)).symm
    have hneWord : word ≠ start := by
      rintro rfl
      simp [hS, Branch.isWord, hkind] at hword
    have hS₁ := branch?_attach_self (branch?_add_of_some hS (.bare (.word a (some word))))
      (branch?_add_self g (.bare (.word a (some word))))
    have hkept : ∀ b B, b ≠ start → g.branch? b = some B →
        ((g.add (.bare (.word a (some word)))).1.attach start g.size).branch? b = some B :=
      fun b B hb hB => by rw [branch?_attach (Ne.symm hb), branch?_add_of_some hB]
    have hword₁ : (((g.add (.bare (.word a (some word)))).1.attach start g.size).branch?
        word).any Branch.isWord = true := by
      obtain ⟨W, hW, hisWord⟩ := (Option.any_eq_true _ _).mp hword
      rw [hkept word W hneWord hW]
      exact hisWord
    obtain ⟨g', S', hmount, hS', hkind', hbranches, hwords, hothers⟩ :=
      mountAliases_names rest hS₁ hkind hword₁ hrest
    refine ⟨g', S', ?_, hS', hkind', fun b B hb hB => hbranches b B hb (hkept b B hb hB),
      fun a' ha' => ?_, fun key hkey => ?_⟩
    · rw [List.map_cons, mountAliases, addWord_redirect hword, Name.declare_text]
      exact hmount
    · rcases List.mem_cons.mp ha' with rfl | ha'
      · refine ⟨g.size, ?_, hbranches _ _ hnotStart ?_⟩
        · rw [hothers _ hnew]
          exact Catalog.get?_put_self ..
        · rw [branch?_attach hnotStart.symm, branch?_add_self]
      · exact hwords a' ha'
    · rw [List.map_cons, List.mem_cons, not_or] at hkey
      rw [hothers key hkey.2]
      exact (Catalog.get?_put ..).trans (if_neg hkey.1)

/-- **What mounting a word under its name and its aliases does.** -/
theorem mount_names {r : Registrar} {S W : Branch} (hS : g.branch? r.start = some S)
    (hkind : S.kind = .start) (hW : g.branch? word = some W) {name : Name}
    (hk : W.kind = .word name none) {aliases : List Name}
    (hnodup : (name.key :: aliases.map Name.key).Nodup) (description : Datum) :
    ∃ g', mount g r (.branch word) description (.tuple (aliases.map fun a => .string a.text))
        = (g', ⟨r.start, r.descriptions.put name.key description,
            r.aliases.put name.key (aliases.map fun a => .string a.text)⟩, .ok ()) ∧
      g.Stands g' r.start word name aliases := by
  obtain ⟨hnew, hrest⟩ := List.nodup_cons.mp hnodup
  have hword : (g.branch? word).any Branch.isWord = true := by
    rw [hW, Option.any_some, Branch.isWord, hk]
  have hne : word ≠ r.start := by
    rintro rfl
    rw [hS] at hW
    cases hW
    rw [hkind] at hk
    cases hk
  have hkey : W.key = name.key := by rw [Branch.key, Branch.name, hk]; rfl
  have hS₁ := branch?_attach_self hS hW
  have hW₁ : (g.attach r.start word).branch? word = some W := by
    rw [branch?_attach hne.symm, hW]
  obtain ⟨g', S', hmount, hS', hkind', hbranches, hwords, hothers⟩ :=
    mountAliases_names aliases hS₁ hkind (by rw [hW₁, ← hW]; exact hword) hrest
  have hname : Text.lowercase (g.nameOf word) = name.key := by
    rw [nameOf, hW]
    exact hkey
  refine ⟨g', ?_, ?_, ?_, ?_, ?_⟩
  · rw [mount, branchThat, if_pos hword]
    rw [show (Datum.tuple (aliases.map fun a => .string a.text)).items
      = .ok (aliases.map fun a => .string a.text) from rfl]
    dsimp only
    rw [hname, hmount]
  · rw [childrenOf_start hS' hkind', hothers _ hnew, hkey]
    exact Catalog.get?_put_self ..
  · rw [childrenOf_start hS' hkind']
    exact hwords
  · intro key hnot
    rw [List.mem_cons, not_or] at hnot
    rw [childrenOf_start hS' hkind', childrenOf_start hS hkind, hothers key hnot.2, hkey]
    exact (Catalog.get?_put ..).trans (if_neg hnot.1)
  · intro b B hb hB
    exact hbranches b B hb (by rw [branch?_attach (Ne.symm hb), hB])

end Registrar

/-! ## Registering -/

namespace Grammar

/-- What is no command is not compiled. -/
theorem compile_of_not_root {g : Grammar} {f : Forest} {id : Option NodeId}
    (h : ¬ ∃ root R, id = some root ∧ f.node? root = some R ∧ R.role = .root)
    (refusal : UseFault) : g.compile f id refusal = .error (.use refusal) := by
  cases id with
  | none => rfl
  | some root =>
    rw [compile, Option.bind_some]
    cases hR : f.node? root with
    | none => rfl
    | some R =>
      rw [Option.map_some]
      exact if_neg fun hrole => h ⟨root, R, rfl, hR, hrole⟩

end Grammar

namespace Host

/-- What registering a command does to a host. The command is listed, the registrar knows its
description and its aliases, its word and the words that redirect to it stand at the start, and all
that is under it is sealed. Everything else is what it was. -/
structure Registered (h h' : Host) (root : NodeId) (N : Node) (word : BranchId) : Prop where
  listed : ∀ key, h'.registered.get? key
    = if key = N.key then some root else h.registered.get? key
  description : ∀ key, h'.registrar.descriptions.get? key
    = if key = N.key then some (ofText? N.description) else h.registrar.descriptions.get? key
  aliases : ∀ key, h'.registrar.aliases.get? key
    = if key = N.key then some (N.aliases.map fun a => .string a.text)
      else h.registrar.aliases.get? key
  start : h'.registrar.start = h.registrar.start
  stands : h.grammar.Stands h'.grammar h.registrar.start word N.name N.aliases
  isWordOf : h'.grammar.IsWordOf h.forest h.grammar.size root word
  forest : h'.forest = h.forest.sealUnder root
  handler : h'.handler = h.handler

variable {h : Host}

/-- A command that is compiled at a host that is ready is registered. -/
theorem Ready.registered (hh : h.Ready) {root : NodeId} {N : Node}
    (hN : h.forest.node? root = some N) {refusal : UseFault} {g : Grammar} {f : Forest}
    {word : BranchId} (hc : h.grammar.compile h.forest (some root) refusal = .ok (g, f, word)) :
    (h.register (some root)).2 = (Outcome.emit (registeredEvent N)).bind (fun _ => .done word) ∧
      h.Registered (h.register (some root)).1 root N word := by
  have hcompiled := Grammar.compiled_of_compile hh.forest.wellFormed hc
  obtain ⟨S, hS, hkind⟩ := hh.start
  have hS' : g.branch? h.registrar.start = some S := hcompiled.kept.branch (Nat.zero_le _) hS
  obtain ⟨hnew, N', W, hN', hW, hk, hcall⟩ := hcompiled.word
  rw [hN] at hN'
  cases hN'
  obtain ⟨g', hmount, hstands⟩ := Registrar.mount_names hS' hkind hW hk
    (hh.forest.nodup_words hN) (ofText? N.description)
  -- compiling adds branches only, so all that was there before is as mounting has found it
  have hstart : word ≠ h.registrar.start :=
    (Nat.ne_of_lt (Nat.lt_of_lt_of_le (Grammar.branch?_lt hS) hnew)).symm
  have hchildren : g.childrenOf h.registrar.start = h.grammar.childrenOf h.registrar.start := by
    rw [Grammar.childrenOf_start hS' hkind, Grammar.childrenOf_start hS hkind]
  rw [register_of_mount hN hc hmount]
  refine ⟨rfl, fun key => Catalog.get?_put .., fun key => Catalog.get?_put ..,
    fun key => Catalog.get?_put .., rfl,
    ⟨hstands.named, hstands.redirected, fun key hkey => ?_, fun b B hb hB => ?_⟩,
    ⟨hnew, N, W, hN, hstands.branches word W hstart hW, hk, hcall⟩, rfl, rfl⟩
  · rw [hstands.others key hkey, hchildren]
  · exact hstands.branches b B hb (hcompiled.kept.branch (Nat.zero_le b) hB)

end Host

/--
**A command is registered completely or not at all.** Whatever is handed in, it is refused if it is
no command, or if a node under it has a defect, and then the host stays as it is. Otherwise the word
that the command was compiled to is given back, and everything is as registering makes it: the list
of commands, what the registrar knows and what stands at the start, each under the name and the
aliases of the command only, and the seals of the nodes under it.
-/
theorem register_atomic {h : Host} (hh : h.Reachable) (id : Option NodeId) :
    (∃ fault, h.register id = (h, .fail fault) ∧
        ((fault = .use .rootExpectedToRegister ∧
            ¬ ∃ root N, id = some root ∧ h.forest.node? root = some N ∧ N.role = .root) ∨
          ∃ root n d, id = some root ∧ root ∈ h.forest.pathOf n ∧ h.forest.Defect n d ∧
            fault = .declaration d)) ∨
      ∃ root N word, id = some root ∧ h.forest.node? root = some N ∧ N.role = .root ∧
        (h.register id).2.result = .ok word ∧ h.Registered (h.register id).1 root N word := by
  have hready := hh.ready
  by_cases hroot : ∃ root N, id = some root ∧ h.forest.node? root = some N ∧ N.role = .root
  · obtain ⟨root, N, rfl, hN, hrole⟩ := hroot
    rcases Grammar.compile_decides hready.forest h.grammar hN hrole .rootExpectedToRegister with
      ⟨g, word, hok, -⟩ | ⟨n, d, hunder, hd, herror⟩
    · obtain ⟨houtcome, hregistered⟩ := hready.registered hN hok
      exact Or.inr ⟨root, N, word, rfl, hN, hrole, by rw [houtcome]; rfl, hregistered⟩
    · exact Or.inl ⟨_, Host.register_of_compile_error herror,
        Or.inr ⟨root, n, d, rfl, hunder, hd, rfl⟩⟩
  · exact Or.inl ⟨_, Host.register_of_compile_error
      (Grammar.compile_of_not_root hroot .rootExpectedToRegister), Or.inl ⟨rfl, hroot⟩⟩

/-- The command for points is registered, and so its alias redirects to the word given back. -/
theorem register_atomic_points :
    pointsHost.Reachable ∧ ∃ word b, (pointsHost.register (some 0)).2.result = .ok word ∧
      (pointsHost.register (some 0)).1.registered.get? "points" = some 0 ∧
      ((pointsHost.register (some 0)).1.grammar.childrenOf pointsHost.registrar.start).get? "points"
        = some word ∧
      ((pointsHost.register (some 0)).1.grammar.childrenOf pointsHost.registrar.start).get? "pts"
        = some b ∧
      (pointsHost.register (some 0)).1.grammar.branch? b
        = some (.bare (.word ⟨"pts", by decide⟩ (some word))) := by
  have hreachable : pointsHost.Reachable := Host.reachable_of_forest pointsForest_reachable none
  have hresult : ∃ word, (pointsHost.register (some 0)).2.result = .ok word := ⟨_, rfl⟩
  refine ⟨hreachable, ?_⟩
  rcases register_atomic hreachable (some 0) with
    ⟨fault, hrefused, -⟩ | ⟨root, N, word, hid, hN, -, hok, hregistered⟩
  · obtain ⟨word, hword⟩ := hresult
    rw [hrefused] at hword
    cases hword
  · cases hid
    cases hN
    obtain ⟨b, hb, hB⟩ := hregistered.stands.redirected _ (List.mem_singleton_self _)
    exact ⟨word, b, hok, hregistered.listed "points", hregistered.stands.named, hb, hB⟩

end CommandTree
