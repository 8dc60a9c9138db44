import CommandTree.Proofs.Grammar.Lasting
import CommandTree.Proofs.Host.Language

/-!
# Sessions of a host

A host with a new registrar is used step by step: nodes are declared and linked, commands are
compiled, words that commands were compiled to are mounted with any aliases, and commands are
registered, in any order. Whatever the steps are, nothing stands at the start but words of commands,
and all words remain those of their nodes.

* `register_cases`: what registering a command changes
* `Furnished.build`, `Furnished.compile`, `Furnished.mount`, `Furnished.register`: each step keeps
  the start in order
* `Session.furnished`: so it is in order whenever an input is read
-/

namespace CommandTree

open Text

namespace Grammar

variable {g g' : Grammar} {f f' : Forest} {made start : BranchId}

theorem Kept.later {earlier : BranchId} (h : Kept earlier g g') (hle : earlier ≤ made) :
    Kept made g g' where
  size := h.size
  branch := fun hm hB => h.branch (Nat.le_trans hle hm) hB

/-! ## What stands at the start -/

/-- Words at the start last when the forest is built further. -/
theorem Opens.step (hwf : f.WellFormed) (hs : f.Step f') (hlasts : g.Lasts f made)
    (h : g.Opens f made start) : g.Opens f' made start where
  isStart := h.isStart
  words := fun key c hc => by
    obtain ⟨root, word, hword, hroot⟩ := h.words key c hc
    exact ⟨root, word, hword, hroot.step hwf hs (hlasts.frozen hroot)⟩

/-- Words at the start last while branches are added. -/
theorem Opens.kept (h : g.Opens f made start) (hk : Kept 0 g g') : g'.Opens f made start := by
  obtain ⟨S, hS, hkind⟩ := h.isStart
  have hS' : g'.branch? start = some S := hk.branch (Nat.zero_le _) hS
  have hchildren : g'.childrenOf start = g.childrenOf start := by
    rw [childrenOf_start hS' hkind, childrenOf_start hS hkind]
  refine ⟨⟨S, hS', hkind⟩, fun key c hc => ?_⟩
  rw [hchildren] at hc ⊢
  obtain ⟨root, word, hword, hroot⟩ := h.words key c hc
  exact ⟨root, word, hword.mono (hk.later (Nat.zero_le made)),
    hroot.mono (hk.later (Nat.zero_le made))⟩

/-- What stands at the start after a word has been mounted under some keys. -/
theorem Mounts.childrenOf {word : BranchId} {keys : List String}
    (hm : g.Mounts g' made start word keys) (h : g.Opens f made start) :
    (∃ S, g'.branch? start = some S ∧ S.kind = .start) ∧
      (∀ key ∈ keys, g'.WordAt made (g'.childrenOf start) key word) ∧
      ∀ key ∉ keys, (g'.childrenOf start).get? key = (g.childrenOf start).get? key := by
  obtain ⟨S, hS, hkind⟩ := h.isStart
  obtain ⟨S', hS', hkind', hwords, hothers⟩ := hm.start S hS
  rw [hkind] at hkind'
  rw [childrenOf_start hS' hkind', childrenOf_start hS hkind]
  exact ⟨⟨S', hS', hkind'⟩, hwords, hothers⟩

/-- A word that stood at the start before stands there still, if none of the keys is its own. -/
theorem Mounts.wordAt_of_not_mem {word word' : BranchId} {keys : List String}
    (hm : g.Mounts g' made start word keys) (h : g.Opens f made start) {key : String}
    (hkey : key ∉ keys) (hword : g.WordAt made (g.childrenOf start) key word') :
    g'.WordAt made (g'.childrenOf start) key word' := by
  obtain ⟨c, C, name, redirect, hget, hrest⟩ := hword.mono hm.grows.toKept
  exact ⟨c, C, name, redirect, ((hm.childrenOf h).2.2 key hkey).trans hget, hrest⟩

theorem Opens.mounts {root : NodeId} {word : BranchId} {keys : List String}
    (h : g.Opens f made start) (hm : g.Mounts g' made start word keys)
    (hword : g.IsWordOf f made root word) : g'.Opens f made start where
  isStart := (hm.childrenOf h).1
  words := fun key c hc => by
    obtain ⟨-, hwords, hothers⟩ := hm.childrenOf h
    by_cases hkey : key ∈ keys
    · exact ⟨root, word, hwords key hkey, hword.mono hm.grows.toKept⟩
    · rw [hothers key hkey] at hc
      obtain ⟨root', word', hword', hroot'⟩ := h.words key c hc
      exact ⟨root', word', hm.wordAt_of_not_mem h hkey hword', hroot'.mono hm.grows.toKept⟩

end Grammar

namespace Host

/-! ## Steps of a session -/

/-- What registering a command changes: its tree is compiled and sealed, its word is mounted with
its aliases, and it is listed under its key. -/
theorem register_cases {h : Host} {id : Option NodeId} {word : BranchId}
    (hr : (h.register id).2.result = .ok word) :
    ∃ root g f N g' r, id = some root ∧
      h.grammar.compile h.forest (some root) .rootExpectedToRegister = .ok (g, f, word) ∧
      f.node? root = some N ∧
      Registrar.mount g h.registrar (.branch word) (ofText? N.description)
        (.tuple (N.aliases.map fun a => .string a.text)) = (g', r, .ok ()) ∧
      (h.register id).1 = { h with
        grammar := g', forest := f, registrar := r
        registered := h.registered.put N.key root } := by
  unfold register at hr ⊢
  cases hc : h.grammar.compile h.forest id .rootExpectedToRegister with
  | error fault =>
    rw [hc] at hr
    cases hr
  | ok out =>
    obtain ⟨g, f, w⟩ := out
    cases id with
    | none => cases hc
    | some root =>
      rw [hc] at hr
      simp only [Option.bind_some] at hr ⊢
      cases hN : f.node? root with
      | none =>
        rw [hN] at hr
        cases hr
      | some N =>
        rw [hN] at hr
        simp only [Option.map_some, mount] at hr ⊢
        cases hm : Registrar.mount g h.registrar (.branch w) (ofText? N.description)
            (.tuple (N.aliases.map fun a => .string a.text)) with
        | mk g' rest =>
          obtain ⟨r, mounted⟩ := rest
          rw [hm] at hr
          cases mounted with
          | error fault => cases hr
          | ok u =>
            cases hr
            exact ⟨root, g, f, N, g', r, rfl, hc, hN, hm, rfl⟩

/-- Whether the start of a host is in order: only words of nodes stand there, and all words, from a
place on, last. -/
structure Furnished (h : Host) (made : BranchId) : Prop where
  forest : h.forest.Reachable
  before : h.registrar.start < made
  size : made ≤ h.grammar.size
  lasts : h.grammar.Lasts h.forest made
  opens : h.grammar.Opens h.forest made h.registrar.start

variable {h h' : Host} {made : BranchId}

/-- At a new registrar there is nothing. -/
theorem furnished_renewed (hf : h.forest.Reachable) (handler : Option Handler) :
    (h.renewed handler).Furnished (h.renewed handler).grammar.size where
  forest := hf
  before := Grammar.branch?_lt (Grammar.branch?_add_self h.grammar (.bare .start))
  size := Nat.le_refl _
  lasts := Grammar.lasts_size _ _
  opens := by
    have hs : (h.renewed handler).grammar.branch? h.grammar.size = some (.bare .start) :=
      Grammar.branch?_add_self ..
    refine ⟨⟨_, hs, rfl⟩, fun key c hc => ?_⟩
    have hchildren := Grammar.childrenOf_start hs rfl
    rw [show (h.renewed handler).registrar.start = h.grammar.size from rfl, hchildren] at hc
    cases hc

theorem Furnished.build (hh : h.Furnished made) {f : Forest} (hs : h.forest.Step f) :
    ({ h with forest := f } : Host).Furnished made where
  forest := hh.forest.step hs
  before := hh.before
  size := hh.size
  lasts := hh.lasts.step hh.forest.wellFormed hs
  opens := hh.opens.step hh.forest.wellFormed hs hh.lasts

/-- Words of nodes remain so while the forest and the grammar are built further. -/
theorem Furnished.isWordOf (hh : h.Furnished made) {f : Forest} (hs : h.forest.Step f)
    {g : Grammar} (hk : Grammar.Kept made h.grammar g) {n : NodeId} {b : BranchId}
    (hb : h.grammar.IsWordOf h.forest made n b) : g.IsWordOf f made n b :=
  (hb.step hh.forest.wellFormed hs (hh.lasts.frozen hb)).mono hk

/-- Compiling a command keeps the start in order, and gives a word of the command. -/
theorem Furnished.compiled (hh : h.Furnished made) {root : NodeId} {refusal : UseFault}
    {g : Grammar} {f : Forest} {word : BranchId}
    (hc : h.grammar.compile h.forest (some root) refusal = .ok (g, f, word)) :
    ({ h with grammar := g, forest := f } : Host).Furnished made ∧
      h.forest.Step f ∧ Grammar.Kept 0 h.grammar g ∧ g.IsWordOf f made root word := by
  have hwf := hh.forest.wellFormed
  have hkept := (Grammar.compiled_of_compile hwf hc).kept
  obtain rfl := Grammar.compile_sealed hc
  have hs := Forest.Step.sealed h.forest root
  obtain ⟨hlasts, hword⟩ := hh.lasts.compile hwf hh.size hc
  exact ⟨⟨hh.forest.step hs, hh.before, Nat.le_trans hh.size hkept.size, hlasts,
    (hh.opens.step hwf hs hh.lasts).kept hkept⟩, hs, hkept, hword⟩

theorem Furnished.compile (hh : h.Furnished made) {id : Option NodeId} {word : BranchId}
    (hc : h.compile id = (h', .ok word)) :
    h'.Furnished made ∧ h.forest.Step h'.forest ∧ Grammar.Kept made h.grammar h'.grammar ∧
      ∃ root, h'.grammar.IsWordOf h'.forest made root word := by
  obtain ⟨root, g, rfl, hcompile, rfl⟩ := Host.compile_eq_ok hc
  obtain ⟨hh', hs, hkept, hword⟩ := hh.compiled hcompile
  exact ⟨hh', hs, hkept.later (Nat.zero_le made), root, hword⟩

/-- What a furnished host looks like after the word of a node has been mounted. -/
theorem Furnished.mounts (hh : h.Furnished made) {root : NodeId} {word : BranchId}
    (hword : h.grammar.IsWordOf h.forest made root word) {g : Grammar} {r : Registrar}
    (hr : r.start = h.registrar.start) {keys : List String}
    (hm : h.grammar.Mounts g made h.registrar.start word keys) :
    ({ h with grammar := g, registrar := r } : Host).Furnished made where
  forest := hh.forest
  before := hr ▸ hh.before
  size := Nat.le_trans hh.size hm.grows.size
  lasts := hh.lasts.grows hm.grows
  opens := hr ▸ hh.opens.mounts hm hword

theorem Furnished.mount (hh : h.Furnished made) {root : NodeId} {word : BranchId}
    (hword : h.grammar.IsWordOf h.forest made root word) (description aliases : Datum) :
    (h.mount (.branch word) description aliases).1.Furnished made ∧
      Grammar.Kept made h.grammar (h.mount (.branch word) description aliases).1.grammar := by
  obtain ⟨hmw, N, W, -, hW, hk, -⟩ := id hword
  obtain ⟨hr, hm, -⟩ := Registrar.mounts_mount hh.before hh.size hmw hW hk description aliases
  exact ⟨hh.mounts hword hr hm, hm.grows.toKept⟩

/-- What registering a command does to a host: the command is listed, and its names lead to its word
while all others lead to where they led before. -/
structure Registers (made : BranchId) (h h' : Host) (root : NodeId) (N : Node)
    (word : BranchId) : Prop where
  forest : h.forest.Step h'.forest
  node : h'.forest.node? root = some N
  role : N.role = .root
  listed : h'.registered = h.registered.put N.key root
  kept : Grammar.Kept made h.grammar h'.grammar
  isWordOf : h'.grammar.IsWordOf h'.forest made root word
  named : ∀ key ∈ N.key :: N.aliases.map Name.key,
    h'.grammar.WordAt made (h'.grammar.childrenOf h'.registrar.start) key word
  others : ∀ key ∉ N.key :: N.aliases.map Name.key,
    (h'.grammar.childrenOf h'.registrar.start).get? key
      = (h.grammar.childrenOf h.registrar.start).get? key

theorem Furnished.register (hh : h.Furnished made) {id : Option NodeId} {word : BranchId}
    (hr : (h.register id).2.result = .ok word) :
    (h.register id).1.Furnished made ∧
      ∃ root N, id = some root ∧ Registers made h (h.register id).1 root N word := by
  obtain ⟨root, g, f, N, g', r, rfl, hc, hN, hmount, heq⟩ := register_cases hr
  obtain ⟨hh', hs, hkept, hword⟩ := hh.compiled hc
  obtain ⟨g₂, r₂, hmount', hstart, hm⟩ := mounts_mount_names hh'.before hh'.size hword hN
    (ofText? N.description)
  have hsame : (g', r, (.ok () : Except Fault Unit)) = (g₂, r₂, .ok ()) :=
    hmount.symm.trans hmount'
  cases hsame
  have hfurnished := hh'.mounts hword hstart hm
  have hrole : N.role = .root := by
    obtain ⟨⟨N', hN', hrole⟩, -, rfl⟩ := Grammar.compile_eq_ok_iff.mp hc
    obtain ⟨b, hN''⟩ := Forest.node?_of_sealUnder hN' root
    rw [hN] at hN''
    cases hN''
    exact hrole
  -- compiling leaves the start alone, so what stands there is changed by mounting only
  have hsameStart : g.childrenOf h.registrar.start = h.grammar.childrenOf h.registrar.start := by
    obtain ⟨S, hS, hkind⟩ := hh.opens.isStart
    rw [Grammar.childrenOf_start (hkept.branch (Nat.zero_le _) hS) hkind,
      Grammar.childrenOf_start hS hkind]
  obtain ⟨-, hnamed, hothers⟩ := hm.childrenOf hh'.opens
  rw [heq]
  refine ⟨⟨hfurnished.forest, hfurnished.before, hfurnished.size, hfurnished.lasts,
    hfurnished.opens⟩, root, N, rfl, hs, hN, hrole, rfl,
    (hkept.later (Nat.zero_le made)).trans hm.grows.toKept, hword.mono hm.grows.toKept, ?_, ?_⟩
  · exact hstart ▸ hnamed
  · intro key hkey
    rw [← hsameStart]
    exact hstart ▸ hothers key hkey

/-! ## Sessions -/

/-- What a host can become in a session, and the words that commands were compiled to. Steps that
are refused change nothing, but that aliases are mounted up to the first that is refused. -/
inductive Session (start : Host) : Host → List BranchId → Prop
  | start : Session start start []
  | build {h : Host} {words : List BranchId} {f : Forest} (hs : Session start h words)
      (hstep : h.forest.Step f) : Session start { h with forest := f } words
  | compile {h h' : Host} {words : List BranchId} {id : Option NodeId} {word : BranchId}
      (hs : Session start h words) (hc : h.compile id = (h', .ok word)) :
      Session start h' (word :: words)
  | mount {h : Host} {words : List BranchId} {word : BranchId} (hs : Session start h words)
      (hw : word ∈ words) (description aliases : Datum) :
      Session start (h.mount (.branch word) description aliases).1 words
  | register {h : Host} {words : List BranchId} {id : Option NodeId} {word : BranchId}
      (hs : Session start h words) (hr : (h.register id).2.result = .ok word) :
      Session start (h.register id).1 (word :: words)

/-- **In a session the start is always in order**, and commands keep their words. -/
theorem Session.furnished {start : Host} {words : List BranchId} (hstart : start.Furnished made)
    (hs : Session start h words) :
    h.Furnished made ∧ ∀ word ∈ words, ∃ root, h.grammar.IsWordOf h.forest made root word := by
  -- words are kept by every step, and each step adds at most one
  induction hs with
  | start => exact ⟨hstart, fun word hw => by cases hw⟩
  | build _ hstep ih =>
    obtain ⟨hh, hwords⟩ := ih
    refine ⟨hh.build hstep, fun word hw => ?_⟩
    obtain ⟨root, hroot⟩ := hwords word hw
    exact ⟨root, hh.isWordOf hstep (Grammar.Kept.refl ..) hroot⟩
  | compile _ hc ih =>
    obtain ⟨hh, hwords⟩ := ih
    obtain ⟨hh', hstep, hkept, hnew⟩ := hh.compile hc
    refine ⟨hh', List.forall_mem_cons.mpr ⟨hnew, fun word hw => ?_⟩⟩
    obtain ⟨root, hroot⟩ := hwords word hw
    exact ⟨root, hh.isWordOf hstep hkept hroot⟩
  | mount _ hw description aliases ih =>
    obtain ⟨hh, hwords⟩ := ih
    obtain ⟨root, hroot⟩ := hwords _ hw
    obtain ⟨hh', hkept⟩ := hh.mount hroot description aliases
    refine ⟨hh', fun word hw => ?_⟩
    obtain ⟨root, hroot⟩ := hwords word hw
    exact ⟨root, hroot.mono hkept⟩
  | register _ hr ih =>
    obtain ⟨hh, hwords⟩ := ih
    obtain ⟨hh', root, N, -, hregisters⟩ := hh.register hr
    refine ⟨hh', List.forall_mem_cons.mpr ⟨⟨root, hregisters.isWordOf⟩, fun word hw => ?_⟩⟩
    obtain ⟨root, hroot⟩ := hwords word hw
    exact ⟨root, hh.isWordOf hregisters.forest hregisters.kept hroot⟩

end Host

end CommandTree
