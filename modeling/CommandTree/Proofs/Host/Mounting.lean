import CommandTree.Host
import CommandTree.Proofs.Grammar.Descent

/-!
# Words that are mounted

A command is mounted by its word, and by a redirecting word for each of its aliases. Mounting puts
these words at the start, under their keys, and leaves alone what stands there under other keys.
Where a command is registered alone, inputs start with its name or with one of its aliases, and all
of these lead to the word that the command was compiled to.

* `Mounts.attach`: one more word is put at the start
* `mounts_mount`: what mounting a word puts at the start
* `serves_of_compile`: a command that can be compiled is registered
-/

namespace CommandTree

open Text

namespace Grammar

/-- Whether a grammar differs from another one in what stands at the start: under given keys there
are words that stand for one word, and under all others there is what was there before. -/
structure Mounts (g g' : Grammar) (made start word : BranchId) (keys : List String) : Prop where
  grows : Grows made g g'
  start : ∀ S, g.branch? start = some S → ∃ S', g'.branch? start = some S' ∧ S'.kind = S.kind ∧
    (∀ key ∈ keys, g'.WordAt made S'.children key word) ∧
    ∀ key ∉ keys, S'.children.get? key = S.children.get? key

/-- Whether, at the start, there are words under given keys and nothing else, all of which stand for
one word. -/
def Mounted (g : Grammar) (made start word : BranchId) (keys : List String) : Prop :=
  ∃ S, g.branch? start = some S ∧ S.kind = .start ∧
    (∀ key ∈ keys, g.WordAt made S.children key word) ∧ ∀ key ∉ keys, S.children.get? key = none

variable {g g₁ : Grammar} {made start word : BranchId} {keys : List String}

theorem branch?_attach_self {parent child : BranchId} {P C : Branch}
    (hP : g.branch? parent = some P) (hC : g.branch? child = some C) :
    (g.attach parent child).branch? parent
      = some { P with children := P.children.put C.key child } := by
  have hget : g.branches[parent]? = some P := hP
  rw [attach, hC]
  simp [update, branch?, hget]

theorem Mounts.refl (g : Grammar) (made start word : BranchId) : g.Mounts g made start word [] where
  grows := Grows.refl made g
  start := fun S hS => ⟨S, hS, rfl, fun key hkey => (by cases hkey), fun key _ => rfl⟩

theorem Mounts.of_mem_iff (h : g.Mounts g₁ made start word keys) {keys' : List String}
    (hmem : ∀ key, key ∈ keys' ↔ key ∈ keys) : g.Mounts g₁ made start word keys' where
  grows := h.grows
  start := fun S hS => by
    obtain ⟨S', hS', hkind, hwords, hothers⟩ := h.start S hS
    exact ⟨S', hS', hkind, fun key hkey => hwords key ((hmem key).mp hkey),
      fun key hkey => hothers key fun hold => hkey ((hmem key).mpr hold)⟩

/-- One more word is attached to the start. -/
theorem Mounts.attach (h : g.Mounts g₁ made start word keys) (hstart : start < made) {c : BranchId}
    {C : Branch} {name : Name} {redirect : Option BranchId} (hm : made ≤ c)
    (hC : g₁.branch? c = some C) (hk : C.kind = .word name redirect)
    (hword : redirect.getD c = word) :
    g.Mounts (g₁.attach start c) made start word (name.key :: keys) where
  grows := h.grows.trans (grows_attach g₁ hstart c)
  start := fun S hS => by
    obtain ⟨S', hS', hkind, hwords, hothers⟩ := h.start S hS
    have hkept := (grows_attach g₁ hstart c).toKept
    have hkey : C.key = name.key := by rw [Branch.key, Branch.name, hk]; rfl
    refine ⟨_, branch?_attach_self hS' hC, hkind, fun key hmem => ?_, fun key hnot => ?_⟩
    · by_cases he : key = name.key
      · refine ⟨c, C, name, redirect, ?_, hm, hkept.branch hm hC, hk, he.symm, hword⟩
        rw [he, hkey, Catalog.get?_put_self]
      · have hold : key ∈ keys := (List.mem_cons.mp hmem).resolve_left he
        obtain ⟨c', C', name', redirect', hget, hm', hC', hrest⟩ := hwords key hold
        refine ⟨c', C', name', redirect', ?_, hm', hkept.branch hm' hC', hrest⟩
        rw [hkey, Catalog.get?_put, if_neg he, hget]
    · rw [List.mem_cons, not_or] at hnot
      rw [hkey, Catalog.get?_put, if_neg hnot.1]
      exact hothers key hnot.2

theorem Mounts.add (h : g.Mounts g₁ made start word keys) {B : Branch}
    (hB : ∀ name, B.kind ≠ .word name none) : g.Mounts (g₁.add B).1 made start word keys where
  grows := h.grows.trans (grows_add made g₁ hB)
  start := fun S hS => by
    obtain ⟨S', hS', hkind, hwords, hothers⟩ := h.start S hS
    exact ⟨S', branch?_add_of_some hS' B, hkind,
      fun key hkey => (hwords key hkey).mono (kept_add made g₁ B), hothers⟩

/-- What is mounted at a start of its own stands there alone. -/
theorem Mounts.mounted (h : g.Mounts g₁ made start word keys)
    (hs : g.branch? start = some (.bare .start)) : g₁.Mounted made start word keys := by
  obtain ⟨S, hS, hkind, hwords, hothers⟩ := h.start _ hs
  exact ⟨S, hS, hkind, hwords, fun key hkey => hothers key hkey⟩

end Grammar

namespace Registrar

open Grammar

variable {g : Grammar} {made start word : BranchId} {keys : List String}

/-- The names among aliases, up to the first alias that is none. -/
def namesOf : List Datum → List Name
  | [] => []
  | a :: rest =>
    match Name.declare "literal" a with
    | .ok name => name :: namesOf rest
    | .error _ => []

theorem namesOf_text (names : List Name) : namesOf (names.map fun a => .string a.text) = names := by
  induction names with
  | nil => rfl
  | cons a rest ih => rw [List.map_cons, namesOf, Name.declare_text, ih]

theorem addWord_redirect {g : Grammar} {word : BranchId}
    (h : (g.branch? word).any Branch.isWord = true) (a : Datum) :
    g.addWord a (.branch word)
      = (Name.declare "literal" a).map fun name => g.add (.bare (.word name (some word))) := by
  unfold addWord
  cases Name.declare "literal" a with
  | error fault => rfl
  | ok name => simp [branchThat, h, bind, Except.bind, Except.map]

/-- **The aliases that are names are mounted**, up to the first that is none. -/
theorem mounts_mountAliases {g₀ : Grammar} (hstart : start < made) :
    ∀ (items : List Datum) {g : Grammar} {keys : List String}, made ≤ g.size → made ≤ word →
      (g.branch? word).any Branch.isWord = true → g₀.Mounts g made start word keys →
        g₀.Mounts (mountAliases g start word items).1 made start word
            (((namesOf items).map Name.key).reverse ++ keys) ∧
          ((namesOf items).length = items.length → (mountAliases g start word items).2 = .ok ())
  | [], g, keys, _, _, _, h => ⟨h, fun _ => rfl⟩
  | a :: rest, g, keys, hm, hmw, hword, h => by
    rw [mountAliases, addWord_redirect hword, namesOf]
    cases Name.declare "literal" a with
    | error fault => exact ⟨h, fun hlength => by cases hlength⟩
    | ok name =>
      -- the start lies before what was compiled, so attaching to it changes nothing there
      have hgrow : Grows made g ((g.add (.bare (.word name (some word)))).1.attach start g.size) :=
        (grows_add made g fun name hk => by cases hk).trans (grows_attach _ hstart g.size)
      have hmounts : g₀.Mounts ((g.add (.bare (.word name (some word)))).1.attach start g.size) made
          start word (name.key :: keys) :=
        (h.add fun name hk => by cases hk).attach hstart hm (branch?_add_self ..) rfl rfl
      have hword' : (((g.add (.bare (.word name (some word)))).1.attach start g.size).branch?
          word).any Branch.isWord = true := by
        obtain ⟨B, hB, hisWord⟩ := (Option.any_eq_true _ _).mp hword
        rw [hgrow.branch hmw hB]
        exact hisWord
      obtain ⟨hmounts', hok⟩ := mounts_mountAliases hstart rest (Nat.le_trans hm hgrow.size) hmw
        hword' hmounts
      refine ⟨?_, fun hlength => hok (Nat.succ.inj hlength)⟩
      rw [List.map_cons, List.reverse_cons, List.append_assoc]
      exact hmounts'

/-- The names among aliases of any kind. -/
def namesIn (aliases : Datum) : List Name :=
  match aliases.items with
  | .ok items => namesOf items
  | .error _ => []

/-- **Mounting a word puts it at the start, under its name and its aliases.** -/
theorem mounts_mount {r : Registrar} (hstart : r.start < made) (hm : made ≤ g.size) {W : Branch}
    {name : Name} (hmw : made ≤ word) (hW : g.branch? word = some W)
    (hk : W.kind = .word name none) (description aliases : Datum) :
    (mount g r (.branch word) description aliases).2.1.start = r.start ∧
      g.Mounts (mount g r (.branch word) description aliases).1 made r.start word
        (name.key :: (namesIn aliases).map Name.key) ∧
      ((∃ items, aliases.items = .ok items ∧ (namesOf items).length = items.length) →
        (mount g r (.branch word) description aliases).2.2 = .ok ()) := by
  have hword : (g.branch? word).any Branch.isWord = true := by
    rw [hW, Option.any_some, Branch.isWord, hk]
  have hgrow : Grows made g (g.attach r.start word) := grows_attach g hstart word
  have hword' : ((g.attach r.start word).branch? word).any Branch.isWord = true := by
    rw [hgrow.branch hmw hW, ← hW]
    exact hword
  have hfirst : g.Mounts (g.attach r.start word) made r.start word [name.key] :=
    (Mounts.refl g made r.start word).attach hstart hmw hW hk rfl
  have hthat : g.branchThat Branch.isWord (.branch word) = some word := by
    rw [branchThat, if_pos hword]
  rw [mount, hthat, namesIn]
  dsimp only
  cases aliases.items with
  | error fault =>
    refine ⟨rfl, hfirst, ?_⟩
    rintro ⟨items, hitems, -⟩
    cases hitems
  | ok items =>
    obtain ⟨hmounts, hok⟩ := mounts_mountAliases hstart items (Nat.le_trans hm hgrow.size) hmw
      hword' hfirst
    refine ⟨rfl, hmounts.of_mem_iff fun key => by simp [or_comm], ?_⟩
    rintro ⟨items', hitems, hlength⟩
    cases hitems
    exact hok hlength

end Registrar

/-! ## Registering a command -/

/-- What is known of a host at which one command, and nothing else, has been registered. -/
structure Host.Serves (h : Host) (f : Forest) (made : BranchId) (root : NodeId)
    (word : BranchId) : Prop where
  forest : h.forest = f.sealUnder root
  node : ∃ N, f.node? root = some N ∧ N.role = .root ∧
    h.grammar.Mounted made h.registrar.start word (N.key :: N.aliases.map Name.key)
  shaped : h.grammar.AllShaped f made
  word : h.grammar.IsWordOf f made root word
  tree : ∃ t, f.treeOf root = some t ∧ ∀ n ∈ t.ids, ∃ b, h.grammar.IsWordOf f made n b

namespace Host

theorem compile_refusal {g g' : Grammar} {f f' : Forest} {id : Option NodeId}
    {refusal : UseFault} {word : BranchId} (h : g.compile f id refusal = .ok (g', f', word))
    (other : UseFault) : g.compile f id other = .ok (g', f', word) := by
  cases id with
  | none => cases h
  | some root =>
    exact Grammar.compile_eq_ok_iff.mpr (Grammar.compile_eq_ok_iff.mp h)

/-- Where compiling is refused, it changes nothing. -/
theorem compile_refused {h h' : Host} {id : Option NodeId} {fault : Fault}
    (hc : h.compile id = (h', .error fault)) : h' = h := by
  unfold compile at hc
  split at hc <;> cases hc
  rfl

/-- A command that is compiled is sealed with all that is under it. -/
theorem compile_eq_ok {h h' : Host} {id : Option NodeId} {word : BranchId}
    (hc : h.compile id = (h', .ok word)) :
    ∃ root g, id = some root ∧
      h.grammar.compile h.forest (some root) .rootExpectedToCompile
        = .ok (g, h.forest.sealUnder root, word) ∧
      h' = { h with grammar := g, forest := h.forest.sealUnder root } := by
  unfold compile at hc
  split at hc
  · cases hc
  · next g f w hok =>
    cases hc
    cases id with
    | none => cases hok
    | some root =>
      obtain rfl := Grammar.compile_sealed hok
      exact ⟨root, g, rfl, hok, rfl⟩

theorem compile_some_eq_ok {h h' : Host} {root : NodeId} {word : BranchId}
    (hc : h.compile (some root) = (h', .ok word)) :
    ∃ g, h.grammar.compile h.forest (some root) .rootExpectedToCompile
        = .ok (g, h.forest.sealUnder root, word) ∧
      h' = { h with grammar := g, forest := h.forest.sealUnder root } := by
  obtain ⟨_, g, hroot, hcompiled⟩ := compile_eq_ok hc
  cases hroot
  exact ⟨g, hcompiled⟩

/-- A compiled command is mounted under its name and its aliases. -/
theorem mounts_mount_names {g : Grammar} {f : Forest} {root : NodeId} {word made : BranchId}
    {N : Node} {r : Registrar} (hstart : r.start < made) (hm : made ≤ g.size)
    (hword : g.IsWordOf f made root word) (hN : f.node? root = some N) (description : Datum) :
    ∃ g' r', Registrar.mount g r (.branch word) description
        (.tuple (N.aliases.map fun a => .string a.text)) = (g', r', .ok ()) ∧
      r'.start = r.start ∧ g.Mounts g' made r.start word (N.key :: N.aliases.map Name.key) := by
  obtain ⟨hmw, N', W, hN', hW, hk, -⟩ := hword
  rw [hN] at hN'
  cases hN'
  obtain ⟨hstart', hmounts, hok⟩ := Registrar.mounts_mount hstart hm hmw hW hk description
    (.tuple (N.aliases.map fun a => .string a.text))
  have hnames : Registrar.namesIn (.tuple (N.aliases.map fun a => .string a.text)) = N.aliases :=
    Registrar.namesOf_text N.aliases
  rw [hnames] at hmounts
  refine ⟨_, _, Prod.ext rfl (Prod.ext rfl (hok ⟨_, rfl, ?_⟩)), hstart', hmounts⟩
  rw [Registrar.namesOf_text, List.length_map]

/-- A command that cannot be compiled is not registered, and nothing happens. -/
theorem register_of_compile_error {h : Host} {id : Option NodeId} {fault : Fault}
    (hc : h.grammar.compile h.forest id .rootExpectedToRegister = .error fault) :
    h.register id = (h, .fail fault) := by
  rw [register, hc]

/-- A command whose word is compiled and mounted is listed. -/
theorem register_of_mount {h : Host} {root : NodeId} {N : Node} {refusal : UseFault}
    {g g' : Grammar} {f : Forest} {r : Registrar} {word : BranchId}
    (hN : h.forest.node? root = some N)
    (hc : h.grammar.compile h.forest (some root) refusal = .ok (g, f, word))
    (hmount : Registrar.mount g h.registrar (.branch word) (ofText? N.description)
      (.tuple (N.aliases.map fun a => .string a.text)) = (g', r, .ok ())) :
    h.register (some root)
      = ({ h with
          grammar := g', forest := h.forest.sealUnder root, registrar := r
          registered := h.registered.put N.key root },
        (Outcome.emit (registeredEvent N)).bind fun _ => .done word) := by
  obtain rfl := Grammar.compile_sealed hc
  obtain ⟨b, hN'⟩ := Forest.node?_of_sealUnder hN root
  simp only [register, compile_refusal hc .rootExpectedToRegister, Option.bind_some, mount, hN',
    Option.map_some, hmount]
  rfl

/-- **A command that can be compiled is registered, and then inputs start with its names.** -/
theorem serves_of_compile {h h' : Host} {handler : Option Handler} {root : NodeId}
    {word : BranchId} (hf : h.forest.Reachable)
    (hc : (h.renewed handler).compile (some root) = (h', .ok word)) :
    ((h.renewed handler).register (some root)).2.result = .ok word ∧
      ((h.renewed handler).register (some root)).1.handler = handler ∧
      ((h.renewed handler).register (some root)).1.Serves h.forest (h.renewed handler).grammar.size
        root word := by
  obtain ⟨g₁, hok, -⟩ := compile_some_eq_ok hc
  have hcompiled := Grammar.compiled_of_compile hf.wellFormed hok
  obtain ⟨N, hN, hrole⟩ := hcompiled.node
  have hs : (h.renewed handler).grammar.branch? h.grammar.size = some (.bare .start) :=
    Grammar.branch?_add_self ..
  have hstart : h.grammar.size < (h.renewed handler).grammar.size := Grammar.branch?_lt hs
  obtain ⟨g₂, r, hmount, hrs, hmounts⟩ := mounts_mount_names
    (show (h.renewed handler).registrar.start < _ from hstart) hcompiled.kept.size hcompiled.word hN
    (ofText? N.description)
  have hmounted := hmounts.mounted (hcompiled.kept.branch (Nat.zero_le _) hs)
  have hN' : (h.renewed handler).forest.node? root = some N := hN
  rw [register_of_mount hN' hok hmount]
  obtain ⟨t, ht, hbuilds⟩ := hcompiled.tree
  refine ⟨rfl, rfl, rfl, ⟨N, hN, hrole, hrs ▸ hmounted⟩, hcompiled.shaped.grows hmounts.grows,
    hcompiled.word.mono hmounts.grows.toKept, t, ht, fun n hn => ?_⟩
  obtain ⟨b, hb⟩ := hbuilds.exists_word hn
  exact ⟨b, hb.mono hmounts.grows.toKept⟩

end Host

end CommandTree
