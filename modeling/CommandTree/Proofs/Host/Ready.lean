import CommandTree.Host
import CommandTree.Proofs.Grammar.Built
import CommandTree.Proofs.Grammar.Steps

/-!
# Hosts that can be made

A host is made without nodes and with a registrar of its own. Then its forest and its grammar are
built further, by hand or by compiling, and commands are registered, in any order. All that happens
to its grammar comes in the steps in which grammars are built. No branch changes its kind, so
whatever is done, inputs start at a branch that is made for that.

* `Operation.steps`: what an operation does to the grammar
* `Operation.ready`: no operation makes a host unready
* `Reachable.ready`, `Reachable.wellFormed`: every host that can be made is ready, and its grammar
  is well-formed
-/

namespace CommandTree

open Relation

/-! ## Operations -/

namespace Host

/-- What can be done to a host: its forest and its grammar are built further, commands are compiled
and registered, words are mounted, and the handler and the registrar are replaced. What is refused
changes nothing, but that aliases are mounted up to the first that is refused. -/
inductive Operation : Host → Host → Prop
  | build {h : Host} {f : Forest} (hs : h.forest.Step f) : Operation h { h with forest := f }
  | word {h : Host} {name : Datum} {redirect : Grammar.BranchArgument} {g : Grammar} {b : BranchId}
      (ha : h.grammar.addWord name redirect = .ok (g, b)) : Operation h { h with grammar := g }
  | slot {h : Host} {name : Datum} {cls : Option TokenClass} {g : Grammar} {b : BranchId}
      (ha : h.grammar.addSlot name cls = .ok (g, b)) : Operation h { h with grammar := g }
  | attach {h : Host} {parent : BranchId} {child : Grammar.BranchArgument} {g : Grammar}
      (ha : h.grammar.attachBranch parent child = .ok g) : Operation h { h with grammar := g }
  | callback {h : Host} {b : BranchId} {callback : Option Callback} {g : Grammar}
      (ha : h.grammar.assignCallback b callback = .ok g) : Operation h { h with grammar := g }
  | subtree {h : Host} {id : NodeId} {g : Grammar} {b : BranchId}
      (ha : h.grammar.addSubtree h.forest id = .ok (g, b)) : Operation h { h with grammar := g }
  | parameters {h : Host} {id : NodeId} {g : Grammar} {b : BranchId}
      (ha : h.grammar.addParameters h.forest id = .ok (g, b)) : Operation h { h with grammar := g }
  | compile (h : Host) (id : Option NodeId) : Operation h (h.compile id).1
  | mount (h : Host) (word : Grammar.BranchArgument) (description aliases : Datum) :
      Operation h (h.mount word description aliases).1
  | register (h : Host) (id : Option NodeId) : Operation h (h.register id).1
  | handle (h : Host) (handler : Option Handler) : Operation h { h with handler := handler }
  | renew (h : Host) (handler : Option Handler) : Operation h (h.renewed handler)

/-- The hosts that can be made. -/
def Reachable (h : Host) : Prop := ∃ handler, ReflTransGen Operation (create handler) h

/-- Whether commands can be registered at a host: its forest can be built, and inputs start at a
branch for that. -/
structure Ready (h : Host) : Prop where
  forest : h.forest.Reachable
  start : ∃ S, h.grammar.branch? h.registrar.start = some S ∧ S.kind = .start

variable {h h' : Host}

/-! ## What operations do to the grammar -/

theorem steps_mount (h : Host) (word : Grammar.BranchArgument) (description aliases : Datum) :
    ReflTransGen Grammar.Step h.grammar (h.mount word description aliases).1.grammar :=
  Registrar.steps_mount h.grammar h.registrar word description aliases

theorem start_mount (h : Host) (word : Grammar.BranchArgument) (description aliases : Datum) :
    (h.mount word description aliases).1.registrar.start = h.registrar.start :=
  Registrar.start_mount h.grammar h.registrar word description aliases

/-- What registering does: nothing, or a command is compiled and then its word is mounted. -/
theorem register_eq (h : Host) (id : Option NodeId) :
    (h.register id).1 = h ∨ ∃ g f word description aliases registered,
      h.grammar.compile h.forest id .rootExpectedToRegister = .ok (g, f, word) ∧
      (h.register id).1
        = { (({ h with grammar := g, forest := f } : Host).mount (.branch word) description
            aliases).1 with registered := registered } := by
  rw [Host.register]
  cases hc : h.grammar.compile h.forest id .rootExpectedToRegister with
  | error fault => exact Or.inl rfl
  | ok out =>
    obtain ⟨g, f, word⟩ := out
    dsimp only
    split
    · exact Or.inl rfl
    · next root N _ =>
      refine Or.inr ⟨g, f, word, ofText? N.description,
        .tuple (N.aliases.map fun a => .string a.text), ?_⟩
      split
      · next h' fault heq => exact ⟨h'.registered, rfl, by rw [heq]⟩
      · next h' u heq => exact ⟨_, rfl, by rw [heq]⟩

/-- **What an operation does to the grammar comes in steps.** -/
theorem Operation.steps (ho : Operation h h') :
    ReflTransGen Grammar.Step h.grammar h'.grammar := by
  cases ho with
  | build => exact .refl
  | word ha => exact .single (Grammar.step_addWord ha).1
  | slot ha => exact .single (Grammar.step_addSlot ha)
  | attach ha => exact .single (Grammar.step_attachBranch ha)
  | callback ha => exact .single (Grammar.step_assignCallback ha)
  | subtree ha => exact Grammar.steps_addSubtree ha
  | parameters ha => exact Grammar.steps_addParameters ha
  | compile id =>
    rw [Host.compile]
    split
    · exact .refl
    · next hc => exact Grammar.steps_compile hc
  | mount word description aliases => exact h.steps_mount word description aliases
  | register id =>
    rcases h.register_eq id with hsame | ⟨g, f, word, description, aliases, registered, hc, heq⟩
    · rw [hsame]
    · rw [heq]
      exact (Grammar.steps_compile hc).trans (Host.steps_mount { h with grammar := g, forest := f }
        (.branch word) description aliases)
  | handle => exact .refl
  | renew => exact .single (Grammar.step_add_bare fun r hr => by cases hr)

/-! ## Hosts that are ready -/

theorem Ready.keepsKinds (hh : h.Ready) {g : Grammar} (hg : h.grammar.KeepsKinds g) :
    ({ h with grammar := g } : Host).Ready where
  forest := hh.forest
  start := by
    obtain ⟨S, hS, hkind⟩ := hh.start
    obtain ⟨S', hS', hkind'⟩ := hg _ S hS
    exact ⟨S', hS', hkind'.trans hkind⟩

theorem ready_renewed (hf : h.forest.Reachable) (handler : Option Handler) :
    (h.renewed handler).Ready where
  forest := hf
  start := ⟨_, Grammar.branch?_add_self h.grammar (.bare .start), rfl⟩

theorem Ready.compiled (hh : h.Ready) {id : Option NodeId} {refusal : UseFault} {g : Grammar}
    {f : Forest} {word : BranchId} (hc : h.grammar.compile h.forest id refusal = .ok (g, f, word)) :
    ({ h with grammar := g, forest := f } : Host).Ready := by
  cases id with
  | none => cases hc
  | some root =>
    have hkinds := Grammar.keepsKinds_of_steps (Grammar.steps_compile hc)
    obtain rfl := Grammar.compile_sealed hc
    exact ⟨hh.forest.step (.sealed h.forest root), (hh.keepsKinds hkinds).start⟩

theorem Ready.mount (hh : h.Ready) (word : Grammar.BranchArgument) (description aliases : Datum) :
    (h.mount word description aliases).1.Ready where
  forest := hh.forest
  start := by
    have hkinds := Grammar.keepsKinds_of_steps (h.steps_mount word description aliases)
    obtain ⟨S, hS, hkind⟩ := (hh.keepsKinds hkinds).start
    exact ⟨S, by rw [h.start_mount]; exact hS, hkind⟩

theorem Ready.register (hh : h.Ready) (id : Option NodeId) : (h.register id).1.Ready := by
  rcases h.register_eq id with hsame | ⟨g, f, word, description, aliases, registered, hc, heq⟩
  · rw [hsame]
    exact hh
  · have hmounted := (hh.compiled hc).mount (.branch word) description aliases
    rw [heq]
    exact ⟨hmounted.forest, hmounted.start⟩

/-- **No operation makes a host unready.** -/
theorem Operation.ready (ho : Operation h h') (hh : h.Ready) : h'.Ready := by
  have hkinds := Grammar.keepsKinds_of_steps ho.steps
  cases ho with
  | build hs => exact ⟨hh.forest.step hs, hh.start⟩
  | word | slot | attach | callback | subtree | parameters => exact hh.keepsKinds hkinds
  | compile id =>
    rw [Host.compile]
    split
    · exact hh
    · next hc => exact hh.compiled hc
  | mount word description aliases => exact hh.mount word description aliases
  | register id => exact hh.register id
  | handle handler => exact ⟨hh.forest, hh.start⟩
  | renew handler => exact ready_renewed hh.forest handler

/-- Every forest that can be built is that of a host that can be made. -/
theorem reachable_of_forest {f : Forest} (hf : f.Reachable) (handler : Option Handler) :
    ({ create handler with forest := f } : Host).Reachable := by
  refine ⟨handler, ?_⟩
  induction hf with
  | start => exact .refl
  | step _ hs ih => exact ih.tail (.build hs)

/-- **Every host that can be made is ready.** -/
theorem Reachable.ready (hh : h.Reachable) : h.Ready := by
  obtain ⟨handler, hops⟩ := hh
  induction hops with
  | refl => exact ⟨.start, _, Grammar.branch?_add_self .empty (.bare .start), rfl⟩
  | tail _ ho ih => exact ho.ready ih

theorem Reachable.operation (hh : h.Reachable) (ho : Operation h h') : h'.Reachable := by
  obtain ⟨handler, hops⟩ := hh
  exact ⟨handler, hops.tail ho⟩

/-- **The grammar of every host that can be made is well-formed.** -/
theorem Reachable.wellFormed (hh : h.Reachable) : h.grammar.WellFormed := by
  obtain ⟨handler, hops⟩ := hh
  induction hops with
  | refl =>
    exact Grammar.Step.wellFormed (Grammar.step_add_bare fun r hr => by cases hr)
      Grammar.wellFormed_empty
  | tail _ ho ih => exact ih.steps ho.steps

end Host

end CommandTree
