import CommandTree.Grammar.Registrar
import CommandTree.Proofs.Catalog
import CommandTree.Proofs.Grammar.Compiled
import Mathlib.Logic.Relation

/-!
# The steps in which a grammar is built

Whatever is done to a grammar comes down to three steps: a branch is added, a branch is attached
under another one, and a branch is given a callback. Building by hand, mounting and compiling are
sequences of such steps. So what each step keeps, all of them keep: branches do not change their
kinds, nothing but words and slots stands under a branch, and words redirect to earlier words.

* `Step.keepsKinds`, `Step.wellFormed`: what one step keeps
* `keepsKinds_of_steps`, `WellFormed.steps`: what any number of steps keep
* `WellFormed.target_eq`: a branch stands for the same while a grammar is built further
* `steps_mount`, `steps_addTree`: mounting and compiling as steps
-/

namespace CommandTree

open Relation

namespace Grammar

variable {g g₁ g' : Grammar}

/-! ## Kinds of branches -/

/-- Whether the branches of a grammar are there in another one, and of the same kinds. -/
def KeepsKinds (g g' : Grammar) : Prop :=
  ∀ b B, g.branch? b = some B → ∃ B', g'.branch? b = some B' ∧ B'.kind = B.kind

theorem KeepsKinds.refl (g : Grammar) : g.KeepsKinds g := fun _ B hB => ⟨B, hB, rfl⟩

theorem KeepsKinds.trans (h : g.KeepsKinds g₁) (h' : g₁.KeepsKinds g') : g.KeepsKinds g' := by
  intro b B hB
  obtain ⟨B₁, hB₁, hkind⟩ := h b B hB
  obtain ⟨B', hB', hkind'⟩ := h' b B₁ hB₁
  exact ⟨B', hB', hkind'.trans hkind⟩

theorem Kept.keepsKinds (h : Kept 0 g g') : g.KeepsKinds g' :=
  fun b B hB => ⟨B, h.branch (Nat.zero_le b) hB, rfl⟩

/-- What depends on the kind of a branch only is kept with the kinds. -/
theorem KeepsKinds.any (h : g.KeepsKinds g') {p : Branch → Bool}
    (hp : ∀ B B' : Branch, B'.kind = B.kind → p B' = p B) {b : BranchId}
    (hb : (g.branch? b).any p = true) : (g'.branch? b).any p = true := by
  obtain ⟨B, hB, hpB⟩ := (Option.any_eq_true _ _).mp hb
  obtain ⟨B', hB', hkind⟩ := h b B hB
  rw [hB', Option.any_some, hp B B' hkind, hpB]

theorem isWord_congr {B B' : Branch} (h : B'.kind = B.kind) : B'.isWord = B.isWord := by
  unfold Branch.isWord
  rw [h]

theorem isSlot_congr {B B' : Branch} (h : B'.kind = B.kind) : B'.isSlot = B.isSlot := by
  unfold Branch.isSlot
  rw [h]

theorem redirect?_congr {B B' : Branch} (h : B'.kind = B.kind) :
    B'.redirect? = B.redirect? := by
  unfold Branch.redirect?
  rw [h]

/-- Whether there is a word at a place. -/
def IsWord (g : Grammar) (b : BranchId) : Prop := (g.branch? b).any Branch.isWord = true

/-- Whether the branch at a place can stand under others: whether it is a word or a slot. -/
def CanFollow (g : Grammar) (b : BranchId) : Prop :=
  (g.branch? b).any (fun B => B.isWord || B.isSlot) = true

theorem IsWord.canFollow {b : BranchId} (h : g.IsWord b) : g.CanFollow b := by
  obtain ⟨B, hB, hword⟩ := (Option.any_eq_true _ _).mp h
  rw [CanFollow, hB, Option.any_some, hword, Bool.true_or]

theorem IsWord.keepsKinds {b : BranchId} (h : g.IsWord b) (hk : g.KeepsKinds g') : g'.IsWord b :=
  hk.any (fun _ _ => isWord_congr) h

theorem CanFollow.keepsKinds {b : BranchId} (h : g.CanFollow b) (hk : g.KeepsKinds g') :
    g'.CanFollow b :=
  hk.any (fun _ _ hkind => by rw [isWord_congr hkind, isSlot_congr hkind]) h

theorem CanFollow.exists_branch {b : BranchId} (h : g.CanFollow b) :
    ∃ B, g.branch? b = some B ∧ B.kind ≠ .start := by
  obtain ⟨B, hB, hfollow⟩ := (Option.any_eq_true _ _).mp h
  refine ⟨B, hB, fun hstart => ?_⟩
  simp [Branch.isWord, Branch.isSlot, hstart] at hfollow

/-! ## Steps -/

/-- What a grammar can become in one step. -/
inductive Step : Grammar → Grammar → Prop
  | add {g : Grammar} {B : Branch} (hchildren : ∀ c ∈ B.children.items, g.CanFollow c)
      (hredirect : ∀ r, B.redirect? = some r → g.IsWord r) : Step g (g.add B).1
  | attach {g : Grammar} (parent : BranchId) {child : BranchId} (h : g.CanFollow child) :
      Step g (g.attach parent child)
  | callback {g : Grammar} (id : BranchId) (callback : Callback) :
      Step g (g.setCallback id callback)

/-- Whether nothing but words and slots stands under a branch, and words redirect to earlier
words. -/
structure WellFormed (g : Grammar) : Prop where
  child : ∀ {b B c}, g.branch? b = some B → c ∈ B.children.items → g.CanFollow c
  redirect : ∀ {b B r}, g.branch? b = some B → B.redirect? = some r → r < b ∧ g.IsWord r

theorem wellFormed_empty : Grammar.empty.WellFormed where
  child := fun hB => by cases hB
  redirect := fun hB => by cases hB

theorem keepsKinds_update (g : Grammar) (id : BranchId) {change : Branch → Branch}
    (h : ∀ B, (change B).kind = B.kind) : g.KeepsKinds (g.update id change) := by
  intro b B hB
  have hget : g.branches[b]? = some B := hB
  by_cases hb : id = b
  · exact ⟨change B, by simp [update, branch?, hb, hget], h B⟩
  · exact ⟨B, by simp [update, branch?, hb, hget], rfl⟩

theorem keepsKinds_add (g : Grammar) (B : Branch) : g.KeepsKinds (g.add B).1 :=
  (kept_add 0 g B).keepsKinds

theorem keepsKinds_attach (g : Grammar) (parent child : BranchId) :
    g.KeepsKinds (g.attach parent child) := by
  rw [attach]
  split
  · exact keepsKinds_update g parent fun B => rfl
  · exact .refl g

/-- **No step changes the kind of a branch.** -/
theorem Step.keepsKinds (h : Step g g') : g.KeepsKinds g' := by
  cases h with
  | add => exact keepsKinds_add g _
  | attach parent => exact keepsKinds_attach g parent _
  | callback id => exact keepsKinds_update g id fun B => rfl

theorem branch?_of_update {id b : BranchId} {change : Branch → Branch} {B' : Branch}
    (h : (g.update id change).branch? b = some B') :
    ∃ B, g.branch? b = some B ∧ (B' = change B ∨ B' = B) := by
  rw [branch?, Grammar.update, List.getElem?_modify, Option.map_eq_map,
    Option.map_eq_some_iff] at h
  obtain ⟨B, hB, rfl⟩ := h
  refine ⟨B, hB, ?_⟩
  by_cases hb : id = b
  · exact Or.inl (if_pos hb)
  · exact Or.inr (if_neg hb)

/-- A change that keeps the kind of a branch, and puts nothing but words and slots under it. -/
theorem WellFormed.update (h : g.WellFormed) (id : BranchId) {change : Branch → Branch}
    (hkind : ∀ B, (change B).kind = B.kind)
    (hchildren : ∀ B c, c ∈ (change B).children.items → c ∈ B.children.items ∨ g.CanFollow c) :
    (g.update id change).WellFormed where
  child := fun hB' hc => by
    have hkeeps := keepsKinds_update g id hkind
    obtain ⟨B, hB, rfl | rfl⟩ := branch?_of_update hB'
    · rcases hchildren B _ hc with hold | hnew
      · exact (h.child hB hold).keepsKinds hkeeps
      · exact hnew.keepsKinds hkeeps
    · exact (h.child hB hc).keepsKinds hkeeps
  redirect := fun hB' hr => by
    have hkeeps := keepsKinds_update g id hkind
    obtain ⟨B, hB, rfl | rfl⟩ := branch?_of_update hB'
    · rw [redirect?_congr (hkind B)] at hr
      obtain ⟨hlt, hword⟩ := h.redirect hB hr
      exact ⟨hlt, hword.keepsKinds hkeeps⟩
    · obtain ⟨hlt, hword⟩ := h.redirect hB hr
      exact ⟨hlt, hword.keepsKinds hkeeps⟩

/-- **What is well-formed remains so in each step.** -/
theorem Step.wellFormed (hs : Step g g') (h : g.WellFormed) : g'.WellFormed := by
  cases hs with
  | @add B hchildren hredirect =>
    have hkeeps := keepsKinds_add g B
    constructor
    · intro b B' c hB' hc
      rw [branch?_add] at hB'
      split at hB'
      · cases hB'
        exact (hchildren c hc).keepsKinds hkeeps
      · exact (h.child hB' hc).keepsKinds hkeeps
    · intro b B' r hB' hr
      rw [branch?_add] at hB'
      split at hB'
      · next hb =>
        cases hB'
        have hword := hredirect r hr
        obtain ⟨R, hR, -⟩ := (Option.any_eq_true _ _).mp hword
        exact ⟨hb ▸ branch?_lt hR, hword.keepsKinds hkeeps⟩
      · obtain ⟨hlt, hword⟩ := h.redirect hB' hr
        exact ⟨hlt, hword.keepsKinds hkeeps⟩
  | @attach parent child hfollow =>
    rw [Grammar.attach]
    split
    · refine h.update parent (fun B => rfl) fun B c hc => ?_
      rcases Catalog.mem_items_put hc with rfl | hold
      · exact Or.inr hfollow
      · exact Or.inl hold
    · exact h
  | callback id callback => exact h.update id (fun B => rfl) fun B c hc => Or.inl hc

theorem keepsKinds_of_steps (hs : ReflTransGen Step g g') : g.KeepsKinds g' := by
  induction hs with
  | refl => exact .refl g
  | tail _ hs ih => exact ih.trans hs.keepsKinds

/-- **What is well-formed remains so in any number of steps.** -/
theorem WellFormed.steps (h : g.WellFormed) (hs : ReflTransGen Step g g') : g'.WellFormed := by
  induction hs with
  | refl => exact h
  | tail _ hs ih => exact hs.wellFormed ih

/-! ## What branches stand for -/

/-- What a branch stands for is the branch itself or a word. -/
theorem WellFormed.targetWithin_cases (h : g.WellFormed) (bound : Nat) (b : BranchId) :
    g.targetWithin bound b = b ∨ g.IsWord (g.targetWithin bound b) := by
  induction bound generalizing b with
  | zero => exact Or.inl rfl
  | succ bound ih =>
    rw [targetWithin]
    split
    · next r hr =>
      obtain ⟨B, hB, hredirect⟩ := Option.bind_eq_some_iff.mp hr
      obtain ⟨-, hword⟩ := h.redirect hB hredirect
      rcases ih r with hself | hother
      · exact Or.inr (by rw [hself]; exact hword)
      · exact Or.inr hother
    · exact Or.inl rfl

theorem WellFormed.target_cases (h : g.WellFormed) (b : BranchId) :
    g.target b = b ∨ g.IsWord (g.target b) :=
  h.targetWithin_cases g.size b

/-- What a branch stands for is found in no more steps than there are branches before it, so it does
not matter how many come behind. -/
theorem WellFormed.targetWithin_eq (h : g.WellFormed) (hk : g.KeepsKinds g') {b : BranchId}
    {B : Branch} (hB : g.branch? b = some B) {m n : Nat} (hm : b < m) (hn : b < n) :
    g'.targetWithin m b = g.targetWithin n b := by
  induction b using Nat.strongRecOn generalizing B m n with
  | ind b ih =>
    obtain ⟨m, rfl⟩ := Nat.exists_eq_add_one_of_ne_zero (Nat.ne_of_gt (Nat.zero_lt_of_lt hm))
    obtain ⟨n, rfl⟩ := Nat.exists_eq_add_one_of_ne_zero (Nat.ne_of_gt (Nat.zero_lt_of_lt hn))
    obtain ⟨B', hB', hkind⟩ := hk b B hB
    rw [targetWithin, targetWithin, hB, hB', Option.bind_some, Option.bind_some,
      redirect?_congr hkind]
    cases hr : B.redirect? with
    | none => rfl
    | some r =>
      obtain ⟨hlt, hword⟩ := h.redirect hB hr
      obtain ⟨R, hR, -⟩ := (Option.any_eq_true _ _).mp hword
      exact ih r hlt hR (Nat.lt_of_lt_of_le hlt (Nat.le_of_lt_succ hm))
        (Nat.lt_of_lt_of_le hlt (Nat.le_of_lt_succ hn))

/-- **A branch stands for the same while kinds are kept.** -/
theorem WellFormed.target_eq (h : g.WellFormed) (hk : g.KeepsKinds g') {b : BranchId} {B : Branch}
    (hB : g.branch? b = some B) : g'.target b = g.target b := by
  obtain ⟨B', hB', -⟩ := hk b B hB
  exact h.targetWithin_eq hk hB (branch?_lt hB') (branch?_lt hB)

/-! ## Building by hand -/

theorem isWord_add_self (g : Grammar) {B : Branch} (h : B.isWord = true) :
    (g.add B).1.IsWord g.size := by
  rw [IsWord, branch?_add_self, Option.any_some, h]

theorem canFollow_add_slot (g : Grammar) {B : Branch} (h : B.isSlot = true) :
    (g.add B).1.CanFollow g.size := by
  rw [CanFollow, branch?_add_self, Option.any_some, h, Bool.or_true]

/-- A branch without branches under it, which redirects to a word if it redirects, is added in one
step. -/
theorem step_add_bare {kind : BranchKind}
    (hredirect : ∀ r, (Branch.bare kind).redirect? = some r → g.IsWord r) :
    Step g (g.add (.bare kind)).1 :=
  .add (fun c hc => by cases hc) hredirect

theorem branchThat_eq_some {asked : Branch → Bool} {a : BranchArgument} {b : BranchId}
    (h : g.branchThat asked a = some b) : a = .branch b ∧ (g.branch? b).any asked = true := by
  cases a with
  | nothing => cases h
  | other => cases h
  | branch id =>
    rw [branchThat] at h
    split at h
    · next hasked =>
      cases h
      exact ⟨rfl, hasked⟩
    · cases h

theorem step_addWord {name : Datum} {redirect : BranchArgument} {b : BranchId}
    (h : g.addWord name redirect = .ok (g', b)) : Step g g' ∧ g'.IsWord b := by
  unfold addWord at h
  cases hname : Name.declare "literal" name with
  | error fault => rw [hname] at h; cases h
  | ok name =>
    rw [hname] at h
    simp only [bind, Except.bind] at h
    split at h
    · cases h
      exact ⟨step_add_bare fun r hr => (by cases hr), isWord_add_self g rfl⟩
    · split at h
      · next target htarget =>
        cases h
        refine ⟨step_add_bare fun r hr => ?_, isWord_add_self g rfl⟩
        cases hr
        exact (branchThat_eq_some htarget).2
      · cases h

theorem step_addSlot {name : Datum} {cls : Option TokenClass} {b : BranchId}
    (h : g.addSlot name cls = .ok (g', b)) : Step g g' := by
  unfold addSlot at h
  cases hname : Name.declare "argument" name with
  | error fault => rw [hname] at h; cases h
  | ok name =>
    rw [hname] at h
    cases cls with
    | none => cases h
    | some cls =>
      cases h
      exact step_add_bare fun r hr => by cases hr

theorem step_attachBranch {parent : BranchId} {child : BranchArgument}
    (h : g.attachBranch parent child = .ok g') : Step g g' := by
  unfold attachBranch at h
  split at h
  · next c hc =>
    cases h
    exact .attach parent (branchThat_eq_some hc).2
  · cases h

theorem step_assignCallback {id : BranchId} {callback : Option Callback}
    (h : g.assignCallback id callback = .ok g') : Step g g' := by
  cases callback with
  | none => cases h
  | some callback =>
    cases h
    exact .callback id callback

/-! ## Compiling -/

section Compiling

variable {f : Forest}

theorem steps_addChain {usage : String} {callback : Callback} {ps : List Parameter} {b : BranchId}
    (h : g.addChain usage callback ps = .ok (g', b)) :
    ReflTransGen Step g g' ∧ g'.CanFollow b := by
  induction ps generalizing g' b with
  | nil => cases h
  | cons p ps ih =>
    cases ps with
    | nil =>
      rw [addChain] at h
      cases h
      exact ⟨.single (.add (fun c hc => by cases hc) fun r hr => by cases hr),
        canFollow_add_slot g rfl⟩
    | cons q rest =>
      obtain ⟨-, g₁, s, hs, hadd⟩ := addChain_cons_cons h
      obtain ⟨hsteps, hfollow⟩ := ih hs
      cases hadd
      refine ⟨hsteps.tail (.add (fun c hc => ?_) fun r hr => by cases hr),
        canFollow_add_slot g₁ rfl⟩
      rcases Catalog.mem_items_put hc with rfl | hnone
      · exact hfollow
      · cases hnone

theorem steps_addAliases (aliases : List (Name × BranchId)) (words : Catalog BranchId)
    (hwords : ∀ c ∈ words.items, g.CanFollow c) (haliases : ∀ entry ∈ aliases, g.IsWord entry.2) :
    ReflTransGen Step g (g.addAliases words aliases).1 ∧
      ∀ c ∈ (g.addAliases words aliases).2.items, (g.addAliases words aliases).1.CanFollow c := by
  induction aliases generalizing g words with
  | nil => exact ⟨.refl, hwords⟩
  | cons entry rest ih =>
    obtain ⟨a, target⟩ := entry
    obtain ⟨htarget, hrest⟩ := List.forall_mem_cons.mp haliases
    have hstep : Step g (g.add (.bare (.word a (some target)))).1 :=
      step_add_bare fun r hr => by
        cases hr
        exact htarget
    have hadded := (isWord_add_self g (rfl : (Branch.bare (.word a (some target))).isWord = true))
    rw [addAliases]
    obtain ⟨hsteps, hfollow⟩ := ih (words.put a.key g.size)
      (fun c hc => by
        rcases Catalog.mem_items_put hc with rfl | hold
        · exact hadded.canFollow
        · exact (hwords c hold).keepsKinds hstep.keepsKinds)
      (fun e he => (hrest e he).keepsKinds hstep.keepsKinds)
    exact ⟨.head hstep hsteps, hfollow⟩

theorem steps_addNode {n : NodeId} {N : Node} {compiled : List CompiledChild} {w : BranchId}
    (hcompiled : ∀ child ∈ compiled, g.IsWord child.word)
    (h : g.addNode f n N compiled = .ok (g', w)) : ReflTransGen Step g g' ∧ g'.IsWord w := by
  have hwords : ∀ c ∈ (childWords compiled).items, g.CanFollow c := by
    intro c hc
    obtain ⟨entry, hentry, rfl⟩ := Catalog.mem_items_ofList hc
    obtain ⟨child, hchild, rfl⟩ := List.mem_map.mp hentry
    exact (hcompiled child hchild).canFollow
  have haliases : ∀ entry ∈ aliasesOf N.children.keys compiled, g.IsWord entry.2 := by
    intro entry hentry
    obtain ⟨child, hchild, hmem⟩ := List.mem_flatMap.mp hentry
    obtain ⟨a, -, rfl⟩ := List.mem_map.mp hmem
    exact hcompiled child hchild
  obtain ⟨hsteps, hfollow⟩ := steps_addAliases _ _ hwords haliases
  obtain ⟨g₁, words, hr, hcases⟩ := addNode_cases h
  rw [hr] at hsteps hfollow
  rcases hcases with ⟨-, rfl, rfl⟩ | ⟨p, ps, g₂, s, -, -, hchain, rfl, rfl⟩
  · exact ⟨hsteps.tail (.add hfollow fun r hr => by cases hr), isWord_add_self g₁ rfl⟩
  · obtain ⟨hsteps', hslot⟩ := steps_addChain hchain
    refine ⟨(hsteps.trans hsteps').tail (.add (fun c hc => ?_) fun r hr => by cases hr),
      isWord_add_self g₂ rfl⟩
    rcases Catalog.mem_items_put hc with rfl | hold
    · exact hslot
    · exact (hfollow c hold).keepsKinds (keepsKinds_of_steps hsteps')

mutual

/-- **Compiling a tree is a sequence of steps**, and gives a word. -/
theorem steps_addTree :
    ∀ (t : Tree) {g g' : Grammar} {w : BranchId}, addTree f g t = .ok (g', w) →
      ReflTransGen Step g g' ∧ g'.IsWord w
  | .branch id node children, g, g', w, h => by
    obtain ⟨g₁, compiled, hts, hadd⟩ := addTree_eq_ok h
    obtain ⟨hsteps, hcompiled⟩ := steps_addTrees children hts
    obtain ⟨hsteps', hword⟩ := steps_addNode hcompiled hadd
    exact ⟨hsteps.trans hsteps', hword⟩

theorem steps_addTrees :
    ∀ (ts : List Tree) {g g' : Grammar} {compiled : List CompiledChild},
      addTrees f g ts = .ok (g', compiled) →
        ReflTransGen Step g g' ∧ ∀ child ∈ compiled, g'.IsWord child.word
  | [], g, g', compiled, h => by
    rw [addTrees] at h
    cases h
    exact ⟨.refl, fun child hchild => by cases hchild⟩
  | t :: ts, g, g', compiled, h => by
    obtain ⟨g₁, w, rest, ht, hts, rfl⟩ := addTrees_cons_eq_ok h
    obtain ⟨hsteps, hword⟩ := steps_addTree t ht
    obtain ⟨hsteps', hrest⟩ := steps_addTrees ts hts
    exact ⟨hsteps.trans hsteps',
      List.forall_mem_cons.mpr ⟨hword.keepsKinds (keepsKinds_of_steps hsteps'), hrest⟩⟩

end

theorem steps_addSubtree {id : NodeId} {b : BranchId} (h : g.addSubtree f id = .ok (g', b)) :
    ReflTransGen Step g g' := by
  unfold addSubtree at h
  split at h
  · next t _ => exact (steps_addTree t h).1
  · cases h

theorem steps_addParameters {id : NodeId} {b : BranchId}
    (h : g.addParameters f id = .ok (g', b)) : ReflTransGen Step g g' := by
  unfold addParameters at h
  cases hn : f.nodeAt id with
  | error fault => rw [hn] at h; cases h
  | ok n =>
    rw [hn] at h
    exact (steps_addChain h).1

theorem steps_compile {id : Option NodeId} {refusal : UseFault} {f' : Forest} {word : BranchId}
    (h : g.compile f id refusal = .ok (g', f', word)) : ReflTransGen Step g g' := by
  cases id with
  | none => cases h
  | some root =>
    obtain ⟨-, hadd, -⟩ := compile_eq_ok_iff.mp h
    exact steps_addSubtree hadd

end Compiling

end Grammar

/-! ## Mounting -/

namespace Registrar

open Grammar

theorem steps_mountAliases (start word : BranchId) (items : List Datum) (g : Grammar) :
    ReflTransGen Step g (mountAliases g start word items).1 := by
  induction items generalizing g with
  | nil => exact .refl
  | cons a rest ih =>
    rw [mountAliases]
    cases hadd : g.addWord a (.branch word) with
    | error fault => exact .refl
    | ok added =>
      obtain ⟨g₁, b⟩ := added
      obtain ⟨hstep, hword⟩ := step_addWord hadd
      exact .head hstep (.head (.attach start hword.canFollow) (ih _))

/-- **Mounting a word is a sequence of steps.** -/
theorem steps_mount (g : Grammar) (r : Registrar) (word : BranchArgument)
    (description aliases : Datum) :
    ReflTransGen Step g (mount g r word description aliases).1 := by
  rw [mount]
  split
  · exact .refl
  · next word hword =>
    have hattach : Step g (g.attach r.start word) :=
      .attach r.start (IsWord.canFollow (branchThat_eq_some hword).2)
    dsimp only
    split
    · exact .single hattach
    · next items _ => exact .head hattach (steps_mountAliases r.start word items _)

theorem start_mount (g : Grammar) (r : Registrar) (word : BranchArgument)
    (description aliases : Datum) : (mount g r word description aliases).2.1.start = r.start := by
  rw [mount]
  split
  · rfl
  · dsimp only
    split <;> rfl

end Registrar

end CommandTree
