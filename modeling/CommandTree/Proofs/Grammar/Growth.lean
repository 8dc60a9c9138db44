import CommandTree.Grammar.Basic

/-!
# Grammars that grow

Building a grammar adds branches and leaves alone what was built from some place on. What is known
about a branch of that part stays true while the grammar grows.

* `Kept.trans`, `Grows.trans`: growth is composed of steps
* `grows_add`, `grows_attach`: one branch is added, or attached under an earlier one
* `target_of_redirect`: a redirecting word stands for the word that it redirects to
-/

namespace CommandTree.Grammar

variable {made : BranchId} {g g₁ g₂ g₃ : Grammar}

/-- Whether the branches from a place on have been left as they were. -/
structure Kept (made : BranchId) (g g' : Grammar) : Prop where
  size : g.size ≤ g'.size
  branch : ∀ {b B}, made ≤ b → g.branch? b = some B → g'.branch? b = some B

/-- Whether, beside that, no words have been added but redirecting ones. -/
structure Grows (made : BranchId) (g g' : Grammar) : Prop extends Kept made g g' where
  word : ∀ {b B name}, made ≤ b → g'.branch? b = some B → B.kind = .word name none →
    g.branch? b = some B

theorem Kept.refl (made : BranchId) (g : Grammar) : Kept made g g := ⟨Nat.le_refl _, fun _ h => h⟩

theorem Kept.trans (h₁ : Kept made g₁ g₂) (h₂ : Kept made g₂ g₃) : Kept made g₁ g₃ where
  size := Nat.le_trans h₁.size h₂.size
  branch := fun hm hb => h₂.branch hm (h₁.branch hm hb)

theorem Grows.refl (made : BranchId) (g : Grammar) : Grows made g g :=
  ⟨Kept.refl made g, fun _ h _ => h⟩

theorem Grows.trans (h₁ : Grows made g₁ g₂) (h₂ : Grows made g₂ g₃) : Grows made g₁ g₃ where
  toKept := h₁.toKept.trans h₂.toKept
  word := fun hm hb hk => h₁.word hm (h₂.word hm hb hk) hk

/-! ## Steps of growth -/

theorem branch?_lt {b : BranchId} {B : Branch} (h : g.branch? b = some B) : b < g.size :=
  (List.getElem?_eq_some_iff.mp h).1

theorem branch?_add_self (g : Grammar) (B : Branch) : (g.add B).1.branch? g.size = some B := by
  rw [branch?_add, if_pos rfl]

theorem branch?_add_of_some {b : BranchId} {B : Branch} (h : g.branch? b = some B) (B' : Branch) :
    (g.add B').1.branch? b = some B := by
  rw [branch?_add, if_neg (Nat.ne_of_lt (branch?_lt h)), h]

theorem size_add (g : Grammar) (B : Branch) : (g.add B).1.size = g.size + 1 := by
  simp [add, size]

theorem kept_add (made : BranchId) (g : Grammar) (B : Branch) : Kept made g (g.add B).1 where
  size := by rw [size_add]; exact Nat.le_succ _
  branch := fun _ hb => branch?_add_of_some hb B

/-- What is added is no plain word. -/
theorem grows_add (made : BranchId) (g : Grammar) {B : Branch}
    (h : ∀ name, B.kind ≠ .word name none) : Grows made g (g.add B).1 where
  toKept := kept_add made g B
  word := by
    intro b B' name _ hb hk
    rw [branch?_add] at hb
    split at hb
    · cases hb
      exact absurd hk (h name)
    · exact hb

theorem size_update (g : Grammar) (id : BranchId) (change : Branch → Branch) :
    (g.update id change).size = g.size := by
  simp [update, size]

theorem size_attach (g : Grammar) (parent child : BranchId) :
    (g.attach parent child).size = g.size := by
  unfold attach
  split
  · exact size_update ..
  · rfl

/-- What is attached under an earlier branch does not change the later ones. -/
theorem grows_attach (g : Grammar) {parent : BranchId} (h : parent < made) (child : BranchId) :
    Grows made g (g.attach parent child) := by
  have hsame : ∀ {b}, made ≤ b → (g.attach parent child).branch? b = g.branch? b := fun hm =>
    branch?_attach (Nat.ne_of_lt (Nat.lt_of_lt_of_le h hm)) child
  refine ⟨⟨Nat.le_of_eq (size_attach ..).symm, fun hm hb => ?_⟩, fun hm hb _ => ?_⟩
  · rw [hsame hm, hb]
  · rw [← hsame hm, hb]

/-! ## What branches stand for -/

theorem targetWithin_of_redirect?_none {b : BranchId} {B : Branch} (hb : g.branch? b = some B)
    (hr : B.redirect? = none) (bound : Nat) : g.targetWithin bound b = b := by
  cases bound with
  | zero => rfl
  | succ bound => rw [targetWithin, hb, Option.bind_some, hr]

theorem target_of_redirect?_none {b : BranchId} {B : Branch} (hb : g.branch? b = some B)
    (hr : B.redirect? = none) : g.target b = b :=
  targetWithin_of_redirect?_none hb hr _

/-- A redirecting word stands for the word that it redirects to, if that redirects no further. -/
theorem target_of_redirect {b c : BranchId} {B C : Branch} (hc : g.branch? c = some C)
    (hr : C.redirect? = some b) (hb : g.branch? b = some B) (hn : B.redirect? = none) :
    g.target c = b := by
  have hpos : 0 < g.size := Nat.lt_of_le_of_lt (Nat.zero_le _) (branch?_lt hc)
  rw [target, show g.size = (g.size - 1) + 1 by omega, targetWithin, hc, Option.bind_some, hr]
  exact targetWithin_of_redirect?_none hb hn _

end CommandTree.Grammar
