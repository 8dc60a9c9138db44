import CommandTree.Proofs.Grammar.Walk
import Mathlib.Data.List.Forall2

/-!
# Searches that go alike

Two searches go alike where the same is tried, where what is tried reads the same, and where the
same is called at the end. Then they come to the same: they are broken off in the same way, or their
attempts differ in no more than the searches did when they set out, in how far they had come and in
the branches behind them. The searches may be of two grammars, or of one and set out from two
branches.

* `Mirrors.better`: of attempts that mirror each other, so do the better ones
* `Alike.walk`: searches that set out alike come to the same
* `parse_of_alike`: an input that is searched alike is read alike
-/

namespace CommandTree

/-! ## Runs that fail alike -/

/-- Whether two runs fail in the same way, or come to results that are related. -/
inductive EndAlike {ε α β : Type} (R : α → β → Prop) : Except ε α → Except ε β → Prop
  | ok {a : α} {b : β} (h : R a b) : EndAlike R (.ok a) (.ok b)
  | error (e : ε) : EndAlike R (.error e) (.error e)

section EndAlike

variable {ε α β γ δ : Type} {R : α → β → Prop} {S : γ → δ → Prop}

theorem EndAlike.map {x : Except ε α} {y : Except ε β} (h : EndAlike R x y) {f : α → γ}
    {f' : β → δ} (hf : ∀ a b, R a b → S (f a) (f' b)) : EndAlike S (x.map f) (y.map f') := by
  cases h with
  | ok h => exact .ok (hf _ _ h)
  | error e => exact .error e

theorem endAlike_mapM {f : γ → Except ε α} {f' : γ → Except ε β} {xs : List γ}
    (h : ∀ x ∈ xs, EndAlike R (f x) (f' x)) :
    EndAlike (List.Forall₂ R) (xs.mapM f) (xs.mapM f') := by
  induction xs with
  | nil => exact .ok .nil
  | cons x xs ih =>
    obtain ⟨hx, hxs⟩ := List.forall_mem_cons.mp h
    have hrest := ih hxs
    rw [List.mapM_cons, List.mapM_cons]
    generalize f x = y at hx ⊢
    generalize f' x = y' at hx ⊢
    generalize xs.mapM f = ys at hrest ⊢
    generalize xs.mapM f' = ys' at hrest ⊢
    cases hx with
    | error e => exact .error e
    | ok hfirst =>
      cases hrest with
      | error e => exact .error e
      | ok hrest => exact .ok (.cons hfirst hrest)

end EndAlike

namespace Grammar

/-! ## Attempts that mirror each other -/

/-- Whether two attempts differ only in how far they had come at some place, and in the branches
that they had behind them there. Behind that place both have gone through the same branches. -/
structure Mirrors (P : BranchId → Prop) (behind behind' : List BranchId) (offset offset' : Nat)
    (a a' : Attempt) : Prop where
  ahead : a'.spot.ahead = a.spot.ahead
  offset : a'.spot.offset + offset = a.spot.offset + offset'
  complaint : a'.complaint = a.complaint
  arguments : a'.trail.arguments = a.trail.arguments
  branches : ∃ onward, (∀ c ∈ onward, P c) ∧ a.trail.branches = behind ++ onward ∧
    a'.trail.branches = behind' ++ onward

/-- Whether two grammars look the same from branches of a kind, none of which leads to another
one. -/
structure Alike (g g' : Grammar) (P : BranchId → Prop) : Prop where
  eligible : ∀ {b}, P b → ∀ w, g'.eligible b w = g.eligible b w
  closed : ∀ {b w c}, P b → c ∈ g.eligible b w → P c
  kind : ∀ {b}, P b → (g'.branch? b).map Branch.kind = (g.branch? b).map Branch.kind
  callback : ∀ {b}, P b → g'.callbackOf b = g.callbackOf b

variable {g g' : Grammar} {P : BranchId → Prop} {behind behind' : List BranchId}
  {offset offset' : Nat} {a a' b b' : Attempt}

/-- A grammar looks like itself. -/
theorem Alike.refl (g : Grammar) : g.Alike g fun _ => True where
  eligible := fun _ _ => rfl
  closed := fun _ _ => trivial
  kind := fun _ => rfl
  callback := fun _ => rfl

theorem Mirrors.refl (a : Attempt) (ha : ∀ c ∈ a.trail.branches, P c) :
    Mirrors P [] [] 0 0 a a where
  ahead := rfl
  offset := rfl
  complaint := rfl
  arguments := rfl
  branches := ⟨a.trail.branches, ha, rfl, rfl⟩

/-- Attempts that set out as one are one. -/
theorem Mirrors.eq (h : Mirrors P [] [] 0 0 a a') : a' = a := by
  obtain ⟨⟨offset, ahead⟩, ⟨arguments, branches⟩, complaint⟩ := a
  obtain ⟨⟨offset', ahead'⟩, ⟨arguments', branches'⟩, complaint'⟩ := a'
  obtain ⟨hahead, hoffset, hcomplaint, harguments, onward, -, hbranches, hbranches'⟩ := h
  simp only [Nat.add_zero] at hahead hoffset hcomplaint harguments hbranches hbranches'
  rw [hahead, hoffset, hcomplaint, harguments, hbranches, hbranches']

section Mirrors

variable (hg : g.Alike g' P)
  (hbehind : behind'.getLast?.bind g'.callbackOf = behind.getLast?.bind g.callbackOf)
include hg hbehind

/-- The same is called at the end of attempts that mirror each other. -/
theorem Mirrors.calledAt (h : Mirrors P behind behind' offset offset' a a') :
    g'.calledAt a' = g.calledAt a := by
  obtain ⟨onward, honward, hbranches, hbranches'⟩ := h.branches
  rw [Grammar.calledAt, Grammar.calledAt, hbranches, hbranches']
  rcases List.eq_nil_or_concat' onward with rfl | ⟨before, c, rfl⟩
  · rw [List.append_nil, List.append_nil, hbehind]
  · have hc : P c := honward c (List.mem_append_right _ (List.mem_singleton_self c))
    rw [← List.append_assoc, ← List.append_assoc, List.getLast?_concat, List.getLast?_concat,
      Option.bind_some, Option.bind_some, hg.callback hc]

theorem Mirrors.succeeds (h : Mirrors P behind behind' offset offset' a a') :
    g'.succeeds a' = g.succeeds a := by
  have hcall := h.calledAt hg hbehind
  unfold Grammar.calledAt at hcall
  rw [Grammar.succeeds, Grammar.succeeds, h.complaint, h.ahead, hcall]

/-- **Of attempts that mirror each other, so do the better ones.** -/
theorem Mirrors.better (ha : Mirrors P behind behind' offset offset' a a')
    (hb : Mirrors P behind behind' offset offset' b b') :
    Mirrors P behind behind' offset offset' (g.better a b) (g'.better a' b') := by
  have hfarther : a'.spot.offset < b'.spot.offset ↔ a.spot.offset < b.spot.offset := by
    have hoffset := ha.offset
    have hoffset' := hb.offset
    omega
  have hbetter : g'.isBetter a' b' = g.isBetter a b := by
    rw [isBetter, isBetter, ha.succeeds hg hbehind, hb.succeeds hg hbehind]
    simp only [hfarther]
  rw [Grammar.better, Grammar.better, hbetter]
  split
  · exact hb
  · exact ha

/-- So do the best of them. -/
theorem Mirrors.best (h : Mirrors P behind behind' offset offset' a a') {as as' : List Attempt}
    (hall : List.Forall₂ (Mirrors P behind behind' offset offset') as as') :
    Mirrors P behind behind' offset offset' ((g.best? as).getD a) ((g'.best? as').getD a') := by
  cases hall with
  | nil => exact h
  | cons hfirst hrest =>
    show Mirrors P behind behind' offset offset' (List.foldl g.better _ _)
      (List.foldl g'.better _ _)
    clear h
    rename_i first first' rest rest'
    induction hrest generalizing first first' with
    | nil => exact hfirst
    | cons hnext _ ih => exact ih (hfirst.better hg hbehind hnext)

end Mirrors

/-! ## Searches that go alike -/

theorem readToken_congr {B B' : Branch} (h : B'.kind = B.kind) (cs : List Char) :
    readToken B' cs = readToken B cs := by
  unfold readToken
  rw [h]

variable {spot spot' : Spot} {trail trail' : Trail} {c c' : BranchId}

/-- Attempts mirror each other behind a token of the same length as they did before it. -/
theorem Mirrors.after
    (h : Mirrors P behind behind' offset offset' ⟨spot, trail, none⟩ ⟨spot', trail', none⟩)
    (count : Nat) :
    Mirrors P behind behind' offset offset' ⟨spot.after count, trail, none⟩
      ⟨spot'.after count, trail', none⟩ where
  ahead := congrArg (List.drop count) h.ahead
  offset := by
    have hoffset := h.offset
    simp only [Spot.after] at hoffset ⊢
    omega
  complaint := rfl
  arguments := h.arguments
  branches := h.branches

theorem Mirrors.extended
    (h : Mirrors P behind behind' offset offset' ⟨spot, trail, none⟩ ⟨spot', trail', none⟩)
    (hc : P c) (argument : Option (String × ParsedArgument)) :
    Mirrors P behind behind' offset offset' ⟨spot, extended trail c argument, none⟩
      ⟨spot', extended trail' c argument, none⟩ where
  ahead := h.ahead
  offset := h.offset
  complaint := rfl
  arguments := by
    have harguments : trail'.arguments = trail.arguments := h.arguments
    cases argument with
    | none => exact harguments
    | some read => exact congrArg (fun kept => kept.put read.1 read.2) harguments
  branches := by
    obtain ⟨onward, honward, hbranches, hbranches'⟩ := h.branches
    refine ⟨onward ++ [c], ?_, ?_, ?_⟩
    · intro x hx
      rcases List.mem_append.mp hx with hx | hx
      · exact honward x hx
      · exact List.mem_singleton.mp hx ▸ hc
    · exact (congrArg (· ++ [c]) hbranches).trans (List.append_assoc ..)
    · exact (congrArg (· ++ [c]) hbranches').trans (List.append_assoc ..)

/-- Searches go on alike behind a token if they go on alike behind the separator. -/
theorem Mirrors.resume
    (h : Mirrors P behind behind' offset offset' ⟨spot, trail, none⟩ ⟨spot', trail', none⟩)
    (hwalk : 2 ≤ spot.ahead.length → EndAlike (Mirrors P behind behind' offset offset')
      (g.walk c (spot.after 1) trail) (g'.walk c' (spot'.after 1) trail')) :
    EndAlike (Mirrors P behind behind' offset offset') (g.resume c spot trail)
      (g'.resume c' spot' trail') := by
  have hahead : spot'.ahead = spot.ahead := h.ahead
  unfold Grammar.resume
  rw [hahead]
  by_cases hlong : 2 ≤ spot.ahead.length
  · rw [if_pos hlong, if_pos hlong]
    exact hwalk hlong
  · rw [if_neg hlong, if_neg hlong]
    exact .ok h

/-- Attempts at a branch go alike if the searches behind its token do. -/
theorem Alike.attempt (hg : g.Alike g' P) (hc : P c)
    (h : Mirrors P behind behind' offset offset' ⟨spot, trail, none⟩ ⟨spot', trail', none⟩)
    (hwalk : ∀ (count : Nat) (argument : Option (String × ParsedArgument)),
      2 ≤ (spot.after count).ahead.length → EndAlike (Mirrors P behind behind' offset offset')
        (g.walk c ((spot.after count).after 1) (extended trail c argument))
        (g'.walk c ((spot'.after count).after 1) (extended trail' c argument))) :
    EndAlike (Mirrors P behind behind' offset offset') (g.attempt spot trail c)
      (g'.attempt spot' trail' c) := by
  have hahead : spot'.ahead = spot.ahead := h.ahead
  have hkind := hg.kind hc
  unfold Grammar.attempt
  cases hB : g.branch? c with
  | none =>
    rw [hB, Option.map_none, Option.map_eq_none_iff] at hkind
    rw [hkind]
    exact .ok h
  | some B =>
    rw [hB, Option.map_some, Option.map_eq_some_iff] at hkind
    obtain ⟨B', hB', hsame⟩ := hkind
    rw [hB']
    dsimp only
    rw [readToken_congr hsame, hahead]
    cases readToken B spot.ahead with
    | error fault =>
      cases fault with
      | complaint k => exact .ok ⟨h.ahead, h.offset, rfl, h.arguments, h.branches⟩
      | datum fault => exact .error _
    | ok read =>
      obtain ⟨token, argument⟩ := read
      exact ((h.after token.length).extended hc argument).resume (hwalk token.length argument)

/-- **Searches that set out alike come to the same.** -/
theorem Alike.walk (hg : g.Alike g' P)
    (hbehind : behind'.getLast?.bind g'.callbackOf = behind.getLast?.bind g.callbackOf)
    (hel : g'.eligible c' spot.word = g.eligible c spot.word)
    (hclosed : ∀ x ∈ g.eligible c spot.word, P x)
    (h : Mirrors P behind behind' offset offset' ⟨spot, trail, none⟩ ⟨spot', trail', none⟩) :
    EndAlike (Mirrors P behind behind' offset offset') (g.walk c spot trail)
      (g'.walk c' spot' trail') := by
  -- behind a token less is ahead, and from there on both searches are at the same branch
  induction hlen : spot.ahead.length using Nat.strongRecOn
    generalizing c c' spot spot' trail trail' with
  | ind len ih =>
    have hword : spot'.word = spot.word := congrArg (fun cs => String.ofList (firstWord cs)) h.ahead
    rw [walk_eq, walk_eq, hword, hel]
    refine (endAlike_mapM fun x hx => ?_).map fun _ _ hall => h.best hg hbehind hall
    have hx' : P x := hclosed x hx
    refine hg.attempt hx' h fun count argument hlong => ?_
    have hshort : ((spot.after count).after 1).ahead.length < len := by
      simp only [Spot.after, List.length_drop] at hlong ⊢
      omega
    exact ih _ hshort (hg.eligible hx' _) (fun y hy => hg.closed hx' hy)
      (((h.after count).after 1).extended hx' argument) rfl

/-! ## Inputs that are read alike -/

/-- **An input that is searched alike from the start on is read alike.** -/
theorem parse_of_alike (hg : g.Alike g' P) {start start' : BranchId} {s : String}
    (hel : ∀ spot : Spot, spot.ahead = withoutSlash s.toList →
      g'.eligible start' spot.word = g.eligible start spot.word ∧
        ∀ x ∈ g.eligible start spot.word, P x)
    (source : Option Sender) : g'.parse start' source s = g.parse start source s := by
  obtain ⟨hsame, hclosed⟩ := hel ⟨0, withoutSlash s.toList⟩ rfl
  have hwalk := hg.walk (rfl : ([] : List BranchId).getLast?.bind g'.callbackOf = none) hsame
    hclosed (Mirrors.refl ⟨⟨0, withoutSlash s.toList⟩, .empty, none⟩ fun c hc => by cases hc)
  unfold parse
  dsimp only
  generalize g.walk start ⟨0, withoutSlash s.toList⟩ .empty = found at hwalk ⊢
  generalize g'.walk start' ⟨0, withoutSlash s.toList⟩ .empty = found' at hwalk ⊢
  cases hwalk with
  | error fault => rfl
  | @ok a a' hmirrors =>
    have hsucceeds := hmirrors.succeeds hg rfl
    have hcall := hmirrors.calledAt hg rfl
    cases hmirrors.eq
    unfold calledAt at hcall
    simp only [bind, Except.bind, hsucceeds, hcall]

end Grammar

end CommandTree
