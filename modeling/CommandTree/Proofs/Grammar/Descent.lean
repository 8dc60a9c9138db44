import CommandTree.Proofs.Grammar.Walk

/-!
# Reading from the word of a node on

From the word of a node, an input is read by words as long as they are words of the grammar, and
then by the slots of the node that the words lead to. A reading says what was read as what; the
search succeeds exactly if there is one, and there is never more than one.

* `ChildrenFor.eligible_word`, `ChildrenFor.eligible_slot`: what is tried under the word of a node
* `fitsFrom_of_resume`, `resume_of_fitsFrom`: the search succeeds exactly on readings
* `fitsFrom_unique`: an input has one reading
-/

namespace CommandTree

open Text

/-- What the texts of an input are read as: words, the node that they lead to, and arguments. -/
structure Reading where
  words : List String
  node : NodeId
  arguments : List ParsedArgument
deriving DecidableEq

namespace Reading

/-- The texts that are read. -/
def texts (r : Reading) : List String := r.words ++ r.arguments.map ParsedArgument.raw

end Reading

namespace Grammar

/-- Whether words lead from a branch to another one, each to a word under the one before. A
redirecting word counts as the word that it redirects to. -/
def Leads (g : Grammar) : BranchId → List String → BranchId → Prop
  | b, [], c => b = c
  | b, w :: ws, c => ∃ child, g.HasWord b w child ∧ Leads g (g.target child) ws c

variable {g : Grammar} {f : Forest} {made : BranchId}

/-! ## What is tried under the word of a node -/

theorem ChildrenFor.eligible_word {n : NodeId} {parameters : List Parameter} {b c : BranchId}
    (h : g.ChildrenFor f made n parameters (g.childrenOf b)) {word : String}
    (hc : g.HasWord b word c) : g.eligible b word = [c] := by
  have hword : ((g.childrenOf b).items.filter fun c => (g.branch? c).any (·.matchesWord word))
      = [c] := by
    obtain ⟨hget, -⟩ := h.hasWord_iff.mp hc
    rw [Catalog.filter_items_eq fun key item hkey hw => (h.key_of_matchesWord hkey hw).1, hget,
      Option.filter_some, if_pos hc.2]
    rfl
  rw [eligible]
  simp only [hword, List.isEmpty_cons, Bool.false_eq_true, if_false]

/-- A slot stands under the key of the first parameter. -/
theorem ChildrenFor.key_of_isSlot {n : NodeId} {parameters : List Parameter}
    {children : Catalog BranchId} (h : g.ChildrenFor f made n parameters children) {key : String}
    {c : BranchId} (hc : children.get? key = some c)
    (hs : (g.branch? c).any Branch.isSlot = true) : ∃ p ps, parameters = p :: ps ∧ key = p.key := by
  by_contra hno
  have hne : ∀ p ps, parameters = p :: ps → key ≠ p.key := fun p ps hp he => hno ⟨p, ps, hp, he⟩
  by_cases hnone : f.answering n key = []
  · rw [h.other hnone hne] at hc
    cases hc
  · obtain ⟨m, hm⟩ := Option.isSome_iff_exists.mp (List.getLast?_isSome.mpr hnone)
    obtain ⟨b, ⟨c', C, name, redirect, hget, -, hC, hk, -⟩, -⟩ := h.answered hm
    rw [hget] at hc
    cases hc
    rw [hC, Option.any_some, Branch.isSlot, hk] at hs
    cases hs

theorem ChildrenFor.eligible_nil {n : NodeId} {b : BranchId}
    (h : g.ChildrenFor f made n [] (g.childrenOf b)) {word : String}
    (hno : ∀ c, ¬ g.HasWord b word c) : g.eligible b word = [] := by
  rw [eligible_of_no_word hno, List.filter_eq_nil_iff]
  intro c hc hs
  obtain ⟨key, hkey⟩ := Catalog.mem_items_iff_get?.mp hc
  obtain ⟨p, ps, hp, -⟩ := h.key_of_isSlot hkey hs
  cases hp

theorem ChildrenFor.eligible_slot {n : NodeId} {p : Parameter} {ps : List Parameter} {b : BranchId}
    (h : g.ChildrenFor f made n (p :: ps) (g.childrenOf b)) :
    ∃ s, g.IsChain made (f.runnerOf n) (p :: ps) s ∧
      ∀ word, (∀ c, ¬ g.HasWord b word c) → g.eligible b word = [s] := by
  obtain ⟨-, s, hget, hchain⟩ := h.slot rfl
  obtain ⟨B, hB, hslot⟩ := hchain.isSlot
  have hs : (g.branch? s).any Branch.isSlot = true := by
    rw [hB]
    exact hslot
  refine ⟨s, hchain, fun word hno => ?_⟩
  have hkey : ∀ key item, (g.childrenOf b).get? key = some item →
      (g.branch? item).any Branch.isSlot = true → key = p.key := by
    intro key item hitem hslot
    obtain ⟨q, qs, hq, rfl⟩ := h.key_of_isSlot hitem hslot
    cases hq
    rfl
  rw [eligible_of_no_word hno, Catalog.filter_items_eq hkey, hget, Option.filter_some, if_pos hs]
  rfl

/-! ## Words that stand for others -/

theorem childrenOf_congr {b c : BranchId} (h : g.target c = g.target b) :
    g.childrenOf c = g.childrenOf b := by
  rw [childrenOf, childrenOf, h]

theorem callbackOf_congr {b c : BranchId} (h : g.target c = g.target b) :
    g.callbackOf c = g.callbackOf b := by
  rw [callbackOf, callbackOf, h]

theorem hasWord_congr {b c : BranchId} (h : g.target c = g.target b) {word : String}
    {child : BranchId} : g.HasWord c word child ↔ g.HasWord b word child := by
  rw [HasWord, HasWord, childrenOf_congr h]

end Grammar

/-! ## Readings -/

/-- Whether a reading holds from the word of a node on: its words lead to the word of its node, and
its arguments fill the first parameters of the node, the first of them being none of the words
there. -/
def Reading.FitsFrom (r : Reading) (g : Grammar) (f : Forest) (made b : BranchId) : Prop :=
  ∃ c N, (∀ w ∈ r.words, ' ' ∉ w.toList) ∧ g.Leads b r.words c ∧ g.IsWordOf f made r.node c ∧
    f.node? r.node = some N ∧ Filled N.parameters.items r.arguments ∧
    ∀ x xs, r.arguments = x :: xs →
      ∀ child, ¬ g.HasWord c (String.ofList (firstWord x.raw.toList)) child

namespace Reading

variable {g : Grammar} {f : Forest} {made b : BranchId} {m : NodeId} {args : List ParsedArgument}

theorem texts_cons (w : String) (ws : List String) (m : NodeId) (args : List ParsedArgument) :
    texts ⟨w :: ws, m, args⟩ = w :: texts ⟨ws, m, args⟩ := rfl

/-- A reading without words is one of the node itself. -/
theorem fitsFrom_nil_iff :
    FitsFrom ⟨[], m, args⟩ g f made b ↔
      g.IsWordOf f made m b ∧ ∃ N, f.node? m = some N ∧ Filled N.parameters.items args ∧
        ∀ x xs, args = x :: xs →
          ∀ child, ¬ g.HasWord b (String.ofList (firstWord x.raw.toList)) child := by
  constructor
  · rintro ⟨c, N, -, rfl, hm, hrest⟩
    exact ⟨hm, N, hrest⟩
  · rintro ⟨hm, N, hrest⟩
    exact ⟨b, N, fun _ => List.not_mem_nil.elim, rfl, hm, hrest⟩

/-- A reading that begins with a word goes on from what that word stands for. -/
theorem fitsFrom_cons_iff {w : String} {ws : List String} :
    FitsFrom ⟨w :: ws, m, args⟩ g f made b ↔
      ' ' ∉ w.toList ∧ ∃ child, g.HasWord b w child ∧
        FitsFrom ⟨ws, m, args⟩ g f made (g.target child) := by
  constructor
  · rintro ⟨c, N, hspace, ⟨child, hchild, hleads⟩, hrest⟩
    obtain ⟨hw, hws⟩ := List.forall_mem_cons.mp hspace
    exact ⟨hw, child, hchild, c, N, hws, hleads, hrest⟩
  · rintro ⟨hw, child, hchild, c, N, hws, hleads, hrest⟩
    exact ⟨c, N, List.forall_mem_cons.mpr ⟨hw, hws⟩, ⟨child, hchild, hleads⟩, hrest⟩

theorem FitsFrom.filled {r : Reading} (h : r.FitsFrom g f made b) {N : Node}
    (hN : f.node? r.node = some N) : Filled N.parameters.items r.arguments := by
  obtain ⟨c, N', -, -, -, hN', hfilled, -⟩ := h
  rw [hN] at hN'
  cases hN'
  exact hfilled

end Reading

namespace Grammar

variable {g : Grammar} {f : Forest} {made : BranchId}

theorem HasWord.ne_empty {b c : BranchId} {word : String} (h : g.HasWord b word c) :
    word ≠ "" := by
  obtain ⟨B, -, hmatch⟩ := (Option.any_eq_true _ _).mp h.2
  cases hk : B.kind with
  | start => rw [Branch.matchesWord, hk] at hmatch; cases hmatch
  | slot name cls => rw [Branch.matchesWord, hk] at hmatch; cases hmatch
  | word name redirect =>
    rw [Branch.matchesWord, hk] at hmatch
    exact ne_empty_of_sameWord hmatch

/-- Where a word is next that alone is tried, the search goes on from the branch of that word. -/
theorem walk_of_hasWord {b c : BranchId} {spot : Spot} (hel : g.eligible b spot.word = [c])
    (h : g.HasWord b spot.word c) (trail : Trail) :
    g.walk b spot trail
      = g.resume c (spot.after (firstWord spot.ahead).length) (extended trail c none) := by
  obtain ⟨B, hB, hmatch⟩ := (Option.any_eq_true _ _).mp h.2
  rw [walk_of_eligible_singleton trail hel hB, readToken_word hmatch rfl]

/-! ## What a search reads -/

/-- Where no word is next, a search that succeeds has read arguments. -/
theorem fitsFrom_of_walk_slots {n : NodeId} {N : Node} {c : BranchId} {spot : Spot} {trail : Trail}
    {a : Attempt} (hword : g.IsWordOf f made n (g.target c)) (hN : f.node? n = some N)
    (hchildren : g.ChildrenFor f made n N.parameters.items (g.childrenOf c))
    (hno : ∀ child, ¬ g.HasWord c (String.ofList (firstWord spot.ahead)) child)
    (hne : spot.ahead ≠ []) (hend : g.EndsIn (g.walk c spot trail) a) :
    ∃ x xs, Reading.FitsFrom ⟨[], n, x :: xs⟩ g f made (g.target c) ∧
      spot.ahead = x.raw.toList ++ spaced (xs.map ParsedArgument.raw) ∧
      a.trail.arguments = putAll trail.arguments N.parameters.items (x :: xs) ∧
      g.calledAt a = some (f.runnerOf n) := by
  cases hps : N.parameters.items with
  | nil =>
    rw [hps] at hchildren
    exact absurd hend (not_endsIn_walk_nil (hchildren.eligible_nil hno) hne)
  | cons p ps =>
    rw [hps] at hchildren
    obtain ⟨s, hchain, hel⟩ := hchildren.eligible_slot
    obtain ⟨x, xs, hfilled, hsp, hargs, hcall⟩ := filled_of_walk hchain (hel _ hno) hend
    have hfirst : firstWord x.raw.toList = firstWord spot.ahead := by
      rw [hsp, ← joined_cons_spaced, firstWord_joined]
    refine ⟨x, xs, Reading.fitsFrom_nil_iff.mpr ⟨hword, N, hN, hps ▸ hfilled, ?_⟩, hsp, hargs,
      hcall⟩
    intro y ys hy child hchild
    cases hy
    rw [hfirst] at hchild
    exact hno child ((hasWord_congr hword.target).mp hchild)

/-- **What a search has read that succeeds from the word of a node on.** -/
theorem fitsFrom_of_resume (hall : g.AllShaped f made) {n : NodeId} {c : BranchId} {spot : Spot}
    {trail : Trail} {a : Attempt} (hword : g.IsWordOf f made n (g.target c))
    (hlast : trail.branches.getLast? = some c)
    (hahead : spot.ahead = [] ∨ ∃ tail, spot.ahead = ' ' :: tail)
    (hend : g.EndsIn (g.resume c spot trail) a) :
    ∃ r N, Reading.FitsFrom r g f made (g.target c) ∧ spot.ahead = spaced r.texts ∧
      f.node? r.node = some N ∧
      a.trail.arguments = putAll trail.arguments N.parameters.items r.arguments ∧
      g.calledAt a = some (f.runnerOf r.node) := by
  -- each word leaves less to read, so the induction is on what is ahead and not on the tree
  induction hlen : spot.ahead.length using Nat.strongRecOn generalizing n c spot trail with
  | ind len ih =>
    obtain ⟨N, hN, hchildren⟩ := hall.children hword
    rw [childrenOf_congr hword.target] at hchildren
    rcases endsIn_resume hahead hend with ⟨hnil, rfl⟩ | ⟨tail, hcons, hne, htail, hend⟩
    · have hfits : Reading.FitsFrom ⟨[], n, []⟩ g f made (g.target c) :=
        Reading.fitsFrom_nil_iff.mpr ⟨hword, N, hN, filled_nil _, fun _ _ hx => nomatch hx⟩
      refine ⟨⟨[], n, []⟩, N, hfits, hnil, hN, (putAll_nil _ _).symm, ?_⟩
      rw [calledAt, hlast, Option.bind_some, ← callbackOf_congr hword.target, hword.callbackOf]
    · by_cases hhas : ∃ child, g.HasWord c (String.ofList (firstWord tail)) child
      · obtain ⟨child, hchild⟩ := hhas
        obtain ⟨-, m, -, hm⟩ := hchildren.hasWord_iff.mp hchild
        have hnext : g.HasWord c (String.ofList (firstWord (spot.after 1).ahead)) child :=
          htail ▸ hchild
        have hgo := walk_of_hasWord (hchildren.eligible_word hnext) hnext trail
        rw [hgo, htail] at hend
        obtain ⟨rest, hsplit, hrest⟩ := firstWord_append_rest tail
        have hafter : ((spot.after 1).after (firstWord tail).length).ahead = rest :=
          ahead_after (htail.trans hsplit)
        have hshort : rest.length < len := by
          rw [← hlen, hcons, hsplit, List.length_cons, List.length_append]
          omega
        obtain ⟨⟨ws, m', args⟩, M, hfits, htexts, hM, hargs, hcall⟩ :=
          ih rest.length hshort hm (List.getLast?_concat ..) (hafter ▸ hrest) hend
            (by rw [hafter])
        have hspace : ' ' ∉ (String.ofList (firstWord tail)).toList := by
          rw [String.toList_ofList]
          exact space_not_mem_firstWord tail
        refine ⟨⟨String.ofList (firstWord tail) :: ws, m', args⟩, M, Reading.fitsFrom_cons_iff.mpr
          ⟨hspace, child, (hasWord_congr hword.target).mpr hchild, hfits⟩, ?_, hM, hargs, hcall⟩
        rw [hcons, Reading.texts_cons, spaced_cons, String.toList_ofList, ← htexts, hafter,
          ← hsplit]
      · have hno : ∀ child, ¬ g.HasWord c (String.ofList (firstWord tail)) child := fun child h =>
          hhas ⟨child, h⟩
        rw [← htail] at hno hne
        obtain ⟨x, xs, hfits, hsp, hargs, hcall⟩ :=
          fitsFrom_of_walk_slots hword hN hchildren hno hne hend
        refine ⟨⟨[], n, x :: xs⟩, N, hfits, ?_, hN, hargs, hcall⟩
        rw [hcons, ← htail, hsp]
        exact (spaced_cons ..).symm

/-- Arguments of the node itself are found. -/
theorem resume_of_fitsFrom_nil (hall : g.AllShaped f made) {m : NodeId}
    {args : List ParsedArgument} {c : BranchId} {spot : Spot} {trail : Trail}
    (hlast : trail.branches.getLast? = some c)
    (hfits : Reading.FitsFrom ⟨[], m, args⟩ g f made (g.target c))
    (hahead : spot.ahead = spaced (args.map ParsedArgument.raw)) :
    ∃ a, g.EndsIn (g.resume c spot trail) a := by
  obtain ⟨hword, N, hN, hfilled, hno⟩ := Reading.fitsFrom_nil_iff.mp hfits
  cases args with
  | nil =>
    have hcall : g.callbackOf c = some (f.runnerOf m) := by
      rw [← callbackOf_congr hword.target, hword.callbackOf]
    exact ⟨_, endsIn_resume_nil hahead hlast hcall⟩
  | cons x xs =>
    rw [List.map_cons, spaced_cons] at hahead
    have htail := ahead_after_one hahead
    obtain ⟨N', hN', hchildren⟩ := hall.children hword
    rw [hN] at hN'
    cases hN'
    rw [childrenOf_congr hword.target] at hchildren
    cases hps : N.parameters.items with
    | nil =>
      rw [hps] at hfilled
      cases hfilled
    | cons p ps =>
      rw [hps] at hfilled hchildren
      have hne : x.raw.toList ≠ [] := fun hnil =>
        hfilled.1.1 (String.toList_eq_nil_iff.mp hnil)
      obtain ⟨s, hchain, hel⟩ := hchildren.eligible_slot
      rw [resume_cons trail hahead (by simp [hne])]
      refine walk_of_filled hchain (hel _ fun child hchild => ?_) hfilled htail
      refine hno x xs rfl child ((hasWord_congr hword.target).mpr ?_)
      rw [htail, ← joined_cons_spaced, firstWord_joined] at hchild
      exact hchild

/-- **What is read from the word of a node on is found by a search that succeeds.** -/
theorem resume_of_fitsFrom (hall : g.AllShaped f made) {r : Reading} {c : BranchId} {spot : Spot}
    {trail : Trail} {n : NodeId} (hword : g.IsWordOf f made n (g.target c))
    (hlast : trail.branches.getLast? = some c) (hfits : r.FitsFrom g f made (g.target c))
    (hahead : spot.ahead = spaced r.texts) : ∃ a, g.EndsIn (g.resume c spot trail) a := by
  obtain ⟨words, m, args⟩ := r
  induction words generalizing c spot trail n with
  | nil => exact resume_of_fitsFrom_nil hall hlast hfits hahead
  | cons w ws ih =>
    obtain ⟨hw, child, hchild, hfits⟩ := Reading.fitsFrom_cons_iff.mp hfits
    rw [Reading.texts_cons, spaced_cons] at hahead
    have htail := ahead_after_one hahead
    have hfirst : firstWord (spot.after 1).ahead = w.toList := by
      rw [htail, firstWord_append_spaced hw]
    have hne : w.toList ≠ [] := fun hnil => hchild.ne_empty (String.toList_eq_nil_iff.mp hnil)
    obtain ⟨N, hN, hchildren⟩ := hall.children hword
    rw [childrenOf_congr hword.target] at hchildren
    rw [hasWord_congr hword.target] at hchild
    obtain ⟨-, k, -, hk⟩ := hchildren.hasWord_iff.mp hchild
    have hnext : (spot.after 1).word = w := by
      rw [Spot.word, hfirst, String.ofList_toList]
    have hthere : g.HasWord c (spot.after 1).word child := hnext.symm ▸ hchild
    rw [resume_cons trail hahead (by simp [hne]),
      walk_of_hasWord (hchildren.eligible_word hthere) hthere trail, hfirst]
    exact ih hk (List.getLast?_concat ..) hfits (ahead_after htail)

/-! ## One reading -/

/-- A word that a text begins with is the first word of its first part. -/
theorem firstWord_of_joined_eq {x w : String} {xs ws : List String} (hw : ' ' ∉ w.toList)
    (h : x.toList ++ spaced xs = w.toList ++ spaced ws) :
    String.ofList (firstWord x.toList) = w := by
  have hfirst := congrArg firstWord h
  rw [firstWord_append_spaced hw, ← joined_cons_spaced, firstWord_joined] at hfirst
  rw [hfirst, String.ofList_toList]

/-- What begins with a word is not read as arguments. -/
theorem texts_ne_of_word {b : BranchId} {m m' : NodeId} {args args' : List ParsedArgument}
    {w : String} {ws : List String} (h : Reading.FitsFrom ⟨[], m, args⟩ g f made b)
    (h' : Reading.FitsFrom ⟨w :: ws, m', args'⟩ g f made b) :
    spaced (args.map ParsedArgument.raw) ≠ spaced (Reading.texts ⟨w :: ws, m', args'⟩) := by
  obtain ⟨-, N, -, -, hno⟩ := Reading.fitsFrom_nil_iff.mp h
  obtain ⟨hw, child, hchild, -⟩ := Reading.fitsFrom_cons_iff.mp h'
  intro htexts
  rw [Reading.texts_cons, spaced_cons] at htexts
  cases args with
  | nil => cases htexts
  | cons x xs =>
    rw [List.map_cons, spaced_cons, List.cons.injEq] at htexts
    rw [← firstWord_of_joined_eq hw htexts.2] at hchild
    exact hno x xs rfl child hchild

/-- Arguments of one node with the same texts are the same. -/
theorem fitsFrom_nil_unique (hall : g.AllShaped f made) {b : BranchId} {m m' : NodeId}
    {args args' : List ParsedArgument} (h : Reading.FitsFrom ⟨[], m, args⟩ g f made b)
    (h' : Reading.FitsFrom ⟨[], m', args'⟩ g f made b)
    (htexts : spaced (args.map ParsedArgument.raw) = spaced (args'.map ParsedArgument.raw)) :
    m = m' ∧ args = args' := by
  obtain ⟨hm, N, hN, hfilled, -⟩ := Reading.fitsFrom_nil_iff.mp h
  obtain ⟨hm', N', hN', hfilled', -⟩ := Reading.fitsFrom_nil_iff.mp h'
  cases hm.inj hm'
  rw [hN] at hN'
  cases hN'
  refine ⟨rfl, ?_⟩
  obtain ⟨N', hN', hchildren⟩ := hall.children hm
  rw [hN] at hN'
  cases hN'
  cases hps : N.parameters.items with
  | nil =>
    rw [hps] at hfilled hfilled'
    cases args with
    | cons x xs => cases hfilled
    | nil =>
      cases args' with
      | cons y ys => cases hfilled'
      | nil => rfl
  | cons p ps =>
    rw [hps] at hfilled hfilled' hchildren
    obtain ⟨-, s, -, hchain⟩ := hchildren.slot rfl
    exact filled_unique hchain hfilled hfilled' htexts

/-- **There are no two readings of the same texts.** -/
theorem fitsFrom_unique (hall : g.AllShaped f made) {n : NodeId} {b : BranchId}
    (hword : g.IsWordOf f made n b) {r r' : Reading} (h : r.FitsFrom g f made b)
    (h' : r'.FitsFrom g f made b) (htexts : spaced r.texts = spaced r'.texts) : r = r' := by
  obtain ⟨words, m, args⟩ := r
  obtain ⟨words', m', args'⟩ := r'
  induction words generalizing n b words' with
  | nil =>
    cases words' with
    | nil =>
      obtain ⟨rfl, rfl⟩ := fitsFrom_nil_unique hall h h' htexts
      rfl
    | cons w ws => exact absurd htexts (texts_ne_of_word h h')
  | cons w ws ih =>
    cases words' with
    | nil => exact absurd htexts.symm (texts_ne_of_word h' h)
    | cons w' ws' =>
      obtain ⟨hw, child, hchild, hfits⟩ := Reading.fitsFrom_cons_iff.mp h
      obtain ⟨hw', child', hchild', hfits'⟩ := Reading.fitsFrom_cons_iff.mp h'
      rw [Reading.texts_cons, Reading.texts_cons, spaced_cons, spaced_cons, List.cons.injEq]
        at htexts
      have hww : w = w' := by
        rw [← firstWord_of_joined_eq hw' htexts.2, firstWord_of_not_mem hw, String.ofList_toList]
      subst hww
      -- the same word is kept once, so both readings go on from the same branch
      obtain ⟨N, hN, hchildren⟩ := hall.children hword
      obtain ⟨hget, k, -, hk⟩ := hchildren.hasWord_iff.mp hchild
      obtain ⟨hget', -⟩ := hchildren.hasWord_iff.mp hchild'
      rw [hget] at hget'
      cases hget'
      cases ih hk hfits ws' hfits' (List.append_cancel_left htexts.2)
      rfl

end Grammar

end CommandTree
