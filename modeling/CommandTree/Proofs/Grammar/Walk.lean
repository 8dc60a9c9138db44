import CommandTree.Grammar.Search
import CommandTree.Proofs.Grammar.Resolution
import CommandTree.Proofs.Parameter.Agreement

/-!
# Walking through a chain of slots

Where only one branch is tried, the search goes on with what that branch leaves. In a chain of slots
this is so at every slot: the search reads as many tokens as the input has, and succeeds if each of
them is accepted by its parameter and none is left over.

* `walk_of_eligible_singleton`: where one branch is tried, the search goes on from there
* `Parameter.acceptsWhole_iff`: when a text is a token that a parameter accepts as a whole
* `filled_of_walk`, `walk_of_filled`: a chain reads exactly the texts that its parameters accept
-/

namespace CommandTree

/-! ## Parameters filled by texts -/

/-- Whether a text that is not empty is read to its end by the class of a parameter, as the value
that goes with it. -/
def Parameter.AcceptsWhole (p : Parameter) (a : ParsedArgument) : Prop :=
  a.raw ≠ "" ∧
    (TokenClass.ofDomain p.domain).read ⟨a.raw, 0⟩ = (.ok a.value, ⟨a.raw, a.raw.toList.length⟩)

/-- Whether arguments are accepted by the first parameters, in order. -/
def Filled : List Parameter → List ParsedArgument → Prop
  | _, [] => True
  | [], _ :: _ => False
  | p :: ps, a :: as => p.AcceptsWhole a ∧ Filled ps as

theorem filled_nil (ps : List Parameter) : Filled ps [] := by
  cases ps <;> trivial

/-- The arguments with those of the first parameters put to them, by the names of the parameters. -/
def putAll (arguments : Catalog ParsedArgument) :
    List Parameter → List ParsedArgument → Catalog ParsedArgument
  | p :: ps, a :: as => putAll (arguments.put p.name.text a) ps as
  | _, _ => arguments

@[simp] theorem putAll_nil (arguments : Catalog ParsedArgument) (ps : List Parameter) :
    putAll arguments ps [] = arguments := by
  cases ps <;> rfl

theorem putAll_eq_foldl (arguments : Catalog ParsedArgument) (ps : List Parameter)
    (as : List ParsedArgument) :
    putAll arguments ps as
      = (ps.zip as).foldl (fun kept e => kept.put e.1.name.text e.2) arguments := by
  induction ps generalizing arguments as with
  | nil => rfl
  | cons p ps ih =>
    cases as with
    | nil => rfl
    | cons a as => exact ih ..

/-- What differs between parameters differs between those that have arguments. -/
theorem nodup_map_zip {β : Type} {ps : List Parameter} {key : Parameter → β}
    (h : (ps.map key).Nodup) (as : List ParsedArgument) :
    ((ps.zip as).map fun e => key e.1).Nodup := by
  have hfirst : (ps.zip as).map Prod.fst <+: ps := by
    rw [List.zip_eq_zip_take_min, List.map_fst_zip (by simp)]
    exact List.take_prefix ..
  have hkeys : (ps.zip as).map (fun e => key e.1) = ((ps.zip as).map Prod.fst).map key := by
    rw [List.map_map]
    rfl
  rw [hkeys]
  exact h.sublist (hfirst.sublist.map key)

/-- What a class takes for a token is followed by nothing or by a space. -/
theorem TokenClass.take_split (cls : TokenClass) (cs : List Char) :
    ∃ rest, cs = cls.take cs ++ rest ∧ (rest = [] ∨ ∃ tail, rest = ' ' :: tail) := by
  unfold take
  split
  · exact ⟨[], (List.append_nil cs).symm, Or.inl rfl⟩
  · exact firstWord_append_rest cs

theorem TokenClass.isWhole_take (cls : TokenClass) (cs : List Char) :
    cls.IsWhole (String.ofList (cls.take cs)) := by
  unfold IsWhole take
  cases cls.greedy with
  | true => exact Or.inl rfl
  | false =>
    refine Or.inr ?_
    rw [String.toList_ofList]
    exact space_not_mem_firstWord cs

/-- A text is accepted as a whole if it is one token, and accepted as a token. -/
theorem Parameter.acceptsWhole_iff {p : Parameter} {a : ParsedArgument} :
    p.AcceptsWhole a ↔ (TokenClass.ofDomain p.domain).IsWhole a.raw ∧
      (TokenClass.ofDomain p.domain).accept a.raw = .ok a.value := by
  constructor
  · rintro ⟨hne, hread⟩
    have hwhole : (TokenClass.ofDomain p.domain).IsWhole a.raw :=
      TokenClass.isWhole_of_read_position (by rw [hread])
    refine ⟨hwhole, ?_⟩
    rw [← TokenClass.read_eq_ok_iff hwhole, hread]
  · rintro ⟨hwhole, haccept⟩
    refine ⟨?_, ?_⟩
    · intro hempty
      rw [hempty, TokenClass.accept_empty] at haccept
      cases haccept
    · rw [TokenClass.read_of_isWhole hwhole, haccept]

/-- A text is accepted as one value only. -/
theorem Parameter.AcceptsWhole.unique {p : Parameter} {x y : ParsedArgument}
    (hx : p.AcceptsWhole x) (hy : p.AcceptsWhole y) (h : x.raw = y.raw) : x = y := by
  obtain ⟨raw, v⟩ := x
  obtain ⟨raw', v'⟩ := y
  cases h
  have hv := (acceptsWhole_iff.mp hx).2
  rw [(acceptsWhole_iff.mp hy).2] at hv
  cases hv
  rfl

/-- The word that is next at a place. -/
def Spot.word (s : Spot) : String := String.ofList (firstWord s.ahead)

namespace Grammar

variable {g : Grammar} {made : BranchId} {callback : Callback}

/-! ## Going on from one branch -/

theorem ahead_after {spot : Spot} {cs rest : List Char} (h : spot.ahead = cs ++ rest) :
    (spot.after cs.length).ahead = rest := by
  rw [Spot.after, h, List.drop_left]

theorem ahead_after_one {spot : Spot} {tail : List Char} (h : spot.ahead = ' ' :: tail) :
    (spot.after 1).ahead = tail :=
  ahead_after (show spot.ahead = [' '] ++ tail from h)

/-- The search behind a token: where more than a separator follows, it goes on from the branch that
has read the token. -/
def resume (g : Grammar) (c : BranchId) (spot : Spot) (trail : Trail) : Except Fault Attempt :=
  if 2 ≤ spot.ahead.length then g.walk c (spot.after 1) trail else .ok ⟨spot, trail, none⟩

/-- What comes of trying a branch at a place. -/
def attempt (g : Grammar) (spot : Spot) (trail : Trail) (c : BranchId) : Except Fault Attempt :=
  match g.branch? c with
  | none => .ok ⟨spot, trail, none⟩
  | some B =>
    match readToken B spot.ahead with
    | .error (.complaint k) => .ok ⟨spot, trail, some k⟩
    | .error (.datum fault) => .error (.datum fault)
    | .ok (token, argument) =>
      g.resume c (spot.after token.length) (extended trail c argument)

/-- The search makes an attempt at each branch that may be tried, and keeps the best. -/
theorem walk_eq (g : Grammar) (id : BranchId) (spot : Spot) (trail : Trail) :
    g.walk id spot trail = ((g.eligible id spot.word).mapM (g.attempt spot trail)).map
      fun attempts => (g.best? attempts).getD ⟨spot, trail, none⟩ := by
  rw [walk]
  change ((g.eligible id spot.word).mapM (g.attempt spot trail) >>= fun attempts =>
    .ok ((g.best? attempts).getD ⟨spot, trail, none⟩)) = _
  cases (g.eligible id spot.word).mapM (g.attempt spot trail) <;> rfl

theorem walk_of_eligible_singleton {id c : BranchId} {B : Branch} {spot : Spot} (trail : Trail)
    (h : g.eligible id (String.ofList (firstWord spot.ahead)) = [c]) (hc : g.branch? c = some B) :
    g.walk id spot trail = match readToken B spot.ahead with
      | .error (.complaint k) => .ok ⟨spot, trail, some k⟩
      | .error (.datum fault) => .error (.datum fault)
      | .ok (token, argument) =>
        g.resume c (spot.after token.length) (extended trail c argument) := by
  have hattempt : g.attempt spot trail c = match readToken B spot.ahead with
      | .error (.complaint k) => .ok ⟨spot, trail, some k⟩
      | .error (.datum fault) => .error (.datum fault)
      | .ok (token, argument) =>
        g.resume c (spot.after token.length) (extended trail c argument) := by
    rw [attempt, hc]
  rw [walk_eq, Spot.word, h, List.mapM_cons, List.mapM_nil, ← hattempt]
  cases g.attempt spot trail c <;> rfl

/-- Whether a search comes to an attempt that succeeds. -/
def EndsIn (g : Grammar) (found : Except Fault Attempt) (a : Attempt) : Prop :=
  found = .ok a ∧ g.succeeds a = true

/-- What is called at the end of an attempt. -/
def calledAt (g : Grammar) (a : Attempt) : Option Callback :=
  a.trail.branches.getLast?.bind g.callbackOf

theorem endsIn_stop {spot : Spot} {trail : Trail} {a : Attempt} :
    g.EndsIn (.ok ⟨spot, trail, none⟩) a ↔
      a = ⟨spot, trail, none⟩ ∧ spot.ahead = [] ∧ (g.calledAt a).isSome = true := by
  unfold EndsIn
  constructor
  · rintro ⟨ha, hs⟩
    cases ha
    simp only [succeeds, Bool.and_eq_true, List.isEmpty_iff] at hs
    exact ⟨rfl, hs.1.2, hs.2⟩
  · rintro ⟨rfl, hnil, hcall⟩
    refine ⟨rfl, ?_⟩
    simp only [succeeds, Bool.and_eq_true, List.isEmpty_iff]
    exact ⟨⟨rfl, hnil⟩, hcall⟩

theorem not_endsIn_complaint {spot : Spot} {trail : Trail} {k : Complaint} {a : Attempt} :
    ¬ g.EndsIn (.ok ⟨spot, trail, some k⟩) a := by
  rintro ⟨ha, hs⟩
  cases ha
  cases hs

/-- A search that goes on behind a token ends there, or has something to read behind a separator. -/
theorem endsIn_resume {c : BranchId} {spot : Spot} {trail : Trail} {a : Attempt}
    (hahead : spot.ahead = [] ∨ ∃ tail, spot.ahead = ' ' :: tail)
    (h : g.EndsIn (g.resume c spot trail) a) :
    (spot.ahead = [] ∧ a = ⟨spot, trail, none⟩) ∨
      ∃ tail, spot.ahead = ' ' :: tail ∧ tail ≠ [] ∧ (spot.after 1).ahead = tail ∧
        g.EndsIn (g.walk c (spot.after 1) trail) a := by
  rcases hahead with hnil | ⟨tail, hcons⟩
  · rw [resume, hnil, if_neg (by simp)] at h
    exact Or.inl ⟨hnil, (endsIn_stop.mp h).1⟩
  · refine Or.inr ⟨tail, hcons, ?_⟩
    have hafter : (spot.after 1).ahead = tail := ahead_after_one hcons
    cases tail with
    | nil =>
      rw [resume, hcons, if_neg (by simp)] at h
      obtain ⟨-, hnil, -⟩ := endsIn_stop.mp h
      rw [hcons] at hnil
      cases hnil
    | cons x tail =>
      rw [resume, hcons, if_pos (by simp)] at h
      exact ⟨by simp, hafter, h⟩

theorem withoutSlash_slash (t : String) : withoutSlash ("/" ++ t).toList = t.toList := by
  rw [String.toList_append]
  rfl

/-- An input is read exactly if the search succeeds; the invocation tells what it has read. -/
theorem parse_eq_ok_iff {start : BranchId} {source : Option Sender} {s : String} {i : Invocation} :
    g.parse start source s = .ok i ↔
      ∃ a callback, g.EndsIn (g.walk start ⟨0, withoutSlash s.toList⟩ .empty) a ∧
        g.calledAt a = some callback ∧
        i = ⟨source, String.ofList (withoutSlash s.toList), a.trail.arguments, a.trail.branches,
          callback⟩ := by
  unfold parse
  dsimp only
  cases hwalk : g.walk start ⟨0, withoutSlash s.toList⟩ .empty with
  | error fault =>
    constructor
    · intro h
      cases h
    · rintro ⟨a, callback, ⟨ha, -⟩, -⟩
      cases ha
  | ok a =>
    simp only [bind, Except.bind]
    by_cases hok : g.succeeds a = true
    · rw [if_pos hok]
      cases hcall : a.trail.branches.getLast?.bind g.callbackOf with
      | none =>
        constructor
        · intro h
          cases h
        · rintro ⟨a', callback, ⟨ha, -⟩, hcall', -⟩
          cases ha
          rw [calledAt, hcall] at hcall'
          cases hcall'
      | some callback =>
        constructor
        · intro h
          cases h
          exact ⟨a, callback, ⟨rfl, hok⟩, hcall, rfl⟩
        · rintro ⟨a', callback', ⟨ha, -⟩, hcall', rfl⟩
          cases ha
          rw [calledAt, hcall] at hcall'
          cases hcall'
          rfl
    · rw [if_neg hok]
      constructor
      · intro h
        cases h
      · rintro ⟨a', callback, ⟨ha, hok'⟩, -⟩
        cases ha
        exact absurd hok' hok

theorem isSome_calledAt {a : Attempt} (h : g.succeeds a = true) :
    (g.calledAt a).isSome = true := by
  rw [succeeds, Bool.and_eq_true] at h
  exact h.2

theorem parse_of_walk_error {start : BranchId} {source : Option Sender} {s : String} {fault : Fault}
    (h : g.walk start ⟨0, withoutSlash s.toList⟩ .empty = .error fault) :
    g.parse start source s = .error fault := by
  rw [parse, h]
  rfl

/-- A search that fails leads to a complaint about the place that it has come to. -/
theorem parse_of_fails {start : BranchId} {source : Option Sender} {s : String} {a : Attempt}
    (h : g.walk start ⟨0, withoutSlash s.toList⟩ .empty = .ok a) (hs : g.succeeds a = false) :
    g.parse start source s = .error (.parse ⟨complaintOf a,
      some (String.ofList (withoutSlash s.toList)), some a.spot.offset⟩) := by
  rw [parse, h]
  simp [bind, Except.bind, hs]

/-- Where nothing follows, a search ends at a branch with a callback. -/
theorem endsIn_resume_nil {c : BranchId} {spot : Spot} {trail : Trail} (hahead : spot.ahead = [])
    (hlast : trail.branches.getLast? = some c) (hcall : g.callbackOf c = some callback) :
    g.EndsIn (g.resume c spot trail) ⟨spot, trail, none⟩ := by
  rw [resume, hahead, if_neg (by simp)]
  refine endsIn_stop.mpr ⟨rfl, hahead, ?_⟩
  rw [calledAt, hlast, Option.bind_some, hcall]
  rfl

theorem resume_cons {c : BranchId} {spot : Spot} (trail : Trail) {tail : List Char}
    (hahead : spot.ahead = ' ' :: tail) (hne : tail ≠ []) :
    g.resume c spot trail = g.walk c (spot.after 1) trail := by
  obtain ⟨x, rest, rfl⟩ := List.exists_cons_of_ne_nil hne
  rw [resume, hahead, if_pos (by simp)]

theorem not_endsIn_walk_nil {c : BranchId} {spot : Spot} {trail : Trail} {a : Attempt}
    (h : g.eligible c (String.ofList (firstWord spot.ahead)) = []) (hne : spot.ahead ≠ []) :
    ¬ g.EndsIn (g.walk c spot trail) a := by
  rw [walk_of_eligible_nil trail h]
  intro hend
  exact hne (endsIn_stop.mp hend).2.1

/-! ## Words -/

theorem readToken_word {B : Branch} {word : String} (h : B.matchesWord word = true) {cs : List Char}
    (hcs : word = String.ofList (firstWord cs)) : readToken B cs = .ok (firstWord cs, none) := by
  subst hcs
  cases hk : B.kind with
  | start => rw [Branch.matchesWord, hk] at h; cases h
  | slot name cls => rw [Branch.matchesWord, hk] at h; cases h
  | word name redirect =>
    rw [Branch.matchesWord, hk] at h
    rw [readToken, hk]
    dsimp only
    exact if_pos h

/-! ## Slots -/

theorem eligible_of_no_word {b : BranchId} {word : String} (h : ∀ c, ¬ g.HasWord b word c) :
    g.eligible b word
      = (g.childrenOf b).items.filter fun c => (g.branch? c).any Branch.isSlot := by
  have hnone : ((g.childrenOf b).items.filter fun c =>
      (g.branch? c).any (·.matchesWord word)) = [] := by
    rw [List.filter_eq_nil_iff]
    intro c hc hw
    exact h c ⟨hc, hw⟩
  rw [eligible]
  simp only [hnone, List.isEmpty_nil, if_true]

/-- The first slot of a chain, and what stands under it. -/
theorem IsChain.cases {p : Parameter} {ps : List Parameter} {s : BranchId}
    (h : g.IsChain made callback (p :: ps) s) :
    ∃ children, g.branch? s
        = some ⟨.slot p.name (.ofDomain p.domain), children, some callback⟩ ∧
      ((ps = [] ∧ children = .empty) ∨ ∃ q rest s', ps = q :: rest ∧ p.greedy = false ∧
        children = Catalog.empty.put q.key s' ∧ g.IsChain made callback ps s') := by
  cases ps with
  | nil => exact ⟨_, h.2, Or.inl ⟨rfl, rfl⟩⟩
  | cons q rest =>
    obtain ⟨-, hgreedy, s', hchain, hs⟩ := h
    exact ⟨_, hs, Or.inr ⟨q, rest, s', rfl, hgreedy, rfl, hchain⟩⟩

theorem target_of_slot {s : BranchId} {B : Branch} (hs : g.branch? s = some B) {name : Name}
    {cls : TokenClass} (hk : B.kind = .slot name cls) : g.target s = s :=
  target_of_redirect?_none hs (by rw [Branch.redirect?, hk])

theorem IsChain.callbackOf {ps : List Parameter} {s : BranchId}
    (h : g.IsChain made callback ps s) : g.callbackOf s = some callback := by
  cases ps with
  | nil => cases h
  | cons p ps =>
    obtain ⟨children, hs, -⟩ := h.cases
    rw [Grammar.callbackOf, target_of_slot hs rfl, hs]
    rfl

theorem IsChain.eligible_nil {p : Parameter} {s : BranchId} (h : g.IsChain made callback [p] s)
    (word : String) : g.eligible s word = [] := by
  have hchildren : g.childrenOf s = .empty := by
    rw [childrenOf, target_of_slot h.2 rfl, h.2]
  rw [eligible, hchildren]
  rfl

theorem IsChain.eligible_cons {p : Parameter} {ps : List Parameter} {s : BranchId}
    (h : g.IsChain made callback (p :: ps) s) (hne : ps ≠ []) :
    p.greedy = false ∧ ∃ s', g.IsChain made callback ps s' ∧ ∀ word, g.eligible s word = [s'] := by
  obtain ⟨children, hs, ⟨hnil, -⟩ | ⟨q, rest, s', -, hgreedy, rfl, hchain⟩⟩ := h.cases
  · exact absurd hnil hne
  · refine ⟨hgreedy, s', hchain, fun word => ?_⟩
    obtain ⟨B, hB, hslot⟩ := hchain.isSlot
    have hitems : (g.childrenOf s).items = [s'] := by
      rw [childrenOf, target_of_slot hs rfl, hs]
      rfl
    have hno : ∀ c, ¬ g.HasWord s word c := by
      rintro c ⟨hc, hw⟩
      rw [hitems, List.mem_singleton] at hc
      rw [hc, hB, Option.any_some, matchesWord_of_isSlot hslot] at hw
      cases hw
    rw [eligible_of_no_word hno, hitems, List.filter_cons_of_pos (by rw [hB]; exact hslot)]
    rfl

theorem readToken_slot {B : Branch} {p : Parameter}
    (hk : B.kind = .slot p.name (.ofDomain p.domain)) (cs : List Char) :
    readToken B cs = match (TokenClass.ofDomain p.domain).accept
        (String.ofList ((TokenClass.ofDomain p.domain).take cs)) with
      | .ok v => .ok ((TokenClass.ofDomain p.domain).take cs,
          some (p.name.text, ⟨String.ofList ((TokenClass.ofDomain p.domain).take cs), v⟩))
      | .error fault => .error fault := by
  rw [readToken, hk]
  dsimp only
  cases (TokenClass.ofDomain p.domain).accept
    (String.ofList ((TokenClass.ofDomain p.domain).take cs)) <;> rfl

/-! ## Chains -/

/-- **A search that succeeds in a chain of slots has read texts that fill its parameters.** -/
theorem filled_of_walk {ps : List Parameter} {s c : BranchId} {spot : Spot} {trail : Trail}
    {a : Attempt} (hchain : g.IsChain made callback ps s)
    (hel : g.eligible c (String.ofList (firstWord spot.ahead)) = [s])
    (hend : g.EndsIn (g.walk c spot trail) a) :
    ∃ x xs, Filled ps (x :: xs) ∧
      spot.ahead = x.raw.toList ++ spaced (xs.map ParsedArgument.raw) ∧
      a.trail.arguments = putAll trail.arguments ps (x :: xs) ∧ g.calledAt a = some callback := by
  induction ps generalizing s c spot trail with
  | nil => cases hchain
  | cons p ps ih =>
    obtain ⟨children, hs, -⟩ := hchain.cases
    rw [walk_of_eligible_singleton trail hel hs, readToken_slot rfl] at hend
    -- from here on the token is any text that is whole for the class, whether greedy or a word
    obtain ⟨rest, hsplit, hrest⟩ := (TokenClass.ofDomain p.domain).take_split spot.ahead
    have hwhole := (TokenClass.ofDomain p.domain).isWhole_take spot.ahead
    generalize (TokenClass.ofDomain p.domain).take spot.ahead = token at hend hsplit hwhole
    cases haccept : (TokenClass.ofDomain p.domain).accept (String.ofList token) with
    | error fault =>
      rw [haccept] at hend
      cases fault with
      | complaint k => exact absurd hend not_endsIn_complaint
      | datum fault => cases hend.1
    | ok v =>
      rw [haccept] at hend
      dsimp only at hend
      have hfirst : p.AcceptsWhole ⟨String.ofList token, v⟩ :=
        Parameter.acceptsWhole_iff.mpr ⟨hwhole, haccept⟩
      have hafter : (spot.after token.length).ahead = rest := ahead_after hsplit
      rw [← hafter] at hrest hsplit
      rcases endsIn_resume hrest hend with ⟨hnil, rfl⟩ | ⟨tail, hcons, hne, hahead, hend⟩
      · refine ⟨⟨String.ofList token, v⟩, [], ⟨hfirst, filled_nil ps⟩, ?_, ?_, ?_⟩
        · rw [hnil] at hsplit
          rw [hsplit, String.toList_ofList]
          rfl
        · rw [putAll, putAll_nil]
          rfl
        · rw [calledAt, extended, List.getLast?_concat, Option.bind_some, hchain.callbackOf]
      · by_cases hps : ps = []
        · subst hps
          exact absurd hend (not_endsIn_walk_nil (hchain.eligible_nil _) (hahead ▸ hne))
        · obtain ⟨-, s', hchain', hel'⟩ := hchain.eligible_cons hps
          obtain ⟨x, xs, hfilled, hsp, hargs, hcall⟩ := ih hchain' (hel' _) hend
          refine ⟨⟨String.ofList token, v⟩, x :: xs, ⟨hfirst, hfilled⟩, ?_, hargs, hcall⟩
          rw [hsplit, hcons, ← hahead, hsp, String.toList_ofList, List.map_cons, spaced_cons]

/-- The first of the texts that fill a chain is the token that the texts begin with. -/
theorem take_of_filled {p : Parameter} {ps : List Parameter} {s : BranchId}
    (hchain : g.IsChain made callback (p :: ps) s) {x : ParsedArgument} {xs : List ParsedArgument}
    (hfilled : Filled (p :: ps) (x :: xs)) :
    (TokenClass.ofDomain p.domain).take
      (x.raw.toList ++ spaced (xs.map ParsedArgument.raw)) = x.raw.toList := by
  obtain ⟨hfirst, hrest⟩ := hfilled
  obtain ⟨hwhole, -⟩ := Parameter.acceptsWhole_iff.mp hfirst
  by_cases hgreedy : (TokenClass.ofDomain p.domain).greedy = true
  · -- a greedy parameter is the last one, so its text is all that is left
    have hnil : xs = [] := by
      cases xs with
      | nil => rfl
      | cons y ys =>
        have hne : ps ≠ [] := by
          rintro rfl
          cases hrest
        have hp := (hchain.eligible_cons hne).1
        rw [TokenClass.ofDomain_greedy] at hgreedy
        rw [Parameter.greedy, hgreedy] at hp
        cases hp
    rw [TokenClass.take, if_pos hgreedy, hnil, List.map_nil, spaced_nil, List.append_nil]
  · rw [TokenClass.take, if_neg hgreedy]
    exact firstWord_append_spaced (hwhole.resolve_left hgreedy) _

/-- Texts that fill a chain are determined by how they are joined. -/
theorem filled_unique {ps : List Parameter} {s : BranchId} (hchain : g.IsChain made callback ps s)
    {xs ys : List ParsedArgument} (hx : Filled ps xs) (hy : Filled ps ys)
    (h : spaced (xs.map ParsedArgument.raw) = spaced (ys.map ParsedArgument.raw)) : xs = ys := by
  induction ps generalizing s xs ys with
  | nil => cases hchain
  | cons p ps ih =>
    cases xs with
    | nil =>
      cases ys with
      | nil => rfl
      | cons y ys => rw [List.map_cons, spaced_cons] at h; cases h
    | cons x xs =>
      cases ys with
      | nil => rw [List.map_cons, spaced_cons] at h; cases h
      | cons y ys =>
        rw [List.map_cons, List.map_cons, spaced_cons, spaced_cons, List.cons.injEq] at h
        have hraw : x.raw = y.raw := by
          have htake := congrArg (TokenClass.ofDomain p.domain).take h.2
          rw [take_of_filled hchain hx, take_of_filled hchain hy] at htake
          exact String.toList_inj.mp htake
        cases hx.1.unique hy.1 hraw
        have hrest := List.append_cancel_left h.2
        congr 1
        by_cases hps : ps = []
        · subst hps
          cases xs with
          | cons x' xs => cases hx.2
          | nil =>
            cases ys with
            | cons y' ys => cases hy.2
            | nil => rfl
        · obtain ⟨-, s', hchain', -⟩ := hchain.eligible_cons hps
          exact ih hchain' hx.2 hy.2 hrest

/-- **Texts that fill the parameters of a chain of slots are read by a search that succeeds.** -/
theorem walk_of_filled {ps : List Parameter} {s c : BranchId} {spot : Spot} {trail : Trail}
    {x : ParsedArgument} {xs : List ParsedArgument} (hchain : g.IsChain made callback ps s)
    (hel : g.eligible c (String.ofList (firstWord spot.ahead)) = [s])
    (hfilled : Filled ps (x :: xs))
    (hahead : spot.ahead = x.raw.toList ++ spaced (xs.map ParsedArgument.raw)) :
    ∃ a, g.EndsIn (g.walk c spot trail) a := by
  induction ps generalizing s c spot trail x xs with
  | nil => cases hchain
  | cons p ps ih =>
    obtain ⟨hfirst, hrest⟩ := hfilled
    obtain ⟨hwhole, haccept⟩ := Parameter.acceptsWhole_iff.mp hfirst
    obtain ⟨children, hs, -⟩ := hchain.cases
    have htake : (TokenClass.ofDomain p.domain).take spot.ahead = x.raw.toList := by
      rw [hahead, take_of_filled hchain ⟨hfirst, hrest⟩]
    have hafter : (spot.after x.raw.toList.length).ahead = spaced (xs.map ParsedArgument.raw) :=
      ahead_after hahead
    have hgo : g.walk c spot trail = g.resume s (spot.after x.raw.toList.length)
        (extended trail s (some (p.name.text, x))) := by
      rw [walk_of_eligible_singleton trail hel hs, readToken_slot rfl, htake, String.ofList_toList,
        haccept]
    rw [hgo]
    cases xs with
    | nil =>
      exact ⟨_, endsIn_resume_nil hafter (List.getLast?_concat ..) hchain.callbackOf⟩
    | cons y ys =>
      have hne : ps ≠ [] := by
        rintro rfl
        cases hrest
      obtain ⟨-, s', hchain', hel'⟩ := hchain.eligible_cons hne
      rw [List.map_cons, spaced_cons] at hafter
      have hy : y.raw.toList ≠ [] := by
        cases ps with
        | nil => exact absurd rfl hne
        | cons q qs => exact fun hnil => hrest.1.1 (String.toList_eq_nil_iff.mp hnil)
      have htail : y.raw.toList ++ spaced (ys.map ParsedArgument.raw) ≠ [] := by
        simp [hy]
      rw [resume_cons _ hafter htail]
      exact ih hchain' (hel' _) hrest (ahead_after_one hafter)

end Grammar

end CommandTree
