import CommandTree.Proofs.Grammar.Walk

/-!
# Routes through a grammar

What a search is meant to find is said here without the attempts that it makes: a route is a
sequence of branches, each of which may be tried under the one before and reads the next token, and
it is accepted if it reads the input to its end and ends at a branch with a callback.

* `Earlier.asymm`: the order in which children are tried, depth first, is an order of routes
* `accepts_cons_iff`: how a route that is accepted goes on behind its first leg
-/

namespace CommandTree

open Text

/-- A step of a route: the branch that reads a token, and the argument that it is, if it is one. -/
structure Leg where
  branch : BranchId
  argument : Option (String × ParsedArgument)

/-- The trail with the legs of a route. -/
def Trail.along (trail : Trail) (legs : List Leg) : Trail :=
  legs.foldl (fun t leg => Grammar.extended t leg.branch leg.argument) trail

theorem Trail.branches_along (trail : Trail) (legs : List Leg) :
    (trail.along legs).branches = trail.branches ++ legs.map Leg.branch := by
  induction legs generalizing trail with
  | nil => simp [along]
  | cons leg legs ih =>
    rw [along, List.foldl_cons, ← along, ih]
    simp [Grammar.extended]

namespace Grammar

variable {g : Grammar} {id : BranchId} {spot : Spot}

/-! ## Routes -/

/-- Whether a branch may be tried under another one where a word is next: if it is that word, or if
it is a slot and none of the branches there is that word. -/
def Offers (g : Grammar) (id : BranchId) (word : String) (c : BranchId) : Prop :=
  g.HasWord id word c ∨
    (∀ other, ¬ g.HasWord id word other) ∧ c ∈ (g.childrenOf id).items ∧
      (g.branch? c).any Branch.isSlot = true

/-- Whether a leg leads from a place, at which a branch has been reached, behind a token. -/
def Takes (g : Grammar) (id : BranchId) (spot : Spot) (leg : Leg) (behind : Spot) : Prop :=
  g.Offers id spot.word leg.branch ∧ ∃ B token, g.branch? leg.branch = some B ∧
    readToken B spot.ahead = .ok (token, leg.argument) ∧ behind = spot.after token.length

/-- The routes from a place on, at which a branch has been reached, and where they stop. Behind a
token the route goes on if a separator and something else follow. -/
inductive Route (g : Grammar) : BranchId → Spot → List Leg → Spot → Prop
  | stop {id : BranchId} {spot behind : Spot} {leg : Leg} (h : g.Takes id spot leg behind)
      (hshort : behind.ahead.length < 2) : Route g id spot [leg] behind
  | onward {id : BranchId} {spot behind last : Spot} {leg : Leg} {legs : List Leg}
      (h : g.Takes id spot leg behind) (hlong : 2 ≤ behind.ahead.length)
      (hrest : Route g leg.branch (behind.after 1) legs last) : Route g id spot (leg :: legs) last

/-- Whether a route reads the input to its end and ends at a branch with the given callback. -/
def Accepts (g : Grammar) (id : BranchId) (spot : Spot) (legs : List Leg)
    (callback : Callback) : Prop :=
  ∃ last, g.Route id spot legs last ∧ last.ahead = [] ∧
    (legs.map Leg.branch).getLast?.bind g.callbackOf = some callback

/-- Whether one route comes before another where children are tried in order, depth first: where
they part, its branch stands earlier. -/
inductive Earlier (g : Grammar) : BranchId → List Leg → List Leg → Prop
  | parting {id : BranchId} {a b : Leg} {as bs : List Leg}
      (h : (g.childrenOf id).items.idxOf a.branch < (g.childrenOf id).items.idxOf b.branch) :
      Earlier g id (a :: as) (b :: bs)
  | later {id : BranchId} {a : Leg} {as bs : List Leg} (h : Earlier g a.branch as bs) :
      Earlier g id (a :: as) (a :: bs)

/-- Of two routes one at most is the earlier one. -/
theorem Earlier.asymm {as bs : List Leg} (h : g.Earlier id as bs) : ¬ g.Earlier id bs as := by
  induction h with
  | parting h =>
    intro h'
    cases h' with
    | parting h' => exact Nat.lt_asymm h h'
    | later => exact Nat.lt_irrefl _ h
  | later h ih =>
    intro h'
    cases h' with
    | parting h' => exact Nat.lt_irrefl _ h'
    | later h' => exact ih h'

/-- The places that a search comes to, and the branches that it has reached there. -/
inductive Visits (g : Grammar) : BranchId → Spot → BranchId → Spot → Prop
  | here (id : BranchId) (spot : Spot) : Visits g id spot id spot
  | onward {id b : BranchId} {spot behind s : Spot} {leg : Leg} (h : g.Takes id spot leg behind)
      (hlong : 2 ≤ behind.ahead.length) (hrest : Visits g leg.branch (behind.after 1) b s) :
      Visits g id spot b s

/-- Whether a search comes to a token that a branch tried there neither reads nor complains
about. -/
def Trips (g : Grammar) (id : BranchId) (spot : Spot) (fault : DatumFault) : Prop :=
  ∃ b s c B, g.Visits id spot b s ∧ g.Offers b s.word c ∧ g.branch? c = some B ∧
    readToken B s.ahead = .error (.datum fault)

theorem Takes.unique {leg leg' : Leg} {behind behind' : Spot} (h : g.Takes id spot leg behind)
    (h' : g.Takes id spot leg' behind') (hbranch : leg.branch = leg'.branch) :
    leg = leg' ∧ behind = behind' := by
  obtain ⟨c, argument⟩ := leg
  obtain ⟨c', argument'⟩ := leg'
  cases hbranch
  obtain ⟨-, B, token, hB, hread, rfl⟩ := h
  obtain ⟨-, B', token', hB', hread', rfl⟩ := h'
  dsimp only at hB hB' hread hread'
  rw [hB] at hB'
  cases hB'
  rw [hread] at hread'
  cases hread'
  exact ⟨rfl, rfl⟩

/-- A leg followed by a route that is accepted, or by nothing at the end of the input. -/
theorem accepts_cons_iff {leg : Leg} {behind : Spot} (h : g.Takes id spot leg behind)
    {legs : List Leg} {callback : Callback} :
    g.Accepts id spot (leg :: legs) callback ↔
      (behind.ahead.length < 2 ∧ legs = [] ∧ behind.ahead = [] ∧
          g.callbackOf leg.branch = some callback) ∨
        (2 ≤ behind.ahead.length ∧ g.Accepts leg.branch (behind.after 1) legs callback) := by
  constructor
  · rintro ⟨last, hroute, hend, hcall⟩
    cases hroute with
    | stop h' hshort =>
      obtain ⟨-, rfl⟩ := h.unique h' rfl
      exact Or.inl ⟨hshort, rfl, hend, hcall⟩
    | onward h' hlong hrest =>
      obtain ⟨-, rfl⟩ := h.unique h' rfl
      refine Or.inr ⟨hlong, last, hrest, hend, ?_⟩
      cases hrest <;> simpa using hcall
  · rintro (⟨hshort, rfl, hend, hcall⟩ | ⟨hlong, last, hrest, hend, hcall⟩)
    · exact ⟨behind, .stop h hshort, hend, hcall⟩
    · refine ⟨last, .onward h hlong hrest, hend, ?_⟩
      cases hrest <;> simpa using hcall

/-! ## What is tried -/

theorem mem_eligible_iff {word : String} {c : BranchId} :
    c ∈ g.eligible id word ↔ g.Offers id word c := by
  have hword : ∀ other, other ∈ ((g.childrenOf id).items.filter fun c =>
      (g.branch? c).any (·.matchesWord word)) ↔ g.HasWord id word other := fun other =>
    List.mem_filter
  by_cases hnone : ∀ other, ¬ g.HasWord id word other
  · rw [eligible_of_no_word hnone, List.mem_filter]
    exact ⟨fun h => Or.inr ⟨hnone, h⟩, fun h => h.elim (fun h => absurd h (hnone c)) (·.2)⟩
  · obtain ⟨other, hother⟩ := not_forall_not.mp hnone
    have hne : ((g.childrenOf id).items.filter fun c =>
        (g.branch? c).any (·.matchesWord word)).isEmpty = false := by
      rw [List.isEmpty_eq_false_iff_exists_mem]
      exact ⟨other, (hword other).mpr hother⟩
    rw [eligible]
    simp only [hne, Bool.false_eq_true, if_false, hword]
    exact ⟨Or.inl, fun h => h.elim (fun h => h) (fun h => absurd h.1 hnone)⟩

theorem Offers.exists_branch {word : String} {c : BranchId} (h : g.Offers id word c) :
    ∃ B, g.branch? c = some B := by
  rcases h with ⟨-, hmatch⟩ | ⟨-, -, hslot⟩
  · obtain ⟨B, hB, -⟩ := (Option.any_eq_true _ _).mp hmatch
    exact ⟨B, hB⟩
  · obtain ⟨B, hB, -⟩ := (Option.any_eq_true _ _).mp hslot
    exact ⟨B, hB⟩

/-- A word is read wherever it is what is next and may be tried. -/
theorem takes_of_hasWord {c : BranchId} (h : g.HasWord id spot.word c) :
    g.Takes id spot ⟨c, none⟩ (spot.after (firstWord spot.ahead).length) := by
  obtain ⟨B, hB, hmatch⟩ := (Option.any_eq_true _ _).mp h.2
  exact ⟨Or.inl h, B, firstWord spot.ahead, hB, readToken_word hmatch rfl, rfl⟩

/-- What may be tried is listed in the order of the children. -/
theorem exists_eligible_eq_filter (g : Grammar) (id : BranchId) (word : String) :
    ∃ p : BranchId → Bool, g.eligible id word = (g.childrenOf id).items.filter p := by
  unfold eligible
  dsimp only
  split <;> exact ⟨_, rfl⟩

/-! ## How far a route comes -/

/-- What a branch reads is a beginning of what is ahead. Words and slots read up to a space. -/
theorem split_of_readToken {B : Branch} {cs token : List Char}
    {argument : Option (String × ParsedArgument)} (h : readToken B cs = .ok (token, argument)) :
    ∃ rest, cs = token ++ rest ∧
      (B.kind = .start ∨ rest = [] ∨ ∃ tail, rest = ' ' :: tail) := by
  cases hk : B.kind with
  | start =>
    rw [readToken, hk] at h
    cases h
    exact ⟨cs, rfl, Or.inl rfl⟩
  | word name redirect =>
    rw [readToken, hk] at h
    dsimp only at h
    split at h
    · cases h
      obtain ⟨rest, hsplit, hrest⟩ := firstWord_append_rest cs
      exact ⟨rest, hsplit, Or.inr hrest⟩
    · cases h
  | slot name cls =>
    rw [readToken, hk] at h
    dsimp only at h
    cases haccept : cls.accept (String.ofList (cls.take cs)) with
    | error fault =>
      rw [haccept] at h
      cases h
    | ok v =>
      rw [haccept] at h
      cases h
      obtain ⟨rest, hsplit, hrest⟩ := cls.take_split cs
      exact ⟨rest, hsplit, Or.inr hrest⟩

theorem length_le_of_readToken {B : Branch} {cs token : List Char}
    {argument : Option (String × ParsedArgument)} (h : readToken B cs = .ok (token, argument)) :
    token.length ≤ cs.length := by
  obtain ⟨rest, hsplit, -⟩ := split_of_readToken h
  rw [hsplit, List.length_append]
  exact Nat.le_add_right _ _

theorem total_after {spot : Spot} {n : Nat} (h : n ≤ spot.ahead.length) :
    (spot.after n).offset + (spot.after n).ahead.length = spot.offset + spot.ahead.length := by
  simp only [Spot.after, List.length_drop]
  omega

theorem Takes.total {leg : Leg} {behind : Spot} (h : g.Takes id spot leg behind) :
    behind.offset + behind.ahead.length = spot.offset + spot.ahead.length := by
  obtain ⟨-, B, token, -, hread, rfl⟩ := h
  exact total_after (length_le_of_readToken hread)

theorem Takes.shorter {leg : Leg} {behind : Spot} (h : g.Takes id spot leg behind)
    (hlong : 2 ≤ behind.ahead.length) :
    (behind.after 1).ahead.length < spot.ahead.length ∧ (behind.after 1).ahead ≠ [] := by
  obtain ⟨-, B, token, -, -, rfl⟩ := h
  have hdrop : ((spot.after token.length).after 1).ahead.length
      = spot.ahead.length - token.length - 1 := by
    simp only [Spot.after, List.length_drop]
  have hlen : (spot.after token.length).ahead.length = spot.ahead.length - token.length := by
    simp only [Spot.after, List.length_drop]
  refine ⟨by omega, fun hnil => ?_⟩
  rw [hnil, List.length_nil] at hdrop
  omega

theorem Route.exists_cons {legs : List Leg} {last : Spot} (h : g.Route id spot legs last) :
    ∃ leg rest behind, legs = leg :: rest ∧ g.Takes id spot leg behind := by
  cases h with
  | stop h => exact ⟨_, _, _, rfl, h⟩
  | onward h => exact ⟨_, _, _, rfl, h⟩

/-! ## Tokens that trip a search -/

theorem forall₂_of_mapM {α β ε : Type} {f : α → Except ε β} {xs : List α} {ys : List β}
    (h : xs.mapM f = .ok ys) : List.Forall₂ (fun x y => f x = .ok y) xs ys := by
  induction xs generalizing ys with
  | nil =>
    rw [List.mapM_nil] at h
    cases h
    exact .nil
  | cons x xs ih =>
    rw [List.mapM_cons] at h
    cases hx : f x with
    | error e =>
      rw [hx] at h
      cases h
    | ok y =>
      rw [hx] at h
      cases hxs : xs.mapM f with
      | error e =>
        rw [hxs] at h
        cases h
      | ok rest =>
        rw [hxs] at h
        cases h
        exact .cons hx (ih hxs)

theorem exists_error_of_mapM {α β ε : Type} {f : α → Except ε β} {xs : List α} {e : ε}
    (h : xs.mapM f = .error e) : ∃ x ∈ xs, f x = .error e := by
  induction xs with
  | nil => cases h
  | cons x xs ih =>
    rw [List.mapM_cons] at h
    cases hx : f x with
    | error e' =>
      rw [hx] at h
      cases h
      exact ⟨x, List.mem_cons_self .., hx⟩
    | ok y =>
      rw [hx] at h
      cases hxs : xs.mapM f with
      | ok rest =>
        rw [hxs] at h
        cases h
      | error e' =>
        rw [hxs] at h
        cases h
        obtain ⟨x', hx', hf⟩ := ih hxs
        exact ⟨x', List.mem_cons_of_mem _ hx', hf⟩

theorem exists_ok_of_mapM {α β ε : Type} {f : α → Except ε β} {xs : List α} {ys : List β}
    (h : xs.mapM f = .ok ys) {x : α} (hx : x ∈ xs) : ∃ y, f x = .ok y := by
  have hall := forall₂_of_mapM h
  clear h
  induction hall with
  | nil => cases hx
  | cons hfirst _ ih =>
    rcases List.mem_cons.mp hx with rfl | hx
    · exact ⟨_, hfirst⟩
    · exact ih hx

/-- Only slots break off an attempt, where their class neither reads a token nor complains. -/
theorem readToken_eq_datum_iff {B : Branch} {cs : List Char} {fault : DatumFault} :
    readToken B cs = .error (.datum fault) ↔ ∃ name cls, B.kind = .slot name cls ∧
      cls.accept (String.ofList (cls.take cs)) = .error (.datum fault) := by
  cases hk : B.kind with
  | start => simp [readToken, hk]
  | word name redirect =>
    rw [readToken, hk]
    dsimp only
    split <;> simp
  | slot name cls =>
    rw [readToken, hk]
    dsimp only
    cases haccept : cls.accept (String.ofList (cls.take cs)) <;>
      simp [haccept, bind, Except.bind]

/-- An attempt is broken off at its own token, or in the search behind it. -/
theorem attempt_eq_error {c : BranchId} {fault : Fault} (hoffer : g.Offers id spot.word c)
    (h : g.attempt spot trail c = .error fault) :
    (∃ B f, g.branch? c = some B ∧ readToken B spot.ahead = .error (.datum f) ∧
        fault = .datum f) ∨
      ∃ leg behind t, g.Takes id spot leg behind ∧ 2 ≤ behind.ahead.length ∧
        g.walk leg.branch (behind.after 1) t = .error fault := by
  obtain ⟨B, hB⟩ := hoffer.exists_branch
  rw [attempt, hB] at h
  dsimp only at h
  cases hread : readToken B spot.ahead with
  | error f =>
    rw [hread] at h
    cases f with
    | complaint k => cases h
    | datum f =>
      cases h
      exact Or.inl ⟨B, f, hB, hread, rfl⟩
  | ok read =>
    obtain ⟨token, argument⟩ := read
    rw [hread] at h
    dsimp only [resume] at h
    by_cases hlong : 2 ≤ (spot.after token.length).ahead.length
    · rw [if_pos hlong] at h
      exact Or.inr ⟨⟨c, argument⟩, _, _, ⟨hoffer, B, token, hB, hread, rfl⟩, hlong, h⟩
    · rw [if_neg hlong] at h
      cases h

/-- A search that is broken off has come to a token that trips it, and says how. -/
theorem trips_of_walk {fault : Fault} (h : g.walk id spot trail = .error fault) :
    ∃ f, fault = .datum f ∧ g.Trips id spot f := by
  induction hlen : spot.ahead.length using Nat.strongRecOn generalizing id spot trail with
  | ind len ih =>
    rw [walk_eq] at h
    cases hattempts : (g.eligible id spot.word).mapM (g.attempt spot trail) with
    | ok attempts =>
      rw [hattempts] at h
      cases h
    | error e =>
      rw [hattempts] at h
      cases h
      obtain ⟨c, hc, hattempt⟩ := exists_error_of_mapM hattempts
      have hoffer := mem_eligible_iff.mp hc
      rcases attempt_eq_error hoffer hattempt with
        ⟨B, f, hB, hread, rfl⟩ | ⟨leg, behind, t, htakes, hlong, hwalk⟩
      · exact ⟨f, rfl, id, spot, c, B, .here id spot, hoffer, hB, hread⟩
      · obtain ⟨f, hf, b, s, c', B, hvisits, hrest⟩ :=
          ih _ (hlen ▸ (htakes.shorter hlong).1) hwalk rfl
        exact ⟨f, hf, b, s, c', B, .onward htakes hlong hvisits, hrest⟩

/-- A search that is not broken off has made an attempt at each branch that may be tried. -/
theorem exists_attempt_of_walk {c : BranchId} (h : g.walk id spot trail = .ok a)
    (hoffer : g.Offers id spot.word c) : ∃ b, g.attempt spot trail c = .ok b := by
  rw [walk_eq] at h
  cases hattempts : (g.eligible id spot.word).mapM (g.attempt spot trail) with
  | error e =>
    rw [hattempts] at h
    cases h
  | ok attempts => exact exists_ok_of_mapM hattempts (mem_eligible_iff.mpr hoffer)

/-- A search that comes to a token that trips it is broken off. -/
theorem walk_ne_ok_of_trips {fault : DatumFault} (h : g.Trips id spot fault) (trail : Trail)
    (a : Attempt) : g.walk id spot trail ≠ .ok a := by
  obtain ⟨b, s, c, B, hvisits, hoffer, hB, hread⟩ := h
  induction hvisits generalizing trail a with
  | here id spot =>
    intro hwalk
    obtain ⟨b, hb⟩ := exists_attempt_of_walk hwalk hoffer
    rw [attempt, hB] at hb
    dsimp only at hb
    rw [hread] at hb
    cases hb
  | @onward _ _ _ _ _ leg htakes hlong _ ih =>
    intro hwalk
    obtain ⟨hoffer', B', token, hB', hread', rfl⟩ := htakes
    obtain ⟨b, hb⟩ := exists_attempt_of_walk hwalk hoffer'
    rw [attempt, hB'] at hb
    dsimp only at hb
    rw [hread'] at hb
    dsimp only at hb
    rw [resume, if_pos hlong] at hb
    exact ih _ _ hoffer hread hb

end Grammar
end CommandTree
