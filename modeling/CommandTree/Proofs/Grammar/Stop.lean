import CommandTree.Proofs.Grammar.FirstRoute

/-!
# Where a search stops

Of the attempts that do not succeed the search keeps one that has come farthest. What it has come to
is said here without the attempts: a search stops where nothing is tried, where a branch refuses a
token, and behind a token that nothing follows but a separator at most. An input that is not read is
refused at the stop that lies farthest behind its start, and of those that lie there at the first,
in the order in which children are tried, depth first.

* `Stops.unique`: a path stops once
* `Reports.better`: the better of two attempts that fail reports the farthest stop of both
* `farthestFirst_of_walk`: a search that fails has come to the farthest stop
* `Stops.atEdge`: stops lie where a token begins, or at the end of the input
* `parse_eq_failure_iff_farthest_stop`: which inputs are refused, where, and with which complaint
-/

namespace CommandTree

/-- Where a search has stopped, and what a branch complained about there, if it was because of a
branch. -/
structure Stop where
  spot : Spot
  complaint : Option Complaint

namespace Grammar

variable {g : Grammar} {id : BranchId} {spot : Spot}

/-! ## Stops -/

/-- The stops of a search from a place on, at which a branch has been reached, and the paths to
them. The branch that refuses a token is part of the path. -/
inductive Stops (g : Grammar) : BranchId → Spot → List Leg → Stop → Prop
  | nothing {id : BranchId} {spot : Spot} (h : ∀ c, ¬ g.Offers id spot.word c) :
      Stops g id spot [] ⟨spot, none⟩
  | refused {id c : BranchId} {spot : Spot} {B : Branch} {k : Complaint}
      (hoffer : g.Offers id spot.word c) (hB : g.branch? c = some B)
      (h : readToken B spot.ahead = .error (.complaint k)) :
      Stops g id spot [⟨c, none⟩] ⟨spot, some k⟩
  | ended {id : BranchId} {spot behind : Spot} {leg : Leg} (h : g.Takes id spot leg behind)
      (hshort : behind.ahead.length < 2) : Stops g id spot [leg] ⟨behind, none⟩
  | onward {id : BranchId} {spot behind : Spot} {leg : Leg} {legs : List Leg} {stop : Stop}
      (h : g.Takes id spot leg behind) (hlong : 2 ≤ behind.ahead.length)
      (hrest : Stops g leg.branch (behind.after 1) legs stop) : Stops g id spot (leg :: legs) stop

/-- Whether a stop comes before another one, or is the same: it lies farther behind the start, or
equally far and its path comes earlier. -/
def Outdoes (g : Grammar) (id : BranchId) (legs : List Leg) (stop : Stop) (legs' : List Leg)
    (stop' : Stop) : Prop :=
  stop'.spot.offset < stop.spot.offset ∨
    (stop'.spot.offset = stop.spot.offset ∧ (legs' = legs ∨ g.Earlier id legs legs'))

/-- Whether a stop comes before all others. -/
def FarthestFirst (g : Grammar) (id : BranchId) (spot : Spot) (legs : List Leg)
    (stop : Stop) : Prop :=
  g.Stops id spot legs stop ∧
    ∀ legs' stop', g.Stops id spot legs' stop' → g.Outdoes id legs stop legs' stop'

/-- What an input is told to be refused for at a stop: what a branch complained about, or else that
more is needed, that no command begins like that, or that more follows than is taken. -/
def complaintAt (legs : List Leg) (stop : Stop) : Complaint :=
  match stop.complaint with
  | some k => k
  | none =>
    if stop.spot.ahead.isEmpty then .incomplete
    else if legs.isEmpty then .unknown
    else .excess

/-- A route is a path that stops where the route does. -/
theorem Route.stops {legs : List Leg} {last : Spot} (h : g.Route id spot legs last) :
    g.Stops id spot legs ⟨last, none⟩ := by
  induction h with
  | stop h hshort => exact .ended h hshort
  | onward h hlong _ ih => exact .onward h hlong ih

theorem Stops.exists_cons {legs : List Leg} {stop : Stop} (h : g.Stops id spot legs stop)
    {c : BranchId} (hoffer : g.Offers id spot.word c) :
    ∃ leg rest, legs = leg :: rest ∧ leg.branch ∈ g.eligible id spot.word := by
  cases h with
  | nothing hnone => exact absurd hoffer (hnone c)
  | refused hoffer' => exact ⟨_, _, rfl, mem_eligible_iff.mpr hoffer'⟩
  | ended h => exact ⟨_, _, rfl, mem_eligible_iff.mpr h.1⟩
  | onward h => exact ⟨_, _, rfl, mem_eligible_iff.mpr h.1⟩

theorem Stops.of_not_offers {legs : List Leg} {stop : Stop} (h : g.Stops id spot legs stop)
    (hnone : ∀ c, ¬ g.Offers id spot.word c) : legs = [] ∧ stop = ⟨spot, none⟩ := by
  cases h with
  | nothing => exact ⟨rfl, rfl⟩
  | refused hoffer => exact absurd hoffer (hnone _)
  | ended h => exact absurd h.1 (hnone _)
  | onward h => exact absurd h.1 (hnone _)

/-- A path whose first branch refuses its token stops there. -/
theorem Stops.of_refused {B : Branch} {k : Complaint} {leg : Leg} {legs : List Leg} {stop : Stop}
    (h : g.Stops id spot (leg :: legs) stop) (hB : g.branch? leg.branch = some B)
    (hread : readToken B spot.ahead = .error (.complaint k)) :
    leg :: legs = [⟨leg.branch, none⟩] ∧ stop = ⟨spot, some k⟩ := by
  have hno : ∀ behind, ¬ g.Takes id spot leg behind := by
    rintro behind ⟨-, B', token, hB', hread', -⟩
    rw [hB] at hB'
    cases hB'
    rw [hread] at hread'
    cases hread'
  cases h with
  | refused _ hB' hread' =>
    rw [hB] at hB'
    cases hB'
    rw [hread] at hread'
    cases hread'
    exact ⟨rfl, rfl⟩
  | ended h => exact absurd h (hno _)
  | onward h => exact absurd h (hno _)

/-- A path whose first branch takes its token stops behind it, or where its rest stops. -/
theorem Stops.of_takes {leg leg' : Leg} {behind : Spot} {legs : List Leg} {stop : Stop}
    (h : g.Stops id spot (leg' :: legs) stop) (htakes : g.Takes id spot leg behind)
    (hbranch : leg'.branch = leg.branch) :
    leg' = leg ∧ ((behind.ahead.length < 2 ∧ legs = [] ∧ stop = ⟨behind, none⟩) ∨
      (2 ≤ behind.ahead.length ∧ g.Stops leg.branch (behind.after 1) legs stop)) := by
  cases h with
  | refused _ hB hread =>
    obtain ⟨-, B', token, hB', hread', -⟩ := htakes
    cases hbranch
    rw [hB] at hB'
    cases hB'
    rw [hread] at hread'
    cases hread'
  | ended h hshort =>
    obtain ⟨rfl, rfl⟩ := h.unique htakes hbranch
    exact ⟨rfl, Or.inl ⟨hshort, rfl, rfl⟩⟩
  | onward h hlong hrest =>
    obtain ⟨rfl, rfl⟩ := h.unique htakes hbranch
    exact ⟨rfl, Or.inr ⟨hlong, hrest⟩⟩

/-- **A path stops once.** -/
theorem Stops.unique {legs : List Leg} {stop stop' : Stop} (h : g.Stops id spot legs stop)
    (h' : g.Stops id spot legs stop') : stop = stop' := by
  induction h generalizing stop' with
  | nothing hnone => exact (h'.of_not_offers hnone).2.symm
  | refused _ hB hread => exact (h'.of_refused hB hread).2.symm
  | ended htakes hshort =>
    rcases (h'.of_takes htakes rfl).2 with ⟨-, -, hstop⟩ | ⟨hlong, -⟩
    · exact hstop.symm
    · exact absurd hlong (Nat.not_le_of_lt hshort)
  | onward htakes hlong _ ih =>
    rcases (h'.of_takes htakes rfl).2 with ⟨hshort, -⟩ | ⟨-, hrest⟩
    · exact absurd hlong (Nat.not_le_of_lt hshort)
    · exact ih hrest

theorem Outdoes.offset_le {legs legs' : List Leg} {stop stop' : Stop}
    (h : g.Outdoes id legs stop legs' stop') : stop'.spot.offset ≤ stop.spot.offset := by
  rcases h with hlt | ⟨heq, -⟩
  · exact Nat.le_of_lt hlt
  · exact Nat.le_of_eq heq

theorem Outdoes.antisymm {legs legs' : List Leg} {stop stop' : Stop}
    (h : g.Outdoes id legs stop legs' stop') (h' : g.Outdoes id legs' stop' legs stop) :
    legs = legs' := by
  have hle := h.offset_le
  rcases h with hlt | ⟨-, heq | hearlier⟩
  · exact absurd hlt (Nat.not_lt_of_le h'.offset_le)
  · exact heq.symm
  · rcases h' with hlt | ⟨-, heq | hlater⟩
    · exact absurd hlt (Nat.not_lt_of_le hle)
    · exact heq
    · exact absurd hlater hearlier.asymm

/-- There is only one stop that comes before all others. -/
theorem FarthestFirst.unique {legs legs' : List Leg} {stop stop' : Stop}
    (h : g.FarthestFirst id spot legs stop) (h' : g.FarthestFirst id spot legs' stop') :
    legs = legs' ∧ stop = stop' := by
  obtain rfl := (h.2 _ _ h'.1).antisymm (h'.2 _ _ h.1)
  exact ⟨rfl, h.1.unique h'.1⟩

/-! ## What an attempt that fails reports -/

/-- Whether an attempt has come to a stop, and knows the branches on the path if no branch has
complained. -/
structure Marks (trail : Trail) (legs : List Leg) (stop : Stop) (a : Attempt) : Prop where
  spot : a.spot = stop.spot
  complaint : a.complaint = stop.complaint
  branches : stop.complaint = none → a.trail.branches = trail.branches ++ legs.map Leg.branch

/-- What an attempt that fails says about the paths that begin with one of some branches: it has
come to the stop that comes before those of all others. -/
def Reports (g : Grammar) (id : BranchId) (spot : Spot) (trail : Trail) (via : List BranchId)
    (a : Attempt) : Prop :=
  g.succeeds a = false → ∃ leg legs stop, leg.branch ∈ via ∧
    g.Stops id spot (leg :: legs) stop ∧ Marks trail (leg :: legs) stop a ∧
    ∀ leg' legs' stop', leg'.branch ∈ via → g.Stops id spot (leg' :: legs') stop' →
      g.Outdoes id (leg :: legs) stop (leg' :: legs') stop'

variable {trail : Trail} {via : List BranchId} {a b : Attempt}

/-- **The better of two attempts that fail reports the farthest stop of both**, if the paths of the
second come later. -/
theorem Reports.better {c : BranchId} (ha : g.Reports id spot trail via a)
    (hb : g.Reports id spot trail [c] b)
    (hlater : c ∉ via → ∀ x ∈ via,
      (g.childrenOf id).items.idxOf x < (g.childrenOf id).items.idxOf c) :
    g.Reports id spot trail (via ++ [c]) (g.better a b) := by
  intro hs
  rw [succeeds_better, Bool.or_eq_false_iff] at hs
  obtain ⟨leg, legs, stop, hmem, hstops, hmarks, hfirst⟩ := ha hs.1
  obtain ⟨next, rest, halt, hnext, halts, hmarks', hfirst'⟩ := hb hs.2
  rw [Grammar.better, isBetter, hs.1, hs.2, if_pos rfl, hmarks.spot, hmarks'.spot]
  by_cases hfarther : stop.spot.offset < halt.spot.offset
  · rw [if_pos (decide_eq_true hfarther)]
    refine ⟨next, rest, halt, List.mem_append_right _ hnext, halts, hmarks', ?_⟩
    intro leg' legs' stop' hmem' hstops'
    rcases List.mem_append.mp hmem' with hvia | hc
    · have hle := (hfirst leg' legs' stop' hvia hstops').offset_le
      exact Or.inl (Nat.lt_of_le_of_lt hle hfarther)
    · exact hfirst' leg' legs' stop' hc hstops'
  · rw [if_neg (by simpa using hfarther)]
    refine ⟨leg, legs, stop, List.mem_append_left _ hmem, hstops, hmarks, ?_⟩
    intro leg' legs' stop' hmem' hstops'
    by_cases hvia : leg'.branch ∈ via
    · exact hfirst leg' legs' stop' hvia hstops'
    -- a stop under the second branch lies no farther, and its path comes later
    · have hc : leg'.branch ∈ [c] := (List.mem_append.mp hmem').resolve_left hvia
      have hle := (hfirst' leg' legs' stop' hc hstops').offset_le
      rw [List.mem_singleton] at hc
      rcases Nat.lt_or_eq_of_le (Nat.le_trans hle (Nat.le_of_not_lt hfarther)) with hlt | heq
      · exact Or.inl hlt
      · exact Or.inr ⟨heq, Or.inr (.parting (hc ▸ hlater (hc ▸ hvia) _ hmem))⟩

/-- An attempt at a branch reports the farthest stop of the paths that begin with the branch, if the
searches behind its token that fail have come to the farthest stops there. -/
theorem reports_of_attempt {c : BranchId} (hoffer : g.Offers id spot.word c)
    (hattempt : g.attempt spot trail c = .ok b)
    (hwalk : ∀ {leg behind}, g.Takes id spot leg behind → 2 ≤ behind.ahead.length → ∀ {t a},
      g.walk leg.branch (behind.after 1) t = .ok a → g.succeeds a = false →
        ∃ legs stop, g.FarthestFirst leg.branch (behind.after 1) legs stop ∧
          Marks t legs stop a) :
    g.Reports id spot trail [c] b := by
  intro hs
  obtain ⟨B, hB⟩ := hoffer.exists_branch
  rw [attempt, hB] at hattempt
  dsimp only at hattempt
  cases hread : readToken B spot.ahead with
  | error fault =>
    rw [hread] at hattempt
    cases fault with
    | datum fault => cases hattempt
    | complaint k =>
      cases hattempt
      refine ⟨⟨c, none⟩, [], ⟨spot, some k⟩, List.mem_singleton_self _, .refused hoffer hB hread,
        ⟨rfl, rfl, fun hnone => by cases hnone⟩, ?_⟩
      intro leg' legs' stop' hmem hstops
      rw [List.mem_singleton] at hmem
      obtain ⟨hlegs, rfl⟩ := hstops.of_refused (hmem ▸ hB) hread
      exact Or.inr ⟨rfl, Or.inl (hmem ▸ hlegs)⟩
  | ok read =>
    obtain ⟨token, argument⟩ := read
    rw [hread] at hattempt
    dsimp only [resume] at hattempt
    have htakes : g.Takes id spot ⟨c, argument⟩ (spot.after token.length) :=
      ⟨hoffer, B, token, hB, hread, rfl⟩
    by_cases hlong : 2 ≤ (spot.after token.length).ahead.length
    · rw [if_pos hlong] at hattempt
      obtain ⟨legs, stop, ⟨hstops, hfirst⟩, hmarks⟩ := hwalk htakes hlong hattempt hs
      refine ⟨⟨c, argument⟩, legs, stop, List.mem_singleton_self _, .onward htakes hlong hstops,
        ⟨hmarks.spot, hmarks.complaint, fun hnone => ?_⟩, ?_⟩
      · rw [hmarks.branches hnone]
        simp [extended]
      · intro leg' legs' stop' hmem hstops'
        obtain ⟨rfl, ⟨hshort, -⟩ | ⟨-, hrest⟩⟩ :=
          hstops'.of_takes htakes (List.mem_singleton.mp hmem)
        · exact absurd hlong (Nat.not_le_of_lt hshort)
        · rcases hfirst legs' stop' hrest with hlt | ⟨heq, rfl | hearlier⟩
          · exact Or.inl hlt
          · exact Or.inr ⟨heq, Or.inl rfl⟩
          · exact Or.inr ⟨heq, Or.inr (.later hearlier)⟩
    · rw [if_neg hlong] at hattempt
      cases hattempt
      refine ⟨⟨c, argument⟩, [], ⟨spot.after token.length, none⟩, List.mem_singleton_self _,
        .ended htakes (Nat.lt_of_not_le hlong), ⟨rfl, rfl, fun _ => rfl⟩, ?_⟩
      intro leg' legs' stop' hmem hstops'
      obtain ⟨rfl, ⟨-, rfl, rfl⟩ | ⟨hlong', -⟩⟩ :=
        hstops'.of_takes htakes (List.mem_singleton.mp hmem)
      · exact Or.inr ⟨rfl, Or.inl rfl⟩
      · exact absurd hlong' hlong

/-- **A search that fails has come to the farthest stop**, and of those that lie equally far to the
first. -/
theorem farthestFirst_of_walk (h : g.walk id spot trail = .ok a) (hs : g.succeeds a = false) :
    ∃ legs stop, g.FarthestFirst id spot legs stop ∧ Marks trail legs stop a := by
  -- behind a token less is ahead, whatever the branches look like
  induction hlen : spot.ahead.length using Nat.strongRecOn generalizing id spot trail a with
  | ind len ih =>
    by_cases hnone : ∀ c, ¬ g.Offers id spot.word c
    · have hel : g.eligible id spot.word = [] :=
        List.eq_nil_iff_forall_not_mem.mpr fun c hc => hnone c (mem_eligible_iff.mp hc)
      rw [walk_of_eligible_nil trail hel] at h
      cases h
      refine ⟨[], ⟨spot, none⟩, ⟨.nothing hnone, fun legs' stop' hstops => ?_⟩,
        ⟨rfl, rfl, fun _ => (List.append_nil _).symm⟩⟩
      obtain ⟨rfl, rfl⟩ := hstops.of_not_offers hnone
      exact Or.inr ⟨rfl, Or.inl rfl⟩
    · obtain ⟨c, hc⟩ := not_forall_not.mp hnone
      have hreports : g.Reports id spot trail (g.eligible id spot.word) a := by
        refine keeps_of_walk h ⟨c, hc⟩ (fun c' hoffer b hb => ?_) Reports.better
        refine reports_of_attempt hoffer hb fun htakes hlong _ _ hwalk hfails => ?_
        exact ih _ (hlen ▸ (htakes.shorter hlong).1) hwalk hfails rfl
      obtain ⟨leg, legs, stop, -, hstops, hmarks, hfirst⟩ := hreports hs
      refine ⟨leg :: legs, stop, ⟨hstops, fun legs' stop' hstops' => ?_⟩, hmarks⟩
      obtain ⟨leg', rest, rfl, hmem⟩ := hstops'.exists_cons hc
      exact hfirst leg' rest stop' hmem hstops'

/-! ## Where stops lie -/

/-- Whether a place lies in a text. -/
def Lies (cs : List Char) (spot : Spot) : Prop :=
  spot.ahead = cs.drop spot.offset ∧ spot.offset ≤ cs.length

/-- Whether a number of characters into a text a token begins, or the text ends but for a last
space: at the start, at the end, behind a space, or at a space with nothing behind it. -/
def AtEdge (cs : List Char) (offset : Nat) : Prop :=
  offset = 0 ∨ offset = cs.length ∨ (∃ before, offset = before + 1 ∧ cs[before]? = some ' ') ∨
    (cs[offset]? = some ' ' ∧ offset + 1 = cs.length)

theorem Lies.after {cs : List Char} {n : Nat} (h : Lies cs spot) (hn : n ≤ spot.ahead.length) :
    Lies cs (spot.after n) := by
  obtain ⟨hahead, hle⟩ := h
  rw [hahead, List.length_drop] at hn
  refine ⟨?_, ?_⟩
  · rw [Spot.after, hahead, List.drop_drop]
  · change spot.offset + n ≤ cs.length
    omega

theorem Takes.lies {cs : List Char} {leg : Leg} {behind : Spot} (h : g.Takes id spot leg behind)
    (hspot : Lies cs spot) : Lies cs behind := by
  obtain ⟨-, B, token, -, hread, rfl⟩ := h
  exact hspot.after (length_le_of_readToken hread)

/-- Behind a token there is nothing or a space. -/
theorem Takes.separated {leg : Leg} {behind : Spot} (h : g.Takes id spot leg behind) :
    behind.ahead = [] ∨ ∃ tail, behind.ahead = ' ' :: tail := by
  obtain ⟨hoffer, B, token, hB, hread, rfl⟩ := h
  obtain ⟨rest, hsplit, hstart | hrest⟩ := split_of_readToken hread
  · -- the start is never tried
    rcases hoffer with ⟨-, hword⟩ | ⟨-, -, hslot⟩
    · simp [hB, Branch.matchesWord, hstart] at hword
    · simp [hB, Branch.isSlot, hstart] at hslot
  · rw [ahead_after hsplit]
    exact hrest

/-- **Stops lie where a token begins, or at the end of the input.** -/
theorem Stops.atEdge {cs : List Char} {legs : List Leg} {stop : Stop}
    (h : g.Stops id spot legs stop) (hlies : Lies cs spot) (hedge : AtEdge cs spot.offset) :
    Lies cs stop.spot ∧ AtEdge cs stop.spot.offset := by
  induction h with
  | nothing => exact ⟨hlies, hedge⟩
  | refused => exact ⟨hlies, hedge⟩
  | @ended id spot behind leg htakes hshort =>
    obtain ⟨hahead, hle⟩ := htakes.lies hlies
    refine ⟨⟨hahead, hle⟩, ?_⟩
    rcases htakes.separated with hnil | ⟨tail, hcons⟩
    · rw [hnil, eq_comm, List.drop_eq_nil_iff] at hahead
      exact Or.inr (Or.inl (Nat.le_antisymm hle hahead))
    · rw [hcons] at hahead hshort
      refine Or.inr (Or.inr (Or.inr ⟨?_, ?_⟩))
      · rw [← List.head?_drop, ← hahead, List.head?_cons]
      · have hlen := congrArg List.length hahead
        rw [List.length_cons] at hlen hshort
        rw [List.length_drop] at hlen
        change behind.offset + 1 = cs.length
        omega
  | @onward id spot behind leg legs stop htakes hlong _ ih =>
    have hbehind := htakes.lies hlies
    rcases htakes.separated with hnil | ⟨tail, hcons⟩
    · rw [hnil] at hlong
      cases hlong
    · refine ih (hbehind.after (Nat.le_of_succ_le hlong)) (Or.inr (Or.inr (Or.inl ?_)))
      exact ⟨behind.offset, rfl, by rw [← List.head?_drop, ← hbehind.1, hcons, List.head?_cons]⟩

/-! ## What refuses a token -/

/-- Whether a slot refuses the token at a place of a text: its class says so when it reads there. -/
def SlotRefuses (g : Grammar) (cs : List Char) (offset : Nat) (failure : ParseFailure) : Prop :=
  ∃ c B name cls, g.branch? c = some B ∧ B.kind = .slot name cls ∧
    (cls.read ⟨String.ofList cs, offset⟩).1 = .error (.parse failure)

/-- A branch that refuses a token is a slot, which complains about the place of the stop. -/
theorem Stops.slotRefuses {cs : List Char} {legs : List Leg} {stop : Stop} {k : Complaint}
    (h : g.Stops id spot legs stop) (hlies : Lies cs spot) (hk : stop.complaint = some k) :
    g.SlotRefuses cs stop.spot.offset ⟨k, some (String.ofList cs), some stop.spot.offset⟩ := by
  induction h with
  | nothing => cases hk
  | @refused id c spot B k' hoffer hB hread =>
    cases hk
    obtain ⟨hahead, hle⟩ := hlies
    -- a word that is tried is read, so what refuses a token is a slot
    have hslot : B.isSlot = true := by
      rcases hoffer with hword | ⟨-, -, hslot⟩
      · obtain ⟨-, B', token, hB', hread', -⟩ := takes_of_hasWord hword
        rw [hB] at hB'
        cases hB'
        rw [hread] at hread'
        cases hread'
      · simpa [hB] using hslot
    cases hkind : B.kind with
    | start => simp [Branch.isSlot, hkind] at hslot
    | word name redirect => simp [Branch.isSlot, hkind] at hslot
    | slot name cls =>
      refine ⟨c, B, name, cls, hB, hkind, ?_⟩
      rw [readToken, hkind] at hread
      dsimp only at hread
      cases haccept : cls.accept (String.ofList (cls.take spot.ahead)) with
      | ok v =>
        rw [haccept] at hread
        cases hread
      | error fault =>
        rw [haccept] at hread
        cases hread
        rw [hahead, ← String.toList_ofList (l := cs)] at haccept
        rw [cls.read_within _ (by rw [String.toList_ofList]; exact hle), haccept]
        rfl
  | ended => cases hk
  | onward htakes hlong _ ih =>
    exact ih ((htakes.lies hlies).after (Nat.le_of_succ_le hlong)) hk

/-! ## Inputs that are refused -/

theorem complaintOf_of_marks {legs : List Leg} {stop : Stop} (h : Marks .empty legs stop a) :
    complaintOf a = complaintAt legs stop := by
  rw [complaintOf, complaintAt, h.complaint, h.spot]
  cases hk : stop.complaint with
  | some k => rfl
  | none =>
    have hbranches : a.trail.branches = legs.map Leg.branch := h.branches hk
    rw [hbranches, List.isEmpty_map]

/--
**An input is refused at the farthest stop.** An input is refused with a complaint exactly if the
search for it comes to no token that trips it and no route is accepted. The failure tells the input
without its slash, the place of the stop that lies farthest behind the start, and the complaint at
the first such stop in the order in which children are tried, depth first. That place lies in the
input and is an edge of it, and where it is a slot that has complained, the class of the slot says
the same when it reads at that place.
-/
theorem parse_eq_failure_iff_farthest_stop (g : Grammar) (start : BranchId)
    (source : Option Sender) (s : String) (failure : ParseFailure) :
    g.parse start source s = .error (.parse failure) ↔
      (∀ fault, ¬ g.Trips start ⟨0, withoutSlash s.toList⟩ fault) ∧
      (∀ legs callback, ¬ g.Accepts start ⟨0, withoutSlash s.toList⟩ legs callback) ∧
      ∃ legs stop, g.FarthestFirst start ⟨0, withoutSlash s.toList⟩ legs stop ∧
        failure = ⟨complaintAt legs stop, some (String.ofList (withoutSlash s.toList)),
          some stop.spot.offset⟩ ∧
        stop.spot.offset ≤ (withoutSlash s.toList).length ∧
        AtEdge (withoutSlash s.toList) stop.spot.offset ∧
        (stop.complaint.isSome = true →
          g.SlotRefuses (withoutSlash s.toList) stop.spot.offset failure) := by
  cases hwalk : g.walk start ⟨0, withoutSlash s.toList⟩ .empty with
  | error fault =>
    obtain ⟨f, rfl, htrips⟩ := trips_of_walk hwalk
    rw [parse_of_walk_error hwalk]
    constructor
    · intro h
      cases h
    · rintro ⟨hno, -⟩
      exact absurd htrips (hno f)
  | ok a =>
    have haccepts := (acceptsFirst_of_walk hwalk).1
    constructor
    · intro h
      have hs : g.succeeds a = false := by
        rw [Bool.eq_false_iff]
        intro hs
        obtain ⟨callback, hcall⟩ := Option.isSome_iff_exists.mp (isSome_calledAt hs)
        rw [parse_eq_ok_iff.mpr ⟨a, callback, ⟨hwalk, hs⟩, hcall, rfl⟩] at h
        cases h
      refine ⟨fun fault htrips => walk_ne_ok_of_trips htrips _ _ hwalk,
        fun legs callback haccept => ?_, ?_⟩
      · rw [haccepts.mpr ⟨legs, callback, haccept⟩] at hs
        cases hs
      obtain ⟨legs, stop, hfirst, hmarks⟩ := farthestFirst_of_walk hwalk hs
      rw [parse_of_fails hwalk hs, complaintOf_of_marks hmarks, hmarks.spot] at h
      cases h
      have hlies : Lies (withoutSlash s.toList) ⟨0, withoutSlash s.toList⟩ := ⟨rfl, Nat.zero_le _⟩
      obtain ⟨⟨-, hle⟩, hedge⟩ := hfirst.1.atEdge hlies (Or.inl rfl)
      refine ⟨legs, stop, hfirst, rfl, hle, hedge, fun hsome => ?_⟩
      obtain ⟨k, hk⟩ := Option.isSome_iff_exists.mp hsome
      rw [complaintAt, hk]
      exact hfirst.1.slotRefuses hlies hk
    · rintro ⟨-, hnone, legs, stop, hfirst, rfl, -⟩
      have hs : g.succeeds a = false := by
        rw [Bool.eq_false_iff]
        intro hs
        obtain ⟨legs', callback, haccept⟩ := haccepts.mp hs
        exact hnone legs' callback haccept
      obtain ⟨legs', stop', hfirst', hmarks⟩ := farthestFirst_of_walk hwalk hs
      obtain ⟨rfl, rfl⟩ := hfirst.unique hfirst'
      rw [parse_of_fails hwalk hs, complaintOf_of_marks hmarks, hmarks.spot]

/-! ## A token that is refused before the farthest stop -/

theorem notes_takes_short : notes.Takes 0 ⟨0, "n maybe x".toList⟩ ⟨2, none⟩
    ⟨1, " maybe x".toList⟩ :=
  ⟨Or.inl ⟨by decide, rfl⟩, _, ['n'], rfl, rfl, rfl⟩

theorem notes_takes_maybe : notes.Takes 2 ⟨2, "maybe x".toList⟩
    ⟨4, some ("title", ⟨"maybe", .text "maybe"⟩)⟩ ⟨7, " x".toList⟩ :=
  ⟨mem_eligible_iff.mp (by decide), _, "maybe".toList, rfl, rfl, rfl⟩

theorem notes_offers_nothing (c : BranchId) : ¬ notes.Offers 4 (Spot.word ⟨8, ['x']⟩) c := by
  rw [← mem_eligible_iff]
  decide +revert

/-- Under the alias two slots are tried, and the search stops twice. -/
theorem notes_stops_iff {legs : List Leg} {stop : Stop} :
    notes.Stops 0 ⟨0, "n maybe x".toList⟩ legs stop ↔
      (legs = [⟨2, none⟩, ⟨3, none⟩] ∧
          stop = ⟨⟨2, "maybe x".toList⟩, some (.notBoolean "maybe")⟩) ∨
        (legs = [⟨2, none⟩, ⟨4, some ("title", ⟨"maybe", .text "maybe"⟩)⟩] ∧
          stop = ⟨⟨8, ['x']⟩, none⟩) := by
  have hloud : notes.Offers 2 (Spot.word ⟨2, "maybe x".toList⟩) 3 :=
    mem_eligible_iff.mp (by decide)
  constructor
  · intro h
    obtain ⟨first, rest, rfl, hfirst⟩ := h.exists_cons notes_takes_short.1
    obtain ⟨rfl, ⟨hshort, -⟩ | ⟨-, h⟩⟩ :=
      h.of_takes notes_takes_short (List.mem_singleton.mp hfirst)
    · exact absurd hshort (by decide)
    obtain ⟨⟨second, argument⟩, rest, rfl, hsecond⟩ := h.exists_cons hloud
    have hslots : second ∈ [3, 4] := hsecond
    rcases List.mem_pair.mp hslots with rfl | rfl
    · obtain ⟨hlegs, rfl⟩ := h.of_refused (k := .notBoolean "maybe") rfl rfl
      exact Or.inl ⟨by rw [hlegs], rfl⟩
    · obtain ⟨heq, ⟨hshort, -⟩ | ⟨-, h⟩⟩ := h.of_takes notes_takes_maybe rfl
      · exact absurd hshort (by decide)
      · obtain ⟨rfl, rfl⟩ := h.of_not_offers notes_offers_nothing
        exact Or.inr ⟨by rw [heq], rfl⟩
  · rintro (⟨rfl, rfl⟩ | ⟨rfl, rfl⟩)
    · exact .onward notes_takes_short (by decide) (.refused hloud rfl rfl)
    · exact .onward notes_takes_short (by decide)
        (.onward notes_takes_maybe (by decide) (.nothing notes_offers_nothing))

/-- The slot for a truth value refuses the second word. The slot for any word takes it, and the
third word is what the input is refused for. -/
theorem parse_eq_failure_iff_farthest_stop_notes :
    notes.Stops 0 ⟨0, "n maybe x".toList⟩ [⟨2, none⟩, ⟨3, none⟩]
        ⟨⟨2, "maybe x".toList⟩, some (.notBoolean "maybe")⟩ ∧
      notes.parse 0 none "/n maybe x"
        = .error (.parse ⟨.excess, some "n maybe x", some 8⟩) := by
  refine ⟨notes_stops_iff.mpr (Or.inl ⟨rfl, rfl⟩), ?_⟩
  refine (parse_eq_failure_iff_farthest_stop notes 0 none "/n maybe x" _).mpr
    ⟨notes_trips _, ?_, _, _, ⟨notes_stops_iff.mpr (Or.inr ⟨rfl, rfl⟩), ?_⟩, rfl, by decide,
      Or.inr (Or.inr (Or.inl ⟨7, rfl, rfl⟩)), fun hsome => by cases hsome⟩
  · rintro legs callback ⟨last, hroute, hend, -⟩
    rcases notes_stops_iff.mp hroute.stops with ⟨-, hstop⟩ | ⟨-, hstop⟩ <;> cases hstop
    cases hend
  · intro legs stop hstops
    rcases notes_stops_iff.mp hstops with ⟨rfl, rfl⟩ | ⟨rfl, rfl⟩
    · exact Or.inl (by decide)
    · exact Or.inr ⟨rfl, Or.inl rfl⟩

end Grammar

end CommandTree
