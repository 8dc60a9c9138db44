import CommandTree.Proofs.Grammar.Route
import CommandTree.Proofs.Parameter.Oversize

/-!
# The route that an input is read as

The search keeps one attempt per branch, the best of all that were made below it. No route is lost
that way: an attempt succeeds exactly if a route that it stands for is accepted, and then it has
followed the first of these, in the order in which children are tried, depth first.

* `Settles.better`: the better of two attempts settles the routes of both
* `keeps_of_walk`: what carries over to the better of two attempts holds of the search
* `settles_of_walk`: a search settles all routes
* `parse_eq_ok_iff_first_route`: an input is read as the first route that is accepted
-/

namespace CommandTree

open Text

namespace Grammar

variable {g : Grammar} {id : BranchId} {spot : Spot}

/-! ## What an attempt settles -/

/-- What an attempt says about the routes that begin with one of some branches: it succeeds if one
of them is accepted, and then it is the first of these. -/
structure Settles (g : Grammar) (id : BranchId) (spot : Spot) (trail : Trail)
    (via : List BranchId) (a : Attempt) : Prop where
  complete : ∀ {leg legs callback}, leg.branch ∈ via → g.Accepts id spot (leg :: legs) callback →
    g.succeeds a = true
  sound : g.succeeds a = true → ∃ leg legs callback, leg.branch ∈ via ∧
    g.Accepts id spot (leg :: legs) callback ∧ a.trail = trail.along (leg :: legs) ∧
    a.spot.offset = spot.offset + spot.ahead.length ∧
    ∀ leg' legs' callback', leg'.branch ∈ via → g.Accepts id spot (leg' :: legs') callback' →
      leg' :: legs' = leg :: legs ∨ g.Earlier id (leg :: legs) (leg' :: legs')

variable {trail : Trail} {via : List BranchId} {a b : Attempt}

/-- **The better of two attempts settles the routes of both**, if those of the second come later. -/
theorem Settles.better {c : BranchId} (ha : g.Settles id spot trail via a)
    (hb : g.Settles id spot trail [c] b)
    (hlater : c ∉ via → ∀ x ∈ via,
      (g.childrenOf id).items.idxOf x < (g.childrenOf id).items.idxOf c) :
    g.Settles id spot trail (via ++ [c]) (g.better a b) where
  complete := by
    intro leg legs callback hmem haccept
    rw [succeeds_better, Bool.or_eq_true]
    rcases List.mem_append.mp hmem with hmem | hmem
    · exact Or.inl (ha.complete hmem haccept)
    · exact Or.inr (hb.complete hmem haccept)
  sound := by
    intro hs
    by_cases has : g.succeeds a = true
    · obtain ⟨leg, legs, callback, hmem, haccept, htrail, hoffset, hfirst⟩ := ha.sound has
      -- both attempts that succeed have come to the end, so the first of them is kept
      have hkeep : g.better a b = a := by
        rw [Grammar.better, isBetter, has]
        by_cases hbs : g.succeeds b = true
        · obtain ⟨-, -, -, -, -, -, hoffset', -⟩ := hb.sound hbs
          simp [hbs, hoffset, hoffset']
        · simp [hbs]
      rw [hkeep]
      refine ⟨leg, legs, callback, List.mem_append_left _ hmem, haccept, htrail, hoffset, ?_⟩
      intro leg' legs' callback' hmem' haccept'
      by_cases hvia : leg'.branch ∈ via
      · exact hfirst leg' legs' callback' hvia haccept'
      · have hc : leg'.branch = c :=
          List.mem_singleton.mp ((List.mem_append.mp hmem').resolve_left hvia)
        exact Or.inr (.parting (hc ▸ hlater (hc ▸ hvia) _ hmem))
    · have hbs : g.succeeds b = true := by
        rw [succeeds_better, Bool.or_eq_true] at hs
        exact hs.resolve_left has
      have hkeep : g.better a b = b := by
        simp [Grammar.better, isBetter, hbs, Bool.eq_false_iff.mpr has]
      obtain ⟨leg, legs, callback, hmem, haccept, htrail, hoffset, hfirst⟩ := hb.sound hbs
      rw [hkeep]
      refine ⟨leg, legs, callback, List.mem_append_right _ hmem, haccept, htrail, hoffset, ?_⟩
      intro leg' legs' callback' hmem' haccept'
      rcases List.mem_append.mp hmem' with hvia | hc
      · exact absurd (ha.complete hvia haccept') has
      · exact hfirst leg' legs' callback' hc haccept'

theorem Accepts.exists_takes {leg : Leg} {legs : List Leg} {callback : Callback}
    (h : g.Accepts id spot (leg :: legs) callback) : ∃ behind, g.Takes id spot leg behind := by
  obtain ⟨last, hroute, -⟩ := h
  obtain ⟨leg', rest, behind, heq, htakes⟩ := hroute.exists_cons
  cases heq
  exact ⟨behind, htakes⟩

theorem Accepts.exists_cons {legs : List Leg} {callback : Callback}
    (h : g.Accepts id spot legs callback) :
    ∃ leg rest, legs = leg :: rest ∧ leg.branch ∈ g.eligible id spot.word := by
  obtain ⟨last, hroute, -⟩ := h
  obtain ⟨leg, rest, behind, rfl, htakes⟩ := hroute.exists_cons
  exact ⟨leg, rest, rfl, mem_eligible_iff.mpr htakes.1⟩

/-- An attempt that ends behind its token settles the routes that begin with the branch. -/
theorem settles_of_short {leg : Leg} {behind : Spot} (h : g.Takes id spot leg behind)
    (hshort : behind.ahead.length < 2) :
    g.Settles id spot trail [leg.branch]
      ⟨behind, extended trail leg.branch leg.argument, none⟩ := by
  have hlast : (extended trail leg.branch leg.argument).branches.getLast? = some leg.branch :=
    List.getLast?_concat ..
  have hroute : ∀ {leg' legs' callback'}, leg'.branch ∈ [leg.branch] →
      g.Accepts id spot (leg' :: legs') callback' → leg' = leg ∧ legs' = [] ∧
        behind.ahead = [] ∧ g.callbackOf leg.branch = some callback' := by
    intro leg' legs' callback' hmem haccept
    obtain ⟨behind', htakes⟩ := haccept.exists_takes
    obtain ⟨rfl, rfl⟩ := htakes.unique h (List.mem_singleton.mp hmem)
    rcases (accepts_cons_iff h).mp haccept with ⟨-, hnil, hend, hcall⟩ | ⟨hlong, -⟩
    · exact ⟨rfl, hnil, hend, hcall⟩
    · exact absurd hlong (Nat.not_le_of_lt hshort)
  refine ⟨fun hmem haccept => ?_, fun hs => ?_⟩
  · obtain ⟨-, -, hend, hcall⟩ := hroute hmem haccept
    simp [succeeds, hend, hlast, hcall]
  · simp only [succeeds, hlast, Option.bind_some, Bool.and_eq_true, List.isEmpty_iff] at hs
    obtain ⟨callback, hcall⟩ := Option.isSome_iff_exists.mp hs.2
    refine ⟨leg, [], callback, List.mem_singleton_self _,
      (accepts_cons_iff h).mpr (Or.inl ⟨hshort, rfl, hs.1.2, hcall⟩), rfl, ?_, ?_⟩
    · have htotal := h.total
      rw [hs.1.2, List.length_nil, Nat.add_zero] at htotal
      exact htotal
    · intro leg' legs' callback' hmem haccept
      obtain ⟨rfl, rfl, -⟩ := hroute hmem haccept
      exact Or.inl rfl

/-- An attempt that goes on behind its token settles the routes that begin with the branch, if the
search below the branch settles all that go on from there. -/
theorem Settles.of_onward {leg : Leg} {behind : Spot} (h : g.Takes id spot leg behind)
    (hlong : 2 ≤ behind.ahead.length)
    (ha : g.Settles leg.branch (behind.after 1) (extended trail leg.branch leg.argument)
      (g.eligible leg.branch (behind.after 1).word) a) :
    g.Settles id spot trail [leg.branch] a := by
  have hroute : ∀ {leg' legs' callback'}, leg'.branch ∈ [leg.branch] →
      g.Accepts id spot (leg' :: legs') callback' → leg' = leg ∧
        g.Accepts leg.branch (behind.after 1) legs' callback' := by
    intro leg' legs' callback' hmem haccept
    obtain ⟨behind', htakes⟩ := haccept.exists_takes
    obtain ⟨rfl, rfl⟩ := htakes.unique h (List.mem_singleton.mp hmem)
    rcases (accepts_cons_iff h).mp haccept with ⟨hshort, -⟩ | ⟨-, hrest⟩
    · exact absurd hlong (Nat.not_le_of_lt hshort)
    · exact ⟨rfl, hrest⟩
  refine ⟨fun hmem haccept => ?_, fun hs => ?_⟩
  · obtain ⟨-, hrest⟩ := hroute hmem haccept
    obtain ⟨next, rest, rfl, hnext⟩ := hrest.exists_cons
    exact ha.complete hnext hrest
  · obtain ⟨next, rest, callback, -, haccept, htrail, hoffset, hfirst⟩ := ha.sound hs
    refine ⟨leg, next :: rest, callback, List.mem_singleton_self _,
      (accepts_cons_iff h).mpr (Or.inr ⟨hlong, haccept⟩), htrail, ?_, ?_⟩
    · rw [hoffset, total_after (Nat.le_of_succ_le hlong), h.total]
    · intro leg' legs' callback' hmem haccept'
      obtain ⟨rfl, hrest⟩ := hroute hmem haccept'
      obtain ⟨next', rest', rfl, hnext'⟩ := hrest.exists_cons
      rcases hfirst next' rest' callback' hnext' hrest with heq | hearlier
      · exact Or.inl (by rw [heq])
      · exact Or.inr (.later hearlier)

/-- An attempt at a branch settles the routes that begin with the branch, if the searches behind its
token settle theirs. -/
theorem settles_of_attempt {c : BranchId} (hoffer : g.Offers id spot.word c)
    (hattempt : g.attempt spot trail c = .ok b)
    (hwalk : ∀ {leg behind}, g.Takes id spot leg behind → 2 ≤ behind.ahead.length → ∀ {t a},
      g.walk leg.branch (behind.after 1) t = .ok a →
        g.Settles leg.branch (behind.after 1) t (g.eligible leg.branch (behind.after 1).word) a) :
    g.Settles id spot trail [c] b := by
  obtain ⟨B, hB⟩ := hoffer.exists_branch
  rw [attempt, hB] at hattempt
  dsimp only at hattempt
  cases hread : readToken B spot.ahead with
  | error fault =>
    rw [hread] at hattempt
    cases fault with
    | datum fault => cases hattempt
    | complaint k =>
      cases hattempt
      refine ⟨fun hmem haccept => ?_, fun hs => ?_⟩
      · obtain ⟨behind, -, B', token, hB', hread', -⟩ := haccept.exists_takes
        rw [List.mem_singleton.mp hmem, hB] at hB'
        cases hB'
        rw [hread] at hread'
        cases hread'
      · cases hs
  | ok read =>
    obtain ⟨token, argument⟩ := read
    rw [hread] at hattempt
    dsimp only [resume] at hattempt
    have htakes : g.Takes id spot ⟨c, argument⟩ (spot.after token.length) :=
      ⟨hoffer, B, token, hB, hread, rfl⟩
    by_cases hlong : 2 ≤ (spot.after token.length).ahead.length
    · rw [if_pos hlong] at hattempt
      exact Settles.of_onward htakes hlong (hwalk htakes hlong hattempt)
    · rw [if_neg hlong] at hattempt
      cases hattempt
      exact settles_of_short htakes (Nat.lt_of_not_le hlong)

/-! ## What a search settles -/

/-- What may be tried later stands later among the children. -/
theorem idxOf_lt_of_eligible {word : String} {c : BranchId} {pre post : List BranchId}
    (h : g.eligible id word = pre ++ c :: post) (hnew : c ∉ pre) :
    ∀ x ∈ pre, (g.childrenOf id).items.idxOf x < (g.childrenOf id).items.idxOf c := by
  obtain ⟨p, hp⟩ := g.exists_eligible_eq_filter id word
  rw [hp] at h
  obtain ⟨before, behind, hitems, hpre, hpost⟩ := List.filter_eq_append_iff.mp h
  have hc : p c = true :=
    (List.mem_filter.mp (hpost ▸ List.mem_cons_self .. : c ∈ behind.filter p)).2
  have hbefore : c ∉ before := fun hmem => hnew (hpre ▸ List.mem_filter.mpr ⟨hmem, hc⟩)
  intro x hx
  have hxbefore : x ∈ before := (List.mem_filter.mp (hpre ▸ hx)).1
  rw [hitems, List.idxOf_append_of_mem hxbefore, List.idxOf_append_of_notMem hbefore]
  exact Nat.lt_of_lt_of_le (List.idxOf_lt_length_of_mem hxbefore) (Nat.le_add_right _ _)

/-- What holds of the attempts at the single branches that may be tried, and carries over to the
better of two, holds of the search. -/
theorem keeps_of_walk {P : List BranchId → Attempt → Prop} (h : g.walk id spot trail = .ok a)
    (hsome : ∃ c, g.Offers id spot.word c)
    (hone : ∀ c, g.Offers id spot.word c → ∀ b, g.attempt spot trail c = .ok b → P [c] b)
    (hbetter : ∀ {via a c b}, P via a → P [c] b →
      (c ∉ via → ∀ x ∈ via,
        (g.childrenOf id).items.idxOf x < (g.childrenOf id).items.idxOf c) →
      P (via ++ [c]) (g.better a b)) :
    P (g.eligible id spot.word) a := by
  have hfold : ∀ {rest attempts via a}, List.Forall₂ (fun c b => P [c] b) rest attempts →
      g.eligible id spot.word = via ++ rest → P via a →
        P (via ++ rest) (attempts.foldl g.better a) := by
    intro rest attempts via a hrest hall ha
    induction hrest generalizing via a with
    | nil => simpa using ha
    | @cons c b rest attempts hb _ ih =>
      have hnext : via ++ c :: rest = via ++ [c] ++ rest := by simp
      rw [hnext] at hall ⊢
      rw [List.foldl_cons]
      refine ih hall (hbetter ha hb ?_)
      exact idxOf_lt_of_eligible (hall.trans hnext.symm)
  rw [walk_eq] at h
  cases hattempts : (g.eligible id spot.word).mapM (g.attempt spot trail) with
  | error fault =>
    rw [hattempts] at h
    cases h
  | ok attempts =>
    rw [hattempts] at h
    cases h
    have heach : List.Forall₂ (fun c b => P [c] b) (g.eligible id spot.word) attempts :=
      ((List.forall₂_and_left _ _).mpr ⟨fun c hc => hone c (mem_eligible_iff.mp hc),
        forall₂_of_mapM hattempts⟩).imp fun c b hcb => hcb.1 b hcb.2
    obtain ⟨c, hc⟩ := hsome
    cases hel : g.eligible id spot.word with
    | nil =>
      rw [← mem_eligible_iff, hel] at hc
      cases hc
    | cons c rest =>
      rw [hel] at heach
      cases heach with
      | cons hfirst hrest => exact hfold hrest hel hfirst

/-- **A search settles all routes.** -/
theorem settles_of_walk (hstart : spot.ahead ≠ [] ∨ trail.branches = [])
    (h : g.walk id spot trail = .ok a) :
    g.Settles id spot trail (g.eligible id spot.word) a := by
  -- behind a token less is ahead, whatever the branches look like
  induction hlen : spot.ahead.length using Nat.strongRecOn generalizing id spot trail a with
  | ind len ih =>
    by_cases hsome : ∃ c, g.Offers id spot.word c
    · refine keeps_of_walk h hsome (fun c hoffer b hb => ?_) Settles.better
      refine settles_of_attempt hoffer hb fun htakes hlong _ _ hwalk => ?_
      obtain ⟨hshorter, hne⟩ := htakes.shorter hlong
      exact ih _ (hlen ▸ hshorter) (Or.inl hne) hwalk rfl
    · have hel : g.eligible id spot.word = [] :=
        List.eq_nil_iff_forall_not_mem.mpr fun c hc => hsome ⟨c, mem_eligible_iff.mp hc⟩
      rw [walk_of_eligible_nil trail hel] at h
      cases h
      rw [hel]
      refine ⟨fun hmem => (by cases hmem), fun hs => ?_⟩
      exfalso
      simp only [succeeds, Bool.and_eq_true, List.isEmpty_iff] at hs
      rcases hstart with hne | hnil
      · exact hne hs.1.2
      · simp [hnil] at hs

/-! ## The first route -/

/-- Whether a route is accepted, with the given callback, and comes before all others that are. -/
def AcceptsFirst (g : Grammar) (id : BranchId) (spot : Spot) (legs : List Leg)
    (callback : Callback) : Prop :=
  g.Accepts id spot legs callback ∧ ∀ legs' callback', g.Accepts id spot legs' callback' →
    legs' = legs ∨ g.Earlier id legs legs'

theorem Accepts.callback_unique {legs : List Leg} {callback callback' : Callback}
    (h : g.Accepts id spot legs callback) (h' : g.Accepts id spot legs callback') :
    callback = callback' := by
  obtain ⟨-, -, -, hcall⟩ := h
  obtain ⟨-, -, -, hcall'⟩ := h'
  rw [hcall] at hcall'
  exact Option.some.inj hcall'

/-- There is only one first route. -/
theorem AcceptsFirst.unique {legs legs' : List Leg} {callback callback' : Callback}
    (h : g.AcceptsFirst id spot legs callback) (h' : g.AcceptsFirst id spot legs' callback') :
    legs = legs' ∧ callback = callback' := by
  have hlegs : legs = legs' := by
    rcases h.2 legs' callback' h'.1 with heq | hearlier
    · exact heq.symm
    · rcases h'.2 legs callback h.1 with heq | hlater
      · exact heq
      · exact absurd hlater hearlier.asymm
  subst hlegs
  exact ⟨rfl, h.1.callback_unique h'.1⟩

/-- A search from a place, with nothing read before, succeeds exactly if a route is accepted there,
and then it has followed the first one. -/
theorem acceptsFirst_of_walk (h : g.walk id spot .empty = .ok a) :
    (g.succeeds a = true ↔ ∃ legs callback, g.Accepts id spot legs callback) ∧
      (g.succeeds a = true → ∃ legs callback, g.AcceptsFirst id spot legs callback ∧
        a.trail = Trail.empty.along legs ∧ g.calledAt a = some callback) := by
  have hs := settles_of_walk (Or.inr rfl) h
  have hfirst : g.succeeds a = true → ∃ legs callback, g.AcceptsFirst id spot legs callback ∧
      a.trail = Trail.empty.along legs ∧ g.calledAt a = some callback := by
    intro hok
    obtain ⟨leg, legs, callback, -, haccept, htrail, -, hbefore⟩ := hs.sound hok
    refine ⟨leg :: legs, callback, ⟨haccept, fun legs' callback' haccept' => ?_⟩, htrail, ?_⟩
    · obtain ⟨leg', rest, rfl, hmem⟩ := haccept'.exists_cons
      exact hbefore leg' rest callback' hmem haccept'
    · obtain ⟨-, -, -, hcall⟩ := haccept
      rw [calledAt, htrail, Trail.branches_along]
      exact hcall
  refine ⟨⟨fun hok => ?_, ?_⟩, hfirst⟩
  · obtain ⟨legs, callback, haccept, -⟩ := hfirst hok
    exact ⟨legs, callback, haccept.1⟩
  · rintro ⟨legs, callback, haccept⟩
    obtain ⟨leg, rest, rfl, hmem⟩ := haccept.exists_cons
    exact hs.complete hmem haccept

/--
**An input is read as the first route that is accepted.** Where the search comes to no token that
trips it, the input is read exactly if there is a route from the start that reads it to its end and
ends at a branch with a callback. The invocation tells the branches and the arguments of the first
such route, in the order in which children are tried, depth first, and what is called at its end.
-/
theorem parse_eq_ok_iff_first_route {start : BranchId} {s : String}
    (hno : ∀ fault, ¬ g.Trips start ⟨0, withoutSlash s.toList⟩ fault) (source : Option Sender) :
    ((∃ i, g.parse start source s = .ok i) ↔
        ∃ legs callback, g.Accepts start ⟨0, withoutSlash s.toList⟩ legs callback) ∧
      ∀ i, g.parse start source s = .ok i ↔
        ∃ legs callback, g.AcceptsFirst start ⟨0, withoutSlash s.toList⟩ legs callback ∧
          i = ⟨source, String.ofList (withoutSlash s.toList), (Trail.empty.along legs).arguments,
            legs.map Leg.branch, callback⟩ := by
  cases hwalk : g.walk start ⟨0, withoutSlash s.toList⟩ .empty with
  | error fault =>
    obtain ⟨f, -, htrips⟩ := trips_of_walk hwalk
    exact absurd htrips (hno f)
  | ok a =>
    obtain ⟨hiff, hfirst⟩ := acceptsFirst_of_walk hwalk
    have hread : ∀ i, g.parse start source s = .ok i ↔
        ∃ legs callback, g.AcceptsFirst start ⟨0, withoutSlash s.toList⟩ legs callback ∧
          i = ⟨source, String.ofList (withoutSlash s.toList), (Trail.empty.along legs).arguments,
            legs.map Leg.branch, callback⟩ := by
      intro i
      rw [parse_eq_ok_iff, hwalk]
      constructor
      · rintro ⟨a', callback, ⟨ha, hok⟩, hcall, rfl⟩
        cases ha
        obtain ⟨legs, callback', haccept, htrail, hcall'⟩ := hfirst hok
        rw [hcall] at hcall'
        cases hcall'
        exact ⟨legs, callback, haccept, by rw [htrail, Trail.branches_along]; rfl⟩
      · rintro ⟨legs, callback, haccept, rfl⟩
        have hok := hiff.mpr ⟨legs, callback, haccept.1⟩
        obtain ⟨legs', callback', haccept', htrail, hcall⟩ := hfirst hok
        obtain ⟨rfl, rfl⟩ := haccept.unique haccept'
        exact ⟨a, callback, ⟨rfl, hok⟩, hcall, by rw [htrail, Trail.branches_along]; rfl⟩
    refine ⟨⟨?_, fun haccepts => ?_⟩, hread⟩
    · rintro ⟨i, hi⟩
      obtain ⟨legs, callback, haccept, -⟩ := (hread i).mp hi
      exact ⟨legs, callback, haccept.1⟩
    · obtain ⟨legs, callback, haccept, -⟩ := hfirst (hiff.mpr haccepts)
      exact ⟨_, (hread _).mpr ⟨legs, callback, haccept, rfl⟩⟩

/-! ## A route that is tried second -/

/-- A word with an alias, and two slots under it: one for a truth value, at which nothing is called,
and one for any word. -/
def notes : Grammar :=
  ⟨[⟨.start, (Catalog.empty.put "note" 1).put "n" 2, none⟩,
    ⟨.word ⟨"note", by decide⟩ none, (Catalog.empty.put "loud" 3).put "title" 4, none⟩,
    ⟨.word ⟨"n", by decide⟩ (some 1), .empty, none⟩,
    ⟨.slot ⟨"loud", by decide⟩ (.ofDomain .boolean), .empty, none⟩,
    ⟨.slot ⟨"title", by decide⟩ (.ofDomain (.string 0 none false)), .empty,
      some (.host "write" .giveBack)⟩]⟩

/-- The alias, and the slot for any word. -/
def notesRoute : List Leg := [⟨2, none⟩, ⟨4, some ("title", ⟨"true", .text "true"⟩)⟩]

theorem notes_trips (spot : Spot) (fault : DatumFault) : ¬ notes.Trips 0 spot fault := by
  rintro ⟨b, s, c, B, -, -, hB, hread⟩
  obtain ⟨name, cls, hk, haccept⟩ := readToken_eq_datum_iff.mp hread
  have hboolean := @TokenClass.accept_eq_datum_iff
    ⟨"argument", ⟨"loud", by decide⟩, .boolean, false, trivial⟩
    (String.ofList (cls.take s.ahead)) fault
  have hstring := @TokenClass.accept_eq_datum_iff ⟨"argument", ⟨"title", by decide⟩,
    .string 0 none false, false, fun _ h => by cases h⟩ (String.ofList (cls.take s.ahead)) fault
  rcases c with _ | _ | _ | _ | _ | c <;> cases hB <;> cases hk
  · exact (hboolean.mp haccept).2
  · rcases (hstring.mp haccept).2.2 with ⟨hlt, -⟩ | ⟨-, m, hm, -⟩
    · exact absurd hlt (Nat.not_lt_zero _)
    · cases hm

theorem notes_takes_alias : notes.Takes 0 ⟨0, "n true".toList⟩ ⟨2, none⟩ ⟨1, " true".toList⟩ :=
  ⟨Or.inl ⟨by decide, rfl⟩, _, ['n'], rfl, rfl, rfl⟩

theorem notes_takes_title : notes.Takes 2 ⟨2, "true".toList⟩
    ⟨4, some ("title", ⟨"true", .text "true"⟩)⟩ ⟨6, []⟩ :=
  ⟨mem_eligible_iff.mp (by decide), _, "true".toList, rfl, rfl, rfl⟩

theorem notes_takes_loud : notes.Takes 2 ⟨2, "true".toList⟩
    ⟨3, some ("loud", ⟨"true", .boolean true⟩)⟩ ⟨6, []⟩ :=
  ⟨mem_eligible_iff.mp (by decide), _, "true".toList, rfl, rfl, rfl⟩

/-- The truth value reads the word to the end as well, but nothing is called there. -/
theorem parse_eq_ok_iff_first_route_notes :
    (∀ fault, ¬ notes.Trips 0 ⟨0, withoutSlash "/n true".toList⟩ fault) ∧
      notes.eligible 2 "true" = [3, 4] ∧
      notes.parse 0 none "/n true" = .ok ⟨none, "n true",
        Catalog.empty.put "title" ⟨"true", .text "true"⟩, [2, 4], .host "write" .giveBack⟩ := by
  have hno : ∀ fault, ¬ notes.Trips 0 ⟨0, withoutSlash "/n true".toList⟩ fault := notes_trips _
  refine ⟨hno, by decide, ?_⟩
  refine ((parse_eq_ok_iff_first_route hno none).2 _).mpr
    ⟨notesRoute, .host "write" .giveBack, ⟨?_, ?_⟩, rfl⟩
  · refine (accepts_cons_iff notes_takes_alias).mpr (Or.inr ⟨by decide, ?_⟩)
    exact (accepts_cons_iff notes_takes_title).mpr (Or.inl ⟨by decide, rfl, rfl, rfl⟩)
  · intro legs callback haccept
    obtain ⟨first, rest, rfl, hfirst⟩ := haccept.exists_cons
    obtain ⟨behind, htakes⟩ := haccept.exists_takes
    have halias : first.branch = 2 := List.mem_singleton.mp hfirst
    obtain ⟨rfl, rfl⟩ := htakes.unique notes_takes_alias halias
    obtain ⟨hshort, -⟩ | ⟨-, hrest⟩ := (accepts_cons_iff notes_takes_alias).mp haccept
    · exact absurd hshort (by decide)
    obtain ⟨second, rest, rfl, hsecond⟩ := hrest.exists_cons
    obtain ⟨behind, htakes⟩ := hrest.exists_takes
    have hslots : second.branch ∈ [3, 4] := hsecond
    rcases List.mem_pair.mp hslots with hloud | htitle
    · obtain ⟨rfl, rfl⟩ := htakes.unique notes_takes_loud hloud
      obtain ⟨-, -, -, hcall⟩ | ⟨hlong, -⟩ := (accepts_cons_iff notes_takes_loud).mp hrest
      · cases hcall
      · exact absurd hlong (by decide)
    · obtain ⟨rfl, rfl⟩ := htakes.unique notes_takes_title htitle
      obtain ⟨-, rfl, -⟩ | ⟨hlong, -⟩ := (accepts_cons_iff notes_takes_title).mp hrest
      · exact Or.inl rfl
      · exact absurd hlong (by decide)

end Grammar

end CommandTree
