import CommandTree.Grammar.Reading
import CommandTree.Proofs.Grammar.Steps
import CommandTree.Proofs.Grammar.Stop

/-!
# How deep a search goes

No branch reads an empty token, and behind a token a separator is skipped before the search goes on,
if something follows it. So every search that another one makes begins at least two characters
behind it, whatever the branches look like, and the searches for an input lie no deeper in each
other than half of its length.

A search that is cut off where it has gone down a given number of levels is defined here by
recursion on the levels alone, which does not look at how much of the input is left.

* `Reads.progress`: what a branch reads at a cursor is not empty
* `Takes.reads`: what a branch reads in a search is what it reads at a cursor
* `Takes.goes_on`: where a search goes on behind a token
* `walkWithin_eq`: a search is not cut off if there are enough levels
* `parse_makes_progress`: all of it, for the reading of an input
-/

namespace CommandTree

open Relation

namespace Grammar

variable {g : Grammar} {id : BranchId} {spot : Spot}

/-! ## Reading at a cursor -/

/-- Whether a branch reads something at a cursor, and which cursor lies behind it. -/
def Reads (B : Branch) (c behind : Cursor) : Prop :=
  match B.kind with
  | .start => False
  | .word name _ => ∃ found, readWordAt name c = (.ok found, behind)
  | .slot _ cls => ∃ found, cls.read c = (.ok found, behind)

/-- Behind a token that is not empty and that a text goes on with, a cursor has come forward. -/
theorem forward_of_split {s : String} {n : Nat} (h : n ≤ s.toList.length) {token rest : List Char}
    (hsplit : s.toList.drop n = token ++ rest) (hne : token ≠ []) :
    n < n + token.length ∧ n + token.length ≤ s.toList.length := by
  have hlen := congrArg List.length hsplit
  rw [List.length_drop, List.length_append] at hlen
  have hpos := List.length_pos_of_ne_nil hne
  omega

/-- **What a branch reads is not empty**, so the cursor behind it has come forward in the text. -/
theorem Reads.progress {B : Branch} {s : String} {n : Nat} {behind : Cursor}
    (h : Reads B ⟨s, n⟩ behind) (hn : n ≤ s.toList.length) :
    ∃ m : Nat, behind = ⟨s, m⟩ ∧ n < m ∧ m ≤ s.toList.length := by
  cases hk : B.kind with
  | start =>
    rw [Reads, hk] at h
    cases h
  | word name redirect =>
    rw [Reads, hk] at h
    obtain ⟨found, hread⟩ := h
    rw [readWordAt, Cursor.readWord_within s hn, ← firstWord] at hread
    dsimp only at hread
    split at hread
    · next hsame =>
      obtain ⟨rest, hsplit, -⟩ := firstWord_append_rest (s.toList.drop n)
      refine ⟨_, (Prod.mk.inj hread).2.symm, forward_of_split hn hsplit fun hnil => ?_⟩
      exact ne_empty_of_sameWord hsame (by rw [hnil])
    · cases hread
  | slot name cls =>
    rw [Reads, hk] at h
    obtain ⟨found, hread⟩ := h
    rw [cls.read_within s hn] at hread
    split at hread
    · next haccept =>
      obtain ⟨rest, hsplit, -⟩ := cls.take_split (s.toList.drop n)
      refine ⟨_, (Prod.mk.inj hread).2.symm, forward_of_split hn hsplit fun hnil => ?_⟩
      rw [hnil] at haccept
      cases haccept
    · cases hread

/-! ## Going on behind a token -/

/-- **What a branch reads in a search is what it reads at a cursor.** -/
theorem Takes.reads {cs : List Char} {leg : Leg} {behind : Spot} (h : g.Takes id spot leg behind)
    (hspot : Lies cs spot) :
    ∃ B, g.branch? leg.branch = some B ∧
      Reads B ⟨String.ofList cs, spot.offset⟩ ⟨String.ofList cs, behind.offset⟩ := by
  obtain ⟨hoffer, B, token, hB, hread, rfl⟩ := h
  refine ⟨B, hB, ?_⟩
  obtain ⟨hahead, hle⟩ := hspot
  rw [← String.toList_ofList (l := cs)] at hahead hle
  cases hk : B.kind with
  | start =>
    -- the start is never tried
    rcases hoffer with ⟨-, hword⟩ | ⟨-, -, hslot⟩
    · simp [hB, Branch.matchesWord, hk] at hword
    · simp [hB, Branch.isSlot, hk] at hslot
  | word name redirect =>
    rw [readToken, hk] at hread
    dsimp only at hread
    split at hread
    · next hsame =>
      obtain ⟨rfl, -⟩ := Prod.mk.inj (Except.ok.inj hread)
      rw [hahead] at hsame
      rw [Reads, hk]
      dsimp only
      refine ⟨name.text, ?_⟩
      rw [readWordAt, Cursor.readWord_within _ hle]
      dsimp only
      rw [if_pos hsame, Spot.after, hahead]
    · cases hread
  | slot name cls =>
    rw [readToken, hk] at hread
    dsimp only at hread
    cases haccept : cls.accept (String.ofList (cls.take spot.ahead)) with
    | error fault =>
      rw [haccept] at hread
      cases hread
    | ok v =>
      rw [haccept] at hread
      obtain ⟨rfl, -⟩ := Prod.mk.inj (Except.ok.inj hread)
      rw [hahead] at haccept
      rw [Reads, hk]
      dsimp only
      refine ⟨v, ?_⟩
      rw [cls.read_within _ hle, haccept, Spot.after, hahead]

/-- **Where a search goes on behind a token, it has come two characters forward at least**, and
there is something to read. -/
theorem Takes.goes_on {cs : List Char} {leg : Leg} {behind : Spot} (h : g.Takes id spot leg behind)
    (hspot : Lies cs spot) (hlong : 2 ≤ behind.ahead.length) :
    Lies cs (behind.after 1) ∧ spot.offset + 2 ≤ (behind.after 1).offset ∧
      (behind.after 1).offset < cs.length := by
  have hbehind := h.lies hspot
  obtain ⟨B, -, hreads⟩ := h.reads hspot
  obtain ⟨m, hm, hlt, -⟩ := hreads.progress (by rw [String.toList_ofList]; exact hspot.2)
  have hoffset : behind.offset = m := Int.ofNat_inj.mp (Cursor.mk.inj hm).2
  have hahead := congrArg List.length hbehind.1
  rw [List.length_drop] at hahead
  refine ⟨hbehind.after (Nat.le_of_succ_le hlong), ?_, ?_⟩
  · change spot.offset + 2 ≤ behind.offset + 1
    omega
  · change behind.offset + 1 < cs.length
    omega

/-- The places that a search comes to lie in its text. -/
theorem Visits.lies {cs : List Char} {b : BranchId} {s : Spot} (h : g.Visits id spot b s)
    (hspot : Lies cs spot) : Lies cs s := by
  induction h with
  | here => exact hspot
  | onward htakes hlong _ ih => exact ih (htakes.goes_on hspot hlong).1

/-! ## Searches of limited depth -/

/-- What comes of trying a branch at a place, where `onward` searches on behind its token. -/
def attemptBy (g : Grammar) (onward : BranchId → Spot → Trail → ExceptT Fault Option Attempt)
    (spot : Spot) (trail : Trail) (c : BranchId) : ExceptT Fault Option Attempt :=
  match g.branch? c with
  | none => pure ⟨spot, trail, none⟩
  | some B =>
    match readToken B spot.ahead with
    | .error (.complaint k) => pure ⟨spot, trail, some k⟩
    | .error (.datum fault) => throw (.datum fault)
    | .ok (token, argument) =>
      let behind := spot.after token.length
      let trail := extended trail c argument
      if 2 ≤ behind.ahead.length then onward c (behind.after 1) trail
      else pure ⟨behind, trail, none⟩

/-- The search with no more than the given number of levels, itself included; none if it would go
down further. -/
def walkWithin (g : Grammar) : Nat → BranchId → Spot → Trail → ExceptT Fault Option Attempt
  | 0, _, _, _ => .mk none
  | levels + 1, id, spot, trail => do
    let attempts ← (g.eligible id spot.word).mapM (g.attemptBy (g.walkWithin levels) spot trail)
    pure ((g.best? attempts).getD ⟨spot, trail, none⟩)

theorem mapM_eq_mk_some {α β ε : Type} {f : α → ExceptT ε Option β} {f' : α → Except ε β}
    {xs : List α} (h : ∀ x ∈ xs, f x = .mk (some (f' x))) :
    xs.mapM f = .mk (some (xs.mapM f')) := by
  induction xs with
  | nil => rfl
  | cons x xs ih =>
    obtain ⟨hx, hxs⟩ := List.forall_mem_cons.mp h
    rw [List.mapM_cons, List.mapM_cons, hx, ih hxs]
    cases f' x with
    | error e => rfl
    | ok y => cases xs.mapM f' <;> rfl

/-- Where searches that go on behind a token are not cut off, the attempt is not either. -/
theorem attemptBy_eq {onward : BranchId → Spot → Trail → ExceptT Fault Option Attempt}
    {c : BranchId} (hoffer : g.Offers id spot.word c) (trail : Trail)
    (h : ∀ {leg behind}, g.Takes id spot leg behind → 2 ≤ behind.ahead.length → ∀ t,
      onward leg.branch (behind.after 1) t = .mk (some (g.walk leg.branch (behind.after 1) t))) :
    g.attemptBy onward spot trail c = .mk (some (g.attempt spot trail c)) := by
  obtain ⟨B, hB⟩ := hoffer.exists_branch
  rw [attemptBy, attempt, hB]
  dsimp only
  cases hread : readToken B spot.ahead with
  | error fault => cases fault <;> rfl
  | ok read =>
    obtain ⟨token, argument⟩ := read
    dsimp only [resume]
    by_cases hlong : 2 ≤ (spot.after token.length).ahead.length
    · rw [if_pos hlong, if_pos hlong]
      have htakes : g.Takes id spot ⟨c, argument⟩ (spot.after token.length) :=
        ⟨hoffer, B, token, hB, hread, rfl⟩
      exact h htakes hlong _
    · rw [if_neg hlong, if_neg hlong]
      rfl

/-- **A search is not cut off if there is a level for every two characters.** -/
theorem walkWithin_eq {cs : List Char} {levels : Nat} (trail : Trail) (hspot : Lies cs spot)
    (h : cs.length < spot.offset + 2 * levels) :
    g.walkWithin levels id spot trail = .mk (some (g.walk id spot trail)) := by
  induction levels generalizing id spot trail with
  | zero => exact absurd hspot.2 (Nat.not_le_of_lt h)
  | succ levels ih =>
    have hattempts : (g.eligible id spot.word).mapM (g.attemptBy (g.walkWithin levels) spot trail)
        = .mk (some ((g.eligible id spot.word).mapM (g.attempt spot trail))) := by
      refine mapM_eq_mk_some fun c hc => ?_
      refine attemptBy_eq (mem_eligible_iff.mp hc) trail fun htakes hlong t => ?_
      obtain ⟨hlies, hforward, -⟩ := htakes.goes_on hspot hlong
      exact ih t hlies (by omega)
    rw [walkWithin, hattempts, walk_eq]
    cases (g.eligible id spot.word).mapM (g.attempt spot trail) <;> rfl

/-! ## Inputs -/

/-- What the best attempt comes to, as an answer to the input. -/
def answer (g : Grammar) (source : Option Sender) (cs : List Char) (found : Attempt) :
    Except Fault Invocation :=
  let failure : Fault := .parse ⟨complaintOf found, some (String.ofList cs), some found.spot.offset⟩
  if g.succeeds found then
    match g.calledAt found with
    | some callback =>
      .ok ⟨source, String.ofList cs, found.trail.arguments, found.trail.branches, callback⟩
    | none => .error failure
  else .error failure

theorem parse_eq_bind_answer (g : Grammar) (start : BranchId) (source : Option Sender)
    (s : String) :
    g.parse start source s
      = (g.walk start ⟨0, withoutSlash s.toList⟩ .empty).bind
          (g.answer source (withoutSlash s.toList)) := rfl

/-- Reads an input by a search with no more than the given number of levels. -/
def parseWithin (g : Grammar) (levels : Nat) (start : BranchId) (source : Option Sender)
    (s : String) : ExceptT Fault Option Invocation := do
  let found ← g.walkWithin levels start ⟨0, withoutSlash s.toList⟩ .empty
  .mk (some (g.answer source (withoutSlash s.toList) found))

/-- The place where a search for an input begins. -/
theorem lies_start (cs : List Char) : Lies cs ⟨0, cs⟩ := ⟨rfl, Nat.zero_le _⟩

theorem parseWithin_eq {levels : Nat} {s : String}
    (h : (withoutSlash s.toList).length < 2 * levels) (start : BranchId) (source : Option Sender) :
    g.parseWithin levels start source s = .mk (some (g.parse start source s)) := by
  rw [parseWithin, walkWithin_eq .empty (lies_start _) (by rwa [Nat.zero_add]),
    parse_eq_bind_answer]
  cases g.walk start ⟨0, withoutSlash s.toList⟩ .empty <;> rfl

/-! ## Redirections -/

theorem WellFormed.redirect?_targetWithin (h : g.WellFormed) {bound : Nat} {b : BranchId}
    (hb : b < bound ∨ g.branch? b = none) :
    (g.branch? (g.targetWithin bound b)).bind Branch.redirect? = none := by
  induction bound generalizing b with
  | zero =>
    rw [targetWithin, hb.resolve_left (Nat.not_lt_zero b)]
    rfl
  | succ bound ih =>
    rw [targetWithin]
    cases hr : (g.branch? b).bind Branch.redirect? with
    | none => exact hr
    | some r =>
      obtain ⟨B, hB, hredirect⟩ := Option.bind_eq_some_iff.mp hr
      obtain ⟨hlt, -⟩ := h.redirect hB hredirect
      have hbound : b < bound + 1 := hb.resolve_right (by rw [hB]; exact Option.some_ne_none B)
      exact ih (Or.inl (Nat.lt_of_lt_of_le hlt (Nat.le_of_lt_succ hbound)))

/-- Where words redirect to earlier words, what a branch stands for redirects no further. -/
theorem WellFormed.redirect?_target (h : g.WellFormed) (b : BranchId) :
    (g.branch? (g.target b)).bind Branch.redirect? = none :=
  h.redirect?_targetWithin ((Nat.lt_or_ge b g.size).imp_right List.getElem?_eq_none)

/--
**Reading an input makes progress and comes to an end**, whatever the branches look like, and even
if a branch stands under itself. What a branch reads at a place of the input ends farther on in it.
In the search for the input, a branch takes what it reads there, and a search that goes on behind
it begins two characters farther on at least, and before the end. So the search goes down no more
levels than half of the characters and one: with that many it is not cut off. Redirections come to
an end as well if the grammar was built step by step.
-/
theorem parse_makes_progress (g : Grammar) (start : BranchId) (source : Option Sender)
    (s : String) :
    (∀ (B : Branch) (n : Nat) (behind : Cursor), n ≤ (withoutSlash s.toList).length →
        Reads B ⟨String.ofList (withoutSlash s.toList), n⟩ behind →
        ∃ m : Nat, behind = ⟨String.ofList (withoutSlash s.toList), m⟩ ∧
          n < m ∧ m ≤ (withoutSlash s.toList).length) ∧
      (∀ id spot leg behind, g.Visits start ⟨0, withoutSlash s.toList⟩ id spot →
        g.Takes id spot leg behind →
        (∃ B, g.branch? leg.branch = some B ∧
          Reads B ⟨String.ofList (withoutSlash s.toList), spot.offset⟩
            ⟨String.ofList (withoutSlash s.toList), behind.offset⟩) ∧
        (2 ≤ behind.ahead.length → spot.offset + 2 ≤ (behind.after 1).offset ∧
          (behind.after 1).offset < (withoutSlash s.toList).length)) ∧
      (∀ levels, (withoutSlash s.toList).length / 2 + 1 ≤ levels →
        (g.parseWithin levels start source s).run = some (g.parse start source s)) ∧
      (ReflTransGen Step .empty g →
        ∀ b, (g.branch? (g.target b)).bind Branch.redirect? = none) := by
  refine ⟨fun B n behind hn hreads => ?_, fun id spot leg behind hvisits htakes => ?_,
    fun levels hlevels => parseWithin_eq (by omega) start source,
    fun hsteps => (wellFormed_empty.steps hsteps).redirect?_target⟩
  · have hprogress := hreads.progress (by rwa [String.toList_ofList])
    rwa [String.toList_ofList] at hprogress
  · have hspot := hvisits.lies (lies_start _)
    exact ⟨htakes.reads hspot, fun hlong => (htakes.goes_on hspot hlong).2⟩

/-! ## A word under itself -/

/-- A word that stands under itself, and at which an input may end. -/
def circle : Grammar :=
  ⟨[⟨.start, Catalog.empty.put "a" 1, none⟩,
    ⟨.word ⟨"a", by decide⟩ none, Catalog.empty.put "a" 1, some (.host "stop" .giveBack)⟩]⟩

/-- Three words need three levels. -/
theorem parse_makes_progress_circle :
    (circle.parseWithin 2 0 none "/a a a").run = none ∧
      circle.parse 0 none "/a a a"
        = .ok ⟨none, "a a a", .empty, [1, 1, 1], .host "stop" .giveBack⟩ := by
  refine ⟨rfl, ?_⟩
  have h := (parse_makes_progress circle 0 none "/a a a").2.2.1 3 (by decide)
  exact (Option.some.inj h).symm.trans rfl

end Grammar

end CommandTree
