import CommandTree.Proofs.Grammar.Likeness
import CommandTree.Proofs.Host.Refusal

/-!
# Words that stand for the same

A word that redirects to another one has no branches and no callback of its own, so it does not
matter which of two words an input contains that stand for the same. Both inputs are searched along
one way up to that word, and behind it they go on alike, farther ahead in one input than in the
other.

* `Standing.eligible_word`: a word that stands where a search comes to is all that is tried there
* `walk_of_visits`: up to such a place a search reads words, whatever follows behind it
* `parse_synonym`: what the inputs lead to
-/

namespace CommandTree

open Text

/-- The text with another word in place of the one at a place. -/
def Spot.withWord (spot : Spot) (t word : String) : String :=
  String.ofList (t.toList.take spot.offset ++ word.toList
    ++ (spot.after (firstWord spot.ahead).length).ahead)

namespace Grammar

variable {g g' : Grammar} {f : Forest} {made start b c d : BranchId}

/-! ## No words stand under slots -/

theorem IsChain.not_hasWord {callback : Callback} {p : Parameter} {ps : List Parameter}
    (h : g.IsChain made callback (p :: ps) b) (w : String) (c : BranchId) : ¬ g.HasWord b w c := by
  intro hword
  have hmem : c ∈ g.eligible b w := mem_eligible_iff.mpr (Or.inl hword)
  cases ps with
  | nil =>
    rw [h.eligible_nil] at hmem
    cases hmem
  | cons q rest =>
    obtain ⟨-, s, hs, hel⟩ := h.eligible_cons (List.cons_ne_nil q rest)
    rw [hel, List.mem_singleton] at hmem
    obtain ⟨B, hB, hslot⟩ := hs.isSlot
    have hmatch := hword.2
    rw [hmem, hB, Option.any_some, matchesWord_of_isSlot hslot] at hmatch
    cases hmatch

/-- A search that has come to a slot comes to slots only. -/
theorem IsChain.visits {callback : Callback} {spot spot' : Spot} (h : g.Visits b spot c spot')
    {ps : List Parameter} (hb : g.IsChain made callback ps b) :
    ∃ q qs, g.IsChain made callback (q :: qs) c := by
  induction h generalizing ps with
  | here =>
    cases ps with
    | nil => exact hb.elim
    | cons p ps => exact ⟨p, ps, hb⟩
  | onward htakes _ _ ih =>
    have hmem := mem_eligible_iff.mpr htakes.1
    cases ps with
    | nil => exact hb.elim
    | cons p ps =>
      cases ps with
      | nil =>
        rw [hb.eligible_nil] at hmem
        cases hmem
      | cons q rest =>
        obtain ⟨-, s, hs, hel⟩ := hb.eligible_cons (List.cons_ne_nil q rest)
        rw [hel, List.mem_singleton] at hmem
        exact ih (hmem ▸ hs)

/-! ## Up to a word -/

/-- **A word that stands where a search may come to is all that is tried there.** -/
theorem Standing.eligible_word (hall : g.AllShaped f made) (hopens : g.Opens f made start)
    (hb : g.Standing f made start b) {w : String} (h : g.HasWord b w c) :
    g.eligible b w = [c] := by
  cases hb with
  | start =>
    obtain ⟨key, hkey⟩ := Catalog.mem_items_iff_get?.mp h.1
    obtain rfl := (hopens.filed.matchesWord_iff hkey).mp h.2
    exact (hopens.filed.eligible_word hkey).2
  | word hb =>
    obtain ⟨N, -, hchildren⟩ := hall.children hb
    rw [childrenOf_congr hb.target] at hchildren
    exact hchildren.eligible_word h
  | slot _ _ hb => exact absurd h (hb.not_hasWord w c)

/-- A slot that a search may come to is one of a chain. -/
theorem Standing.isChain (hopens : g.Opens f made start) (hb : g.Standing f made start b)
    (hslot : (g.branch? b).any Branch.isSlot = true) :
    ∃ callback p ps, g.IsChain made callback (p :: ps) b := by
  obtain ⟨B, hB, hisSlot⟩ := (Option.any_eq_true _ _).mp hslot
  have hk : ∃ name cls, B.kind = .slot name cls := by
    unfold Branch.isSlot at hisSlot
    split at hisSlot
    · exact ⟨_, _, ‹_›⟩
    · cases hisSlot
  obtain ⟨name, cls, hk⟩ := hk
  cases hb with
  | start =>
    obtain ⟨S, hS, hkind⟩ := hopens.isStart
    rw [hB] at hS
    cases hS
    rw [hk] at hkind
    cases hkind
  | word hb =>
    rw [target_of_slot hB hk] at hb
    obtain ⟨-, N, W, -, hW, hkind, -⟩ := hb
    rw [hB] at hW
    cases hW
    rw [hk] at hkind
    cases hkind
  | @slot n N callback p ps _ _ _ hb => exact ⟨callback, p, ps, hb⟩

/-- Where a search comes to a word, every branch on its way was a word. -/
theorem Standing.hasWord_of_visits (hall : g.AllShaped f made) (hopens : g.Opens f made start)
    (hb : g.Standing f made start b) {w w' : String} (hoffer : g.Offers b w c)
    {spot spot' : Spot} (hvisits : g.Visits c spot d spot') {x : BranchId}
    (hword : g.HasWord d w' x) : g.HasWord b w c := by
  rcases hoffer with hfirst | ⟨hno, hmem, hslot⟩
  · exact hfirst
  · have hc := hb.offers hall hopens (Or.inr ⟨hno, hmem, hslot⟩)
    obtain ⟨callback, p, ps, hchain⟩ := hc.isChain hopens hslot
    obtain ⟨q, qs, hd⟩ := hchain.visits hvisits
    exact absurd hword (hd.not_hasWord w' x)

/-- **Up to a place where a word stands a search reads words only**, and it comes there whatever
follows. -/
theorem walk_of_visits (hall : g.AllShaped f made) (hopens : g.Opens f made start)
    {spot spot' : Spot} (h : g.Visits b spot c spot') (hb : g.Standing f made start b) {w : String}
    (hword : g.HasWord c w d) :
    ∃ way, spot.ahead = way ++ spot'.ahead ∧ spot'.offset = spot.offset + way.length ∧
      ∀ trail, ∃ trail', ∀ cs, cs ≠ [] →
        g.walk b ⟨spot.offset, way ++ cs⟩ trail = g.walk c ⟨spot'.offset, cs⟩ trail' := by
  induction h with
  | here => exact ⟨[], rfl, rfl, fun trail => ⟨trail, fun cs _ => rfl⟩⟩
  | @onward b c spot behind spot' leg htakes hlong hrest ih =>
    have hfirst := hb.hasWord_of_visits hall hopens htakes.1 hrest hword
    obtain ⟨-, rfl⟩ := htakes.unique (takes_of_hasWord hfirst) rfl
    -- what is ahead is the word, a separator and more
    obtain ⟨tail, htail⟩ : ∃ tail, spot.ahead = firstWord spot.ahead ++ ' ' :: tail := by
      obtain ⟨rest, hsplit, rfl | ⟨tail, rfl⟩⟩ := firstWord_append_rest spot.ahead
      · rw [ahead_after hsplit] at hlong
        exact absurd hlong (by decide)
      · exact ⟨tail, hsplit⟩
    obtain ⟨way, hway, hoffset, hwalk⟩ := ih (hb.offers hall hopens htakes.1) hword
    rw [ahead_after_one (ahead_after htail)] at hway
    refine ⟨firstWord spot.ahead ++ ' ' :: way, ?_, ?_, fun trail => ?_⟩
    · rw [List.append_assoc, List.cons_append, ← hway]
      exact htail
    · rw [hoffset, List.length_append, List.length_cons]
      simp only [Spot.after]
      omega
    · obtain ⟨trail', hgo⟩ := hwalk (extended trail leg.branch none)
      refine ⟨trail', fun cs hcs => ?_⟩
      have hagain : firstWord (firstWord spot.ahead ++ ' ' :: (way ++ cs)) = firstWord spot.ahead :=
        firstWord_append_space (space_not_mem_firstWord _) _
      have hsame : (⟨spot.offset, firstWord spot.ahead ++ ' ' :: (way ++ cs)⟩ : Spot).word
          = spot.word := congrArg String.ofList hagain
      have hstep := walk_of_hasWord (hsame ▸ hb.eligible_word hall hopens hfirst)
        (hsame ▸ hfirst) trail
      rw [hagain] at hstep
      rw [← hgo cs hcs, List.append_assoc, List.cons_append, hstep,
        resume_cons _ (ahead_after rfl) (List.append_ne_nil_of_right_ne_nil _ hcs)]
      simp [Spot.after]

/-- At a place where a word stands, the search for that word goes on behind it. -/
theorem Standing.walk_word (hall : g.AllShaped f made) (hopens : g.Opens f made start)
    (hb : g.Standing f made start b) {w : String} (hword : g.HasWord b w c)
    (hspace : ' ' ∉ w.toList) {rest : List Char} (hrest : rest = [] ∨ ∃ tail, rest = ' ' :: tail)
    (offset : Nat) (trail : Trail) :
    g.walk b ⟨offset, w.toList ++ rest⟩ trail
      = g.resume c ⟨offset + w.length, rest⟩ (extended trail c none) := by
  have hfirst : firstWord (w.toList ++ rest) = w.toList := by
    rcases hrest with rfl | ⟨tail, rfl⟩
    · rw [List.append_nil, firstWord_of_not_mem hspace]
    · exact firstWord_append_space hspace tail
  have hnext : (⟨offset, w.toList ++ rest⟩ : Spot).word = w := by
    rw [Spot.word, hfirst, String.ofList_toList]
  have hthere : g.HasWord b (⟨offset, w.toList ++ rest⟩ : Spot).word c := hnext.symm ▸ hword
  rw [walk_of_hasWord (hb.eligible_word hall hopens hthere) hthere trail, hfirst,
    String.length_toList, Spot.after, List.drop_left' String.length_toList]

/-! ## Behind a word -/

variable {P : BranchId → Prop} {behind behind' : List BranchId} {offset offset' : Nat}

theorem Mirrors.complaintOf {a a' : Attempt} (h : Mirrors P behind behind' offset offset' a a')
    (hempty : behind'.isEmpty = behind.isEmpty) :
    Grammar.complaintOf a' = Grammar.complaintOf a := by
  obtain ⟨onward, -, hbranches, hbranches'⟩ := h.branches
  unfold Grammar.complaintOf
  have hsame : (behind' ++ onward).isEmpty = (behind ++ onward).isEmpty := by
    cases behind <;> cases behind' <;> first | rfl | cases hempty
  rw [h.complaint, h.ahead, hbranches, hbranches', hsame]

/-- Whether two inputs lead to the same: both are understood, and the same is called with the same
arguments, or there is the same complaint about both, at places that lie apart as far as given, or
both lead to the same other fault. -/
inductive AnsweredAlike (shift : Int) : Except Fault Invocation → Except Fault Invocation → Prop
  | understood {i i' : Invocation} (hcallback : i'.callback = i.callback)
      (harguments : i'.arguments = i.arguments) : AnsweredAlike shift (.ok i) (.ok i')
  | refused {failure failure' : ParseFailure} {place : Int}
      (hcomplaint : failure'.complaint = failure.complaint)
      (hplace : failure.position = some place)
      (hplace' : failure'.position = some (place + shift)) :
      AnsweredAlike shift (.error (.parse failure)) (.error (.parse failure'))
  | broken {fault : Fault} (h : ∀ failure, fault ≠ .parse failure) :
      AnsweredAlike shift (.error fault) (.error fault)

/-- **Inputs whose searches come to the same lead to the same.** -/
theorem answeredAlike_of_endAlike (hg : g.Alike g' P)
    (hbehind : behind'.getLast?.bind g'.callbackOf = behind.getLast?.bind g.callbackOf)
    (hempty : behind'.isEmpty = behind.isEmpty) {start start' : BranchId} {s s' : String}
    (h : EndAlike (Mirrors P behind behind' offset offset')
      (g.walk start ⟨0, withoutSlash s.toList⟩ .empty)
      (g'.walk start' ⟨0, withoutSlash s'.toList⟩ .empty)) (source : Option Sender) :
    AnsweredAlike (offset' - offset) (g.parse start source s) (g'.parse start' source s') := by
  generalize hfound : g.walk start ⟨0, withoutSlash s.toList⟩ .empty = found at h
  generalize hfound' : g'.walk start' ⟨0, withoutSlash s'.toList⟩ .empty = found' at h
  cases h with
  | error fault =>
    obtain ⟨why, rfl, -⟩ := trips_of_walk hfound
    rw [parse_of_walk_error hfound, parse_of_walk_error hfound']
    exact .broken fun failure hfault => by cases hfault
  | @ok a a' hmirrors =>
    cases hs : g.succeeds a with
    | false =>
      have hoffset := hmirrors.offset
      rw [parse_of_fails hfound hs,
        parse_of_fails hfound' ((hmirrors.succeeds hg hbehind).trans hs)]
      refine .refused (hmirrors.complaintOf hempty) rfl (congrArg some ?_)
      omega
    | true =>
      obtain ⟨callback, hcall⟩ := Option.isSome_iff_exists.mp (isSome_calledAt hs)
      rw [parse_eq_ok_iff.mpr ⟨a, callback, ⟨hfound, hs⟩, hcall, rfl⟩,
        parse_eq_ok_iff.mpr ⟨a', callback, ⟨hfound', (hmirrors.succeeds hg hbehind).trans hs⟩,
          (hmirrors.calledAt hg hbehind).trans hcall, rfl⟩]
      exact .understood rfl hmirrors.arguments

theorem callbackOf_last (htarget : g.target d = g.target c) (before : List BranchId) :
    (before ++ [d]).getLast?.bind g.callbackOf = (before ++ [c]).getLast?.bind g.callbackOf := by
  rw [List.getLast?_concat, List.getLast?_concat, Option.bind_some, Option.bind_some,
    callbackOf_congr htarget]

/-- Behind two words that stand for the same, what follows is searched alike. -/
theorem endAlike_of_target (htarget : g.target d = g.target c) (trail : Trail) (rest : List Char) :
    EndAlike
      (Mirrors (fun _ => True) (trail.branches ++ [c]) (trail.branches ++ [d]) offset offset')
      (g.resume c ⟨offset, rest⟩ (extended trail c none))
      (g.resume d ⟨offset', rest⟩ (extended trail d none)) := by
  have hset : Mirrors (fun _ => True) (trail.branches ++ [c]) (trail.branches ++ [d]) offset offset'
      ⟨⟨offset, rest⟩, extended trail c none, none⟩
      ⟨⟨offset', rest⟩, extended trail d none, none⟩ :=
    ⟨rfl, Nat.add_comm .., rfl, rfl, [], fun x hx => (by cases hx), (List.append_nil _).symm,
      (List.append_nil _).symm⟩
  refine hset.resume fun _ =>
    (Alike.refl g).walk (callbackOf_last htarget _) ?_ (fun _ _ => trivial) (hset.after 1)
  rw [eligible, eligible, childrenOf_congr htarget]

end Grammar

/--
**It does not matter which of two words that stand for the same an input contains.** In any session
of a host, the search for a text comes to a place where a word stands. The word is replaced by
another one that stands there, and both stand for the same. Then both texts are understood, and the
same is called with the same arguments, or both are refused with the same complaint, at places that
lie apart as far as the words differ in length, or both lead to the same other fault.
-/
theorem parse_synonym {h host : Host} {handler : Option Handler} {words : List BranchId}
    (hf : h.forest.Reachable) (hs : Host.Session (h.renewed handler) host words)
    (source : Option Sender) {t w : String} {b c c' : BranchId} {spot : Spot}
    (hvisits : host.grammar.Visits host.registrar.start ⟨0, t.toList⟩ b spot)
    (hword : host.grammar.HasWord b spot.word c) (hother : host.grammar.HasWord b w c')
    (hspace : ' ' ∉ w.toList) (htarget : host.grammar.target c' = host.grammar.target c) :
    Grammar.AnsweredAlike (w.length - spot.word.length)
      (host.parse source (.string ("/" ++ t)))
      (host.parse source (.string ("/" ++ spot.withWord t w))) := by
  obtain ⟨hh, -⟩ := hs.furnished (Host.furnished_renewed hf handler)
  have hb := Grammar.Standing.visits hh.lasts.shaped hh.opens hvisits .start
  obtain ⟨way, hway, hoffset, hwalk⟩ :=
    Grammar.walk_of_visits hh.lasts.shaped hh.opens hvisits .start hword
  obtain ⟨trail, hgo⟩ := hwalk .empty
  dsimp only at hway hoffset hgo
  rw [Nat.zero_add] at hoffset
  obtain ⟨rest, hsplit, hrest⟩ := firstWord_append_rest spot.ahead
  have hnext : spot.word.toList = firstWord spot.ahead := String.toList_ofList
  have htext : t.toList = way ++ (spot.word.toList ++ rest) := by rw [hway, hnext, ← hsplit]
  have hreplaced : (spot.withWord t w).toList = way ++ (w.toList ++ rest) := by
    rw [Spot.withWord, String.toList_ofList, Grammar.ahead_after hsplit, hway, hoffset,
      List.take_left, List.append_assoc]
  -- both searches come to the place of the words and go on behind them
  have hfound : ∀ {x y}, host.grammar.HasWord b x y → ' ' ∉ x.toList →
      host.grammar.walk host.registrar.start ⟨0, way ++ (x.toList ++ rest)⟩ .empty
        = host.grammar.resume y ⟨spot.offset + x.length, rest⟩ (Grammar.extended trail y none) := by
    intro x y hxy hspaceless
    have hne : x.toList ++ rest ≠ [] := fun hnil =>
      hxy.ne_empty (String.toList_eq_nil_iff.mp (List.append_eq_nil_iff.mp hnil).1)
    rw [hgo _ hne, hb.walk_word hh.lasts.shaped hh.opens hxy hspaceless hrest]
  have hends := @Grammar.endAlike_of_target host.grammar c c' (spot.offset + spot.word.length)
    (spot.offset + w.length) htarget trail rest
  rw [← hfound hword (hnext ▸ space_not_mem_firstWord _), ← hfound hother hspace, ← htext,
    ← hreplaced, ← Grammar.withoutSlash_slash t,
    ← Grammar.withoutSlash_slash (spot.withWord t w)] at hends
  have hempty : (trail.branches ++ [c']).isEmpty = (trail.branches ++ [c]).isEmpty := by
    cases trail.branches <;> rfl
  have hanswered := Grammar.answeredAlike_of_endAlike (Grammar.Alike.refl host.grammar)
    (Grammar.callbackOf_last htarget trail.branches) hempty hends source
  have hshift : ((spot.offset + w.length : Nat) : Int) - (spot.offset + spot.word.length : Nat)
      = w.length - spot.word.length := by omega
  rw [hshift] at hanswered
  exact hanswered

/-- The search for a call by aliases comes to the alias of the child. -/
theorem visits_give : pointsServer.grammar.Visits pointsServer.registrar.start
    ⟨0, "pts GIVE 7".toList⟩ 6 ⟨4, "GIVE 7".toList⟩ := by
  have hpts : pointsServer.grammar.HasWord pointsServer.registrar.start "pts" 6 := ⟨by decide, rfl⟩
  have htakes := @Grammar.takes_of_hasWord pointsServer.grammar pointsServer.registrar.start
    ⟨0, "pts GIVE 7".toList⟩ 6 hpts
  exact .onward htakes (by decide) (.here 6 ⟨4, "GIVE 7".toList⟩)

/-- A child is called by its name as by its alias. -/
theorem parse_synonym_points :
    pointsForest.Reachable ∧ Host.Session (pointsHost.renewed none) pointsServer [5] ∧
      pointsServer.grammar.Visits pointsServer.registrar.start ⟨0, "pts GIVE 7".toList⟩ 6
        ⟨4, "GIVE 7".toList⟩ ∧
      pointsServer.grammar.HasWord 6 "GIVE" 4 ∧ pointsServer.grammar.HasWord 6 "add" 3 ∧
      pointsServer.grammar.target 3 = pointsServer.grammar.target 4 ∧
      ∃ i i', pointsServer.parse none (.string "/pts GIVE 7") = .ok i ∧
        pointsServer.parse none (.string "/pts add 7") = .ok i' ∧ i'.callback = i.callback ∧
        i'.arguments = i.arguments := by
  have hgive : pointsServer.grammar.HasWord 6 "GIVE" 4 := ⟨by decide, rfl⟩
  have hadd : pointsServer.grammar.HasWord 6 "add" 3 := ⟨by decide, rfl⟩
  have htarget : pointsServer.grammar.target 3 = pointsServer.grammar.target 4 := rfl
  obtain ⟨-, -, hs⟩ := Host.serves_of_compile (h := pointsHost) pointsForest_reachable
    compile_pointsHost
  obtain ⟨i, hi⟩ := hs.exists_invocation rfl none (fits_points rfl)
  have halike := parse_synonym (h := pointsHost) pointsForest_reachable session_pointsServer none
    visits_give hgive hadd (by decide) htarget
  rw [show "/" ++ "pts GIVE 7" = "/pts GIVE 7" from rfl,
    show "/" ++ (⟨4, "GIVE 7".toList⟩ : Spot).withWord "pts GIVE 7" "add" = "/pts add 7" by decide,
    show pointsServer.parse none (.string "/pts GIVE 7") = .ok i from hi] at halike
  generalize pointsServer.parse none (.string "/pts add 7") = found at halike ⊢
  cases halike with
  | @understood _ i' hcallback harguments =>
    exact ⟨pointsForest_reachable, session_pointsServer, visits_give, hgive, hadd, htarget, i, i',
      hi, rfl, hcallback, harguments⟩

end CommandTree
