import CommandTree.Proofs.Grammar.Route
import CommandTree.Proofs.Host.Session
import CommandTree.Proofs.Parameter.Oversize

/-!
# Inputs that are refused

The search for an input comes to the start, to words that stand for words of nodes, and to slots of
parameters of nodes. Words are read or complained about, and so are the tokens of parameters, but
for those that lead to a number that is too long. So an input of a host is understood, or refused
with a complaint that says what is wrong with it and where, unless it baffles a parameter.

* `Standing.offers`: what is tried at a branch that a search may come to is another such branch
* `Furnished.trips_iff`: a search is broken off exactly if the input baffles a parameter
* `parse_answers_iff`: the inputs that are understood or refused with a complaint
* `not_baffled_of_length_le`: inputs of ordinary length are among them
-/

namespace CommandTree

open Text

namespace Grammar

/-! ## Where a search comes to -/

/-- The branches that a search from the start may come to: the start itself, what stands for the
word of a node, and the slots of the parameters of a node. -/
inductive Standing (g : Grammar) (f : Forest) (made start : BranchId) : BranchId → Prop
  | start : Standing g f made start start
  | word {n : NodeId} {b : BranchId} (hb : g.IsWordOf f made n (g.target b)) :
      Standing g f made start b
  | slot {n : NodeId} {N : Node} {callback : Callback} {p : Parameter} {ps : List Parameter}
      {b : BranchId} (hN : f.node? n = some N) (hps : p :: ps <:+ N.parameters.items)
      (hb : g.IsChain made callback (p :: ps) b) : Standing g f made start b

variable {g : Grammar} {f : Forest} {made start b c : BranchId}

/-- **What is tried at a branch that a search may come to is another such branch.** -/
theorem Standing.offers (hall : g.AllShaped f made) (hopens : g.Opens f made start)
    (hb : g.Standing f made start b) {w : String} (h : g.Offers b w c) :
    g.Standing f made start c := by
  cases hb with
  | start =>
    rw [← mem_eligible_iff] at h
    cases hget : (g.childrenOf start).get? (lowercase w) with
    | none =>
      rw [hopens.filed.eligible_other hget] at h
      cases h
    | some c' =>
      obtain ⟨root, word, hword, hroot⟩ := hopens.words _ c' hget
      obtain ⟨c'', hget', -, htarget⟩ := hword.found hroot
      rw [(hopens.filed.eligible_word hget).2, List.mem_singleton] at h
      rw [hget] at hget'
      cases hget'
      exact .word (h ▸ htarget ▸ hroot)
  | word hb =>
    obtain ⟨N, hN, hchildren⟩ := hall.children hb
    rw [childrenOf_congr hb.target] at hchildren
    rcases h with hword | ⟨-, hmem, hslot⟩
    · obtain ⟨-, m, -, hm⟩ := hchildren.hasWord_iff.mp hword
      exact .word hm
    · obtain ⟨key, hkey⟩ := Catalog.mem_items_iff_get?.mp hmem
      obtain ⟨p, ps, hps, rfl⟩ := hchildren.key_of_isSlot hkey hslot
      obtain ⟨-, s, hget, hchain⟩ := hchildren.slot hps
      cases hkey.symm.trans hget
      exact .slot hN (hps ▸ List.suffix_refl _) hchain
  | @slot n N callback p ps _ hN hps hb =>
    rw [← mem_eligible_iff] at h
    cases ps with
    | nil =>
      rw [hb.eligible_nil] at h
      cases h
    | cons q rest =>
      obtain ⟨-, s, hs, hel⟩ := hb.eligible_cons (List.cons_ne_nil q rest)
      rw [hel, List.mem_singleton] at h
      exact .slot hN ((List.suffix_cons ..).trans hps) (h ▸ hs)

theorem Standing.visits (hall : g.AllShaped f made) (hopens : g.Opens f made start)
    {spot spot' : Spot} (h : g.Visits b spot c spot') (hb : g.Standing f made start b) :
    g.Standing f made start c := by
  induction h with
  | here => exact hb
  | onward htakes _ _ ih => exact ih (hb.offers hall hopens htakes.1)

/-- A slot that a search may come to is that of a parameter of a node. -/
theorem Standing.parameter (hopens : g.Opens f made start) (hb : g.Standing f made start b)
    {B : Branch} (hB : g.branch? b = some B) {name : Name} {cls : TokenClass}
    (hk : B.kind = .slot name cls) :
    ∃ n N p, f.node? n = some N ∧ p ∈ N.parameters.items ∧ name = p.name ∧
      cls = .ofDomain p.domain := by
  cases hb with
  | start =>
    obtain ⟨S, hS, hkind⟩ := hopens.isStart
    rw [hB] at hS
    cases hS
    rw [hk] at hkind
    cases hkind
  | word hb =>
    rw [target_of_slot hB hk] at hb
    obtain ⟨-, N, W, -, hW, hkind, -⟩ := hb
    rw [hB] at hW
    cases hW
    rw [hk] at hkind
    cases hkind
  | @slot n N callback p ps _ hN hps hb =>
    obtain ⟨children, hs, -⟩ := hb.cases
    rw [hB] at hs
    cases hs
    cases hk
    exact ⟨n, N, p, hN, hps.subset (List.mem_cons_self ..), rfl, rfl⟩

theorem Visits.length_le {spot spot' : Spot} (h : g.Visits b spot c spot') :
    spot'.ahead.length ≤ spot.ahead.length := by
  induction h with
  | here => exact Nat.le_refl _
  | onward htakes hlong _ ih => exact Nat.le_trans ih (Nat.le_of_lt (htakes.shorter hlong).1)

/-! ## What an input leads to -/

variable {source : Option Sender} {s : String}

/-- A search that is not broken off leads to an invocation or a complaint. -/
theorem parse_of_walk_ok {a : Attempt}
    (h : g.walk start ⟨0, withoutSlash s.toList⟩ .empty = .ok a) :
    (∃ i, g.parse start source s = .ok i) ∨
      ∃ failure, g.parse start source s = .error (.parse failure) := by
  cases hs : g.succeeds a with
  | false => exact Or.inr ⟨_, parse_of_fails h hs⟩
  | true =>
    obtain ⟨callback, hcall⟩ := Option.isSome_iff_exists.mp (isSome_calledAt hs)
    exact Or.inl ⟨_, parse_eq_ok_iff.mpr ⟨a, callback, ⟨h, hs⟩, hcall, rfl⟩⟩

end Grammar

namespace Host

/-- Whether an input baffles a parameter of a node: the search for the input comes to a place where
the slot of the parameter is tried on a token that leads to a number that is too long. -/
def Baffled (h : Host) (s : String) : Prop :=
  ∃ b spot c B n N p,
    h.grammar.Visits h.registrar.start ⟨0, Grammar.withoutSlash s.toList⟩ b spot ∧
    h.grammar.Offers b spot.word c ∧ h.grammar.branch? c = some B ∧ h.forest.node? n = some N ∧
    p ∈ N.parameters.items ∧ B.kind = .slot p.name (.ofDomain p.domain) ∧
    p.domain.Baffles (String.ofList ((TokenClass.ofDomain p.domain).take spot.ahead))

variable {h : Host} {made : BranchId} {s : String}

/-- A search is broken off by a parameter only, and always for the same reason. -/
theorem Furnished.baffled_of_trips (hh : h.Furnished made) {fault : DatumFault}
    (htrips : h.grammar.Trips h.registrar.start ⟨0, Grammar.withoutSlash s.toList⟩ fault) :
    h.Baffled s ∧ ∃ found, fault = .tooManyDigits found := by
  obtain ⟨b, spot, c, B, hvisits, hoffer, hB, hread⟩ := htrips
  obtain ⟨name, cls, hk, haccept⟩ := Grammar.readToken_eq_datum_iff.mp hread
  have hb := Grammar.Standing.visits hh.lasts.shaped hh.opens hvisits .start
  obtain ⟨n, N, p, hN, hp, rfl, rfl⟩ :=
    (hb.offers hh.lasts.shaped hh.opens hoffer).parameter hh.opens hB hk
  obtain ⟨hfault, hbaffles⟩ := TokenClass.accept_eq_datum_iff.mp haccept
  exact ⟨⟨b, spot, c, B, n, N, p, hvisits, hoffer, hB, hN, hp, hk, hbaffles⟩, _, hfault⟩

/-- **A search is broken off exactly if the input baffles a parameter.** -/
theorem Furnished.trips_iff (hh : h.Furnished made) :
    (∃ fault, h.grammar.Trips h.registrar.start ⟨0, Grammar.withoutSlash s.toList⟩ fault) ↔
      h.Baffled s := by
  constructor
  · rintro ⟨fault, htrips⟩
    exact (hh.baffled_of_trips htrips).1
  · rintro ⟨b, spot, c, B, n, N, p, hvisits, hoffer, hB, -, -, hk, hbaffles⟩
    have haccept := TokenClass.accept_eq_datum_iff.mpr ⟨rfl, hbaffles⟩
    exact ⟨_, b, spot, c, B, hvisits, hoffer, hB,
      Grammar.readToken_eq_datum_iff.mpr ⟨_, _, hk, haccept⟩⟩

/-- An input is understood or refused with a complaint, or it baffles a parameter. -/
theorem Furnished.answers (hh : h.Furnished made) (source : Option Sender) (s : String) :
    (¬ h.Baffled s ∧ ((∃ i, h.parse source (.string s) = .ok i) ∨
        ∃ failure, h.parse source (.string s) = .error (.parse failure))) ∨
      (h.Baffled s ∧
        ∃ found, h.parse source (.string s) = .error (.datum (.tooManyDigits found))) := by
  cases hwalk : h.grammar.walk h.registrar.start ⟨0, Grammar.withoutSlash s.toList⟩ .empty with
  | ok a =>
    refine Or.inl ⟨fun hbaffled => ?_, Grammar.parse_of_walk_ok hwalk⟩
    obtain ⟨fault, htrips⟩ := hh.trips_iff.mpr hbaffled
    exact Grammar.walk_ne_ok_of_trips htrips _ a hwalk
  | error fault =>
    obtain ⟨f, rfl, htrips⟩ := Grammar.trips_of_walk hwalk
    obtain ⟨hbaffled, found, rfl⟩ := hh.baffled_of_trips htrips
    exact Or.inr ⟨hbaffled, found, Grammar.parse_of_walk_error hwalk⟩

/-- **An input of ordinary length baffles no parameter**, unless the least length of one is too
long. -/
theorem not_baffled_of_length_le (hlen : s.length ≤ digitLimit)
    (hnames : ∀ n N p, h.forest.node? n = some N → p ∈ N.parameters.items →
      p.domain.LengthIsWritable) : ¬ h.Baffled s := by
  rintro ⟨b, spot, c, B, n, N, p, hvisits, -, -, hN, hp, -, hbaffles⟩
  refine Domain.not_baffles_of_length_le (hnames n N p hN hp) ?_ hbaffles
  have htoken := congrArg List.length
    (TokenClass.take_append_drop (.ofDomain p.domain) spot.ahead)
  rw [List.length_append] at htoken
  have hwhole : (Grammar.withoutSlash s.toList).length ≤ s.length := by
    rw [← String.length_toList]
    generalize s.toList = cs
    unfold Grammar.withoutSlash
    split <;> simp
  have hspot : spot.ahead.length ≤ (Grammar.withoutSlash s.toList).length := hvisits.length_le
  rw [String.length_ofList]
  omega

end Host

/--
**Every input is understood or refused with a complaint, unless it baffles a parameter.** In any
session of a host, an input leads to an invocation or to a failure of reading exactly if its search
comes to no token that a parameter can neither read nor complain about. Otherwise it leads to a
failure that is not one of reading: a number has too many digits.
-/
theorem parse_answers_iff {h host : Host} {handler : Option Handler} {words : List BranchId}
    (hf : h.forest.Reachable) (hs : Host.Session (h.renewed handler) host words)
    (source : Option Sender) (s : String) :
    ((∃ i, host.parse source (.string s) = .ok i) ∨
        (∃ failure, host.parse source (.string s) = .error (.parse failure)) ↔
      ¬ host.Baffled s) ∧
      ((∃ found, host.parse source (.string s) = .error (.datum (.tooManyDigits found))) ↔
        host.Baffled s) := by
  obtain ⟨hh, -⟩ := hs.furnished (Host.furnished_renewed hf handler)
  rcases hh.answers source s with ⟨hno, hanswer⟩ | ⟨hbaffled, found, hparse⟩
  · refine ⟨iff_of_true hanswer hno, iff_of_false (fun ⟨found, hparse⟩ => ?_) hno⟩
    rcases hanswer with ⟨i, hi⟩ | ⟨failure, hi⟩ <;> rw [hparse] at hi <;> cases hi
  · refine ⟨iff_of_false ?_ (not_not_intro hbaffled), iff_of_true ⟨found, hparse⟩ hbaffled⟩
    rintro (⟨i, hi⟩ | ⟨failure, hi⟩) <;> rw [hparse] at hi <;> cases hi

/-! ## An amount of too many digits -/

theorem spanDigits_ones (count : Nat) :
    spanDigits (List.replicate count '1') = (List.replicate count 1, []) := by
  induction count with
  | zero => rfl
  | succ count ih =>
    have hone : digitValue? '1' = some 1 := rfl
    rw [List.replicate_succ, spanDigits, hone, ih]
    rfl

/-- A numeral of one digit more than can be read. -/
def longAmount : List Char := List.replicate (digitLimit + 1) '1'

theorem longAmount_baffles (least greatest : Int) :
    (Domain.integer least greatest).Baffles (String.ofList longAmount) := by
  refine ⟨⟨false, List.replicate (digitLimit + 1) 1⟩, ?_, ?_⟩
  · have hsign : splitSign longAmount = (false, longAmount) := by
      rw [longAmount, List.replicate_succ]
      rfl
    rw [String.toList_ofList, IntegerNumeral.ofChars?, hsign, longAmount, spanDigits_ones,
      List.replicate_succ]
  · rw [List.length_replicate]
    exact Nat.lt_succ_self _

/-- A call of the command for points with a text for the amount. -/
def addPoints (amount : List Char) : String :=
  String.ofList ('/' :: ("points".toList ++ ' ' :: ("add".toList ++ ' ' :: amount)))

theorem withoutSlash_addPoints (amount : List Char) :
    Grammar.withoutSlash (addPoints amount).toList
      = "points".toList ++ ' ' :: ("add".toList ++ ' ' :: amount) :=
  congrArg Grammar.withoutSlash String.toList_ofList

/-- The host at which the command for points has been registered. -/
def pointsServer : Host := ((pointsHost.renewed none).register (some 0)).1

theorem session_pointsServer : Host.Session (pointsHost.renewed none) pointsServer [5] :=
  .register .start
    (Host.serves_of_compile (h := pointsHost) pointsForest_reachable compile_pointsHost).1

/-- The search for a call comes to the text for the amount. -/
theorem visits_amount {amount : List Char} (hne : amount ≠ []) :
    pointsServer.grammar.Visits pointsServer.registrar.start
      ⟨0, Grammar.withoutSlash (addPoints amount).toList⟩ 3 ⟨11, amount⟩ := by
  have hlong : 2 ≤ (' ' :: amount).length := by
    have hpos := List.length_pos_iff.mpr hne
    rw [List.length_cons]
    omega
  have hpoints : pointsGrammar.HasWord 1 "points" 5 := ⟨by decide, rfl⟩
  have hadd : pointsGrammar.HasWord 5 "add" 3 := ⟨by decide, rfl⟩
  have hfirst := @Grammar.takes_of_hasWord pointsGrammar 1
    ⟨0, "points".toList ++ ' ' :: ("add".toList ++ ' ' :: amount)⟩ 5
  have hsecond := @Grammar.takes_of_hasWord pointsGrammar 5 ⟨7, "add".toList ++ ' ' :: amount⟩ 3
  rw [Spot.word, firstWord_append_space (by decide), String.ofList_toList] at hfirst hsecond
  rw [withoutSlash_addPoints]
  refine .onward (hfirst hpoints) ?_ (.onward (hsecond hadd) hlong (.here ..))
  simp [Spot.after]

/-- The parameter of the amount stands at the place that the search has come to. -/
theorem offers_amount {word : String} : pointsServer.grammar.Offers 3 word 2 := by
  refine Or.inr ⟨?_, by decide, rfl⟩
  rintro other ⟨hmem, hmatch⟩
  have hitems : (pointsGrammar.childrenOf 3).items = [2] := rfl
  cases List.mem_singleton.mp (hitems ▸ hmem)
  cases hmatch

theorem baffled_longAmount : pointsServer.Baffled (addPoints longAmount) := by
  have hne : longAmount ≠ [] := by
    rw [longAmount, List.replicate_succ]
    exact List.cons_ne_nil _ _
  have htake : (TokenClass.ofDomain amountParameter.domain).take longAmount = longAmount := by
    refine firstWord_of_not_mem fun hspace => ?_
    cases List.eq_of_mem_replicate hspace
  refine ⟨3, ⟨11, longAmount⟩, 2, _, 1, _, amountParameter, visits_amount hne, offers_amount, rfl,
    rfl, List.mem_singleton_self _, rfl, ?_⟩
  rw [htake]
  exact longAmount_baffles 1 100

theorem lengths_of_pointsServer {n : NodeId} {N : Node} {p : Parameter}
    (hN : pointsServer.forest.node? n = some N) (hp : p ∈ N.parameters.items) :
    p.domain.LengthIsWritable := by
  rcases n with _ | _ | n <;> cases hN
  · cases hp
  · cases List.mem_singleton.mp hp
    trivial

/-- A call with a text that is no amount is understood or refused with a complaint. -/
theorem parse_answers_points :
    pointsForest.Reachable ∧ Host.Session (pointsHost.renewed none) pointsServer [5] ∧
      ¬ pointsServer.Baffled "/points add much" ∧
      ((∃ i, pointsServer.parse none (.string "/points add much") = .ok i) ∨
        ∃ failure, pointsServer.parse none (.string "/points add much")
          = .error (.parse failure)) := by
  have hno : ¬ pointsServer.Baffled "/points add much" :=
    Host.not_baffled_of_length_le (by decide) fun _ _ _ hN hp => lengths_of_pointsServer hN hp
  obtain ⟨hanswers, -⟩ := parse_answers_iff (h := pointsHost) pointsForest_reachable
    session_pointsServer none "/points add much"
  exact ⟨pointsForest_reachable, session_pointsServer, hno, hanswers.mpr hno⟩

/-- A call with an amount of too many digits is neither understood nor refused with a complaint. -/
theorem long_amount_has_no_answer :
    pointsForest.Reachable ∧ Host.Session (pointsHost.renewed none) pointsServer [5] ∧
      (∃ found, pointsServer.parse none (.string (addPoints longAmount))
        = .error (.datum (.tooManyDigits found))) ∧
      ¬ ((∃ i, pointsServer.parse none (.string (addPoints longAmount)) = .ok i) ∨
        ∃ failure, pointsServer.parse none (.string (addPoints longAmount))
          = .error (.parse failure)) := by
  obtain ⟨hh, -⟩ := session_pointsServer.furnished
    (Host.furnished_renewed (h := pointsHost) pointsForest_reachable none)
  rcases hh.answers none (addPoints longAmount) with ⟨hno, -⟩ | ⟨-, found, hparse⟩
  · exact absurd baffled_longAmount hno
  · refine ⟨pointsForest_reachable, session_pointsServer, ⟨found, hparse⟩, ?_⟩
    rintro (⟨i, hi⟩ | ⟨failure, hi⟩) <;> rw [hparse] at hi <;> cases hi

end CommandTree
