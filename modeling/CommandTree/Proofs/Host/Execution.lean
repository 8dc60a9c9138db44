import CommandTree.Proofs.Dispatch
import CommandTree.Proofs.Host.Language

/-!
# What executing an input runs

At a host where a command is registered alone, an input that is not understood has no effect. An
input that is understood runs the node that it leads to and no other: once if the sender is admitted
there, and not at all if not.

* `Grammar.Leads.mem_ids`: words lead to nodes of the tree only
* `Host.call_eq_dispatch`: the arguments that were read are handed on as they are
* `execute_runs_iff_admitted`: what is run, and with which call
-/

namespace CommandTree

open Text

/-! ## Where words lead -/

/-- Words lead from a node of a tree to nodes of the tree. -/
theorem Grammar.Leads.mem_ids {g : Grammar} {f : Forest} {made : BranchId}
    (hall : g.AllShaped f made) {t : Tree} (ht : t.Shows f) {ws : List String} {n m : NodeId}
    {b c : BranchId} (h : g.Leads b ws c) (hb : g.IsWordOf f made n b)
    (hc : g.IsWordOf f made m c) (hn : n ∈ t.ids) : m ∈ t.ids := by
  induction ws generalizing n b with
  | nil =>
    cases h
    rw [← hb.inj hc]
    exact hn
  | cons w ws ih =>
    obtain ⟨child, hchild, hleads⟩ := h
    obtain ⟨N, hN, hchildren⟩ := hall.children hb
    obtain ⟨-, k, hk, hword⟩ := hchildren.hasWord_iff.mp hchild
    have hitem := Forest.mem_items_of_mem_answering hN (List.mem_of_getLast? hk)
    exact ih hleads hword (Tree.child_mem_ids ht hn hN hitem)

theorem Reading.Fits.mem_ids {r : Reading} {g : Grammar} {f : Forest} {made word : BranchId}
    {root : NodeId} {R : Node} {cs : List Char} (h : r.Fits g f made word R cs)
    (hall : g.AllShaped f made) (hword : g.IsWordOf f made root word) {t : Tree}
    (ht : f.treeOf root = some t) : r.node ∈ t.ids := by
  obtain ⟨w, ws, -, -, -, ⟨c, N, -, hleads, hc, -⟩, -⟩ := h
  exact hleads.mem_ids hall (Forest.shows_of_treeOf ht) hword hc (Forest.id_mem_ids_of_treeOf ht)

/-! ## Handing on what was read -/

theorem length_le_of_filled {ps : List Parameter} {as : List ParsedArgument}
    (h : Filled ps as) : as.length ≤ ps.length := by
  induction ps generalizing as with
  | nil =>
    cases as with
    | nil => exact Nat.le_refl _
    | cons a as => cases h
  | cons p ps ih =>
    cases as with
    | nil => exact Nat.zero_le _
    | cons a as => exact Nat.succ_le_succ (ih h.2)

/-- The arguments that were read are handed on as they are. -/
theorem Host.call_eq_dispatch (h : Host) {f : Forest} {i : Invocation} {r : Reading} {N : Node}
    (hcall : i.callback = f.runnerOf r.node) (hargs : i.arguments.entries = r.named N)
    (hfilled : Filled N.parameters.items r.arguments) :
    h.call i = (dispatch h.forest h.handler i.source r.node
        (.dict (rawEntries N.parameters.items r.arguments))
        (.tuple (r.arguments.map fun a => .string a.raw))).bind fun v => .done (.verdict v) := by
  have hvalues : rawValues i = .dict (rawEntries N.parameters.items r.arguments) := by
    rw [rawValues, hargs, Reading.named, List.map_map]
    rfl
  have hitems : i.arguments.items = r.arguments := by
    rw [Catalog.items, hargs, Reading.named, List.map_map]
    exact List.map_snd_zip (length_le_of_filled hfilled)
  rw [call, hcall, rawArguments, hvalues, hitems]
  rfl

/-! ## Executing inputs -/

/-- Whether neither running a node nor telling a handler runs a node in turn. -/
def Forest.RunsAlone (f : Forest) (handler : Option Handler) : Prop :=
  (∀ id n, f.node? id = some n → ∀ call, callsIn (n.run call).events = []) ∧
    ∀ x, handler = some x → ∀ sender r, callsIn (x.handle sender r).events = []

/-- At a host where a command is registered, permission and audience come from the node itself or
from the command. -/
theorem Host.Serves.constraintSource_eq {h : Host} {f : Forest} {made word : BranchId}
    {root : NodeId} (hs : h.Serves f made root word) (hwf : f.WellFormed) {R : Node}
    (hR : f.node? root = some R) {t : Tree} (ht : f.treeOf root = some t) {n : NodeId} {N : Node}
    (hN : f.node? n = some N) (hn : n ∈ t.ids) :
    ∃ guard, h.forest.constraintSource n = some guard ∧
      ∀ sender, guard.Admits sender ↔ (if N.isRestricted then N else R).Admits sender := by
  obtain ⟨R', hR', hrole, -⟩ := hs.node
  rw [hR] at hR'
  cases hR'
  have hparent := hwf.parentOf_command hR hrole
  have hroot : h.forest.rootOf n = root := by
    rw [hs.forest, Forest.rootOf_sealUnder, Forest.rootOf_of_mem_ids hwf ht hparent hn]
  obtain ⟨b, hN'⟩ := Forest.node?_of_sealUnder hN root
  obtain ⟨b', hR'⟩ := Forest.node?_of_sealUnder hR root
  rw [← hs.forest] at hN' hR'
  rw [← hroot] at hR'
  refine ⟨_, Forest.constraintSource_eq hN' hR', fun sender => ?_⟩
  have hsame : ({ N with isSealed := b } : Node).isRestricted = N.isRestricted := rfl
  rw [hsame]
  by_cases hr : N.isRestricted = true
  · rw [if_pos hr, if_pos hr]
    exact Iff.rfl
  · rw [if_neg hr, if_neg hr]
    exact Iff.rfl

/--
**An input runs the node that it leads to, and only for senders that are admitted there.** An input
that is not understood has no effect but its fault. An input that is understood has a reading; the
node that the reading leads to is run once, with the values that were read, if the sender holds its
permission and is of its audience, and nothing is run otherwise. Both come from the node if it asks
for a permission of its own, and else from the command.
-/
theorem execute_runs_iff_admitted {h h' : Host} {handler : Option Handler} {root : NodeId}
    {R : Node} {word : BranchId} (hf : h.forest.Reachable)
    (hc : (h.renewed handler).compile (some root) = (h', .ok word))
    (hR : h.forest.node? root = some R) :
    ((h.renewed handler).register (some root)).2.result = .ok word ∧
      let host := ((h.renewed handler).register (some root)).1
      ∀ (sender : Option Sender) (s : String),
        let outcome := host.execute sender (.string s)
        (∀ fault, host.parse sender (.string s) = .error fault → outcome = .fail fault) ∧
        ∀ i, host.parse sender (.string s) = .ok i →
          ∃ (r : Reading) (N : Node) (t : Tree),
            r.Fits host.grammar h.forest (h.renewed handler).grammar.size word R
              (Grammar.withoutSlash s.toList) ∧
            h.forest.treeOf root = some t ∧ r.node ∈ t.ids ∧ h.forest.node? r.node = some N ∧
            i.callback = h.forest.runnerOf r.node ∧ i.arguments.entries = r.named N ∧
            Filled N.parameters.items r.arguments ∧
            let guard := if N.isRestricted then N else R
            let call := N.callWith sender (host.forest.usageOf r.node) r.arguments
            (guard.Admits sender → outcome
                = ⟨.ran call :: (N.run call).events ++ aftermath handler sender (N.run call).result,
                  .ok (.verdict (verdictOn (N.run call).result))⟩ ∧
              (h.forest.RunsAlone handler → callsIn outcome.events = [call])) ∧
            (¬ guard.Admits sender →
              (∃ fault, outcome
                = ⟨(settle handler sender fault).events, .ok (.verdict .failure)⟩) ∧
              (h.forest.RunsAlone handler → callsIn outcome.events = [])) := by
  have hwf := hf.wellFormed
  obtain ⟨hresult, hhandler, hs⟩ := Host.serves_of_compile hf hc
  refine ⟨hresult, fun sender s => ?_⟩
  generalize ((h.renewed handler).register (some root)).1 = host at hhandler hs ⊢
  refine ⟨fun fault => Host.execute_of_parse_error, fun i hi => ?_⟩
  obtain ⟨r, N, hfits, hN, hfilled, hsource, hargs, hcall⟩ := hs.exists_reading hwf hR hi
  obtain ⟨t, ht, -⟩ := hs.tree
  have hmem : r.node ∈ t.ids := hfits.mem_ids hs.shaped hs.word ht
  obtain ⟨guard, hguard, hadmits⟩ := hs.constraintSource_eq hwf hR ht hN hmem
  obtain ⟨b, hN'⟩ := Forest.node?_of_sealUnder hN root
  rw [← hs.forest] at hN'
  have hkeys := hwf.nodup_keys hN
  have hget : ∀ p ∈ N.parameters.items, N.parameters.get? p.key = some p := fun p =>
    hwf.get?_key hN
  obtain ⟨hyes, hno⟩ := dispatch_filled hN' hguard hkeys hget hfilled handler sender
  have hexecute : host.execute sender (.string s)
      = (dispatch host.forest handler sender r.node
          (.dict (rawEntries N.parameters.items r.arguments))
          (.tuple (r.arguments.map fun a => .string a.raw))).bind fun v => .done (.verdict v) := by
    rw [Host.execute, hi, ← hhandler, ← hsource]
    exact host.call_eq_dispatch hcall hargs hfilled
  refine ⟨r, N, t, hfits, ht, hmem, hN, hcall, hargs, hfilled, fun hadmitted => ?_,
    fun hrefused => ?_⟩
  -- the seal does not change what a node runs, nor who may run it
  · have hdispatched := hyes ((hadmits sender).mpr hadmitted)
    have hran := hexecute.trans (congrArg (Outcome.bind · _) hdispatched)
    rw [Outcome.bind_of_ok rfl] at hran
    simp only [Outcome.done, Outcome.of, List.append_nil] at hran
    refine ⟨hran, fun halone => ?_⟩
    rw [hran]
    exact callsIn_ran halone.2 sender _ (halone.1 _ _ hN _) _
  · obtain ⟨fault, hfault⟩ := hno fun hadmitted => hrefused ((hadmits sender).mp hadmitted)
    have hran := hexecute.trans (congrArg (Outcome.bind · _) hfault)
    rw [Outcome.bind_of_ok rfl] at hran
    simp only [Outcome.done, Outcome.of, List.append_nil] at hran
    refine ⟨⟨fault, hran⟩, fun halone => ?_⟩
    rw [hran]
    exact callsIn_settle halone.2 sender fault

theorem pointsForest_runsAlone : pointsForest.RunsAlone none := by
  refine ⟨fun id n hn call => ?_, fun x hx => by cases hx⟩
  rcases id with _ | _ | id <;> cases hn <;> rfl

/-- A player who holds the permission of the command. -/
def pointsPlayer : Sender :=
  Account.sender ⟨"player", .player, [.string "points.use"], false⟩

theorem pointsPlayer_holds : pointsPlayer.holds (.string "points.use") = .ok true := by
  rw [pointsPlayer, Account.holds_string rfl, Datum.memberOf, List.any_cons, Datum.same_string]
  rfl

/-- A player who holds the permission of the command runs its child; without a sender nothing is
run. -/
theorem execute_runs_iff_admitted_points :
    pointsForest.Reachable ∧
      (pointsHost.renewed none).compile (some 0)
        = (((pointsHost.renewed none).compile (some 0)).1, .ok 5) ∧
      pointsForest.RunsAlone none ∧
      ∃ R call, pointsForest.node? 0 = some R ∧ R.Admits (some pointsPlayer) ∧ ¬ R.Admits none ∧
        let host := ((pointsHost.renewed none).register (some 0)).1
        host.execute (some pointsPlayer) (.string "/pts GIVE 7")
            = ⟨[.ran call], .ok (.verdict .success)⟩ ∧
          call.values = [(.string "amount", .value (some .integer) (.integer 7))] ∧
          call.arguments = [.string "7"] ∧
          callsIn (host.execute none (.string "/pts GIVE 7")).events = [] := by
  obtain ⟨-, -, hs⟩ := Host.serves_of_compile (h := pointsHost) pointsForest_reachable
    compile_pointsHost
  obtain ⟨-, hexecute⟩ := execute_runs_iff_admitted (h := pointsHost) pointsForest_reachable
    compile_pointsHost rfl
  obtain ⟨i, hi⟩ := hs.exists_invocation rfl (some pointsPlayer) (fits_points rfl)
  obtain ⟨i', hi'⟩ := hs.exists_invocation rfl none (fits_points rfl)
  obtain ⟨r, N, t, hr, -, -, hN, -, -, -, hyes, -⟩ := (hexecute _ "/pts GIVE 7").2 i hi
  obtain ⟨r', N', t', hr', -, -, hN', -, -, -, -, hno⟩ := (hexecute _ "/pts GIVE 7").2 i' hi'
  cases Grammar.fits_unique hs.shaped hs.word hr (fits_points rfl)
  cases Grammar.fits_unique hs.shaped hs.word hr' (fits_points rfl)
  cases hN
  cases hN'
  have hheld : ∀ p, some "points.use" = some p →
      ∃ s, some pointsPlayer = some s ∧ s.holds (.string p) = .ok true := by
    rintro p ⟨⟩
    exact ⟨_, rfl, pointsPlayer_holds⟩
  have hplayer : ∃ s, some pointsPlayer = some s ∧ s.isInteractive = .ok true :=
    ⟨_, rfl, rfl⟩
  have hnone : ∀ R : Node, R.audience = .interactive → ¬ R.Admits none := by
    rintro R haudience ⟨-, hclass⟩
    rw [haudience] at hclass
    obtain ⟨s, hs, -⟩ := hclass
    cases hs
  exact ⟨pointsForest_reachable, compile_pointsHost, pointsForest_runsAlone, _, _, rfl,
    ⟨hheld, hplayer⟩, hnone _ rfl, (hyes ⟨hheld, hplayer⟩).1, rfl, rfl,
    (hno (hnone _ rfl)).2 pointsForest_runsAlone⟩

end CommandTree
