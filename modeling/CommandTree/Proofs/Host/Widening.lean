import CommandTree.Proofs.Forest.Lineage
import CommandTree.Proofs.Host.Language

/-!
# Commands that come to take more

A command is changed at one node: it is given one more parameter at the end, or its last parameter,
a string, becomes greedy. If the command can still be compiled, all that was understood before is
understood as before. Words lead to the same nodes, and what filled the parameters fills them still.

* `Widened.filled`: what fills parameters fills the wider ones
* `Widens.answering`: the same children answer to a word
* `Widens.fitsFrom`: a reading of the old command is one of the new command
* `widening_keeps_invocations`: what the inputs lead to
-/

namespace CommandTree

open Text

/-! ## Wider parameters -/

/-- Whether parameters are widened to others: one more stands at the end, or the last one is a
string that becomes greedy. -/
inductive Widened : List Parameter → List Parameter → Prop
  | more (ps : List Parameter) (p : Parameter) : Widened ps (ps ++ [p])
  | greedy (ps : List Parameter) {p p' : Parameter} {least : Nat} {greatest : Option Nat}
      {greedy : Bool} (hname : p'.name = p.name) (hp : p.domain = .string least greatest greedy)
      (hp' : p'.domain = .string least greatest true) : Widened (ps ++ [p]) (ps ++ [p'])

/-- A text that a string takes is taken by a greedy one. -/
theorem Parameter.AcceptsWhole.greedy {p p' : Parameter} {least : Nat} {greatest : Option Nat}
    {greedy : Bool} {a : ParsedArgument} (h : p.AcceptsWhole a)
    (hp : p.domain = .string least greatest greedy)
    (hp' : p'.domain = .string least greatest true) : p'.AcceptsWhole a := by
  obtain ⟨-, haccept⟩ := Parameter.acceptsWhole_iff.mp h
  refine Parameter.acceptsWhole_iff.mpr ⟨Or.inl ?_, ?_⟩
  · rw [hp']
    rfl
  · rw [hp']
    rw [hp] at haccept
    cases greedy <;> exact haccept

theorem filled_append {ps : List Parameter} {as : List ParsedArgument} (h : Filled ps as)
    (qs : List Parameter) : Filled (ps ++ qs) as := by
  induction ps generalizing as with
  | nil =>
    cases as with
    | nil => exact filled_nil _
    | cons a as => exact h.elim
  | cons p ps ih =>
    cases as with
    | nil => exact filled_nil _
    | cons a as => exact ⟨h.1, ih h.2⟩

/-- Parameters can be replaced where they stand by others that take as much. -/
theorem filled_replace {p p' : Parameter} (hp : ∀ a, p.AcceptsWhole a → p'.AcceptsWhole a)
    (ps : List Parameter) {as : List ParsedArgument} (h : Filled (ps ++ [p]) as) :
    Filled (ps ++ [p']) as := by
  induction ps generalizing as with
  | nil =>
    cases as with
    | nil => exact filled_nil _
    | cons a as => exact ⟨hp a h.1, by cases as <;> exact h.2⟩
  | cons q ps ih =>
    cases as with
    | nil => exact filled_nil _
    | cons a as => exact ⟨h.1, ih h.2⟩

/-- **What fills parameters fills the wider ones.** -/
theorem Widened.filled {ps ps' : List Parameter} (h : Widened ps ps') {as : List ParsedArgument}
    (hfilled : Filled ps as) : Filled ps' as := by
  cases h with
  | more _ p => exact filled_append hfilled [p]
  | greedy ps hname hp hp' => exact filled_replace (fun a ha => ha.greedy hp hp') ps hfilled

theorem Filled.length_le {ps : List Parameter} {as : List ParsedArgument} (h : Filled ps as) :
    as.length ≤ ps.length := by
  induction ps generalizing as with
  | nil =>
    cases as with
    | nil => exact Nat.le_refl _
    | cons a as => exact h.elim
  | cons p ps ih =>
    cases as with
    | nil => exact Nat.zero_le _
    | cons a as => exact Nat.succ_le_succ (ih h.2)

/-- What stands behind the names of the first parameters has no arguments. -/
theorem zip_append_of_length_le {α β : Type} {xs : List α} {ys : List β}
    (h : ys.length ≤ xs.length) (extra : List α) : (xs ++ extra).zip ys = xs.zip ys := by
  have hlong : min (xs ++ extra).length ys.length = ys.length := by
    rw [List.length_append]
    exact Nat.min_eq_right (Nat.le_trans h (Nat.le_add_right ..))
  rw [@List.zip_eq_zip_take_min _ _ (xs ++ extra) ys, @List.zip_eq_zip_take_min _ _ xs ys, hlong,
    Nat.min_eq_right h, List.take_append_of_le_length h]

/-- Wider parameters keep the names of those before. -/
theorem Widened.names {ps ps' : List Parameter} (h : Widened ps ps') :
    ∃ extra, ps'.map (·.name.text) = ps.map (·.name.text) ++ extra := by
  cases h with
  | more _ p => exact ⟨[p.name.text], by rw [List.map_append, List.map_singleton]⟩
  | greedy ps hname =>
    exact ⟨[], by simp only [List.map_append, List.map_singleton, hname, List.append_nil]⟩

/-- **Arguments keep their names where parameters are widened.** -/
theorem Widened.zip_names {ps ps' : List Parameter} (h : Widened ps ps')
    {as : List ParsedArgument} (hlength : as.length ≤ ps.length) :
    (ps'.zip as).map (fun e => (e.1.name.text, e.2))
      = (ps.zip as).map fun e => (e.1.name.text, e.2) := by
  obtain ⟨extra, hnames⟩ := h.names
  have hzip : ∀ qs : List Parameter, (qs.zip as).map (fun e => (e.1.name.text, e.2))
      = (qs.map (·.name.text)).zip as := fun qs => by
    rw [List.zip_map_left]
    rfl
  rw [hzip, hzip, hnames, zip_append_of_length_le (by rwa [List.length_map])]

/-! ## Wider commands -/

/-- Whether the commands under two places of two forests differ in the parameters of one node only,
which are widened. Each node of the first command has a counterpart in the second, of the same name
and aliases, whose children are the counterparts of its children. -/
structure Forest.Widens (f f' : Forest) (root changed : NodeId) (counterpart : NodeId → NodeId) :
    Prop where
  node : ∀ {m N}, root ∈ f.pathOf m → f.node? m = some N →
    ∃ N', f'.node? (counterpart m) = some N' ∧ N'.name = N.name ∧ N'.aliases = N.aliases ∧
      N'.children = N.children.map counterpart ∧
      (m = changed → Widened N.parameters.items N'.parameters.items) ∧
      (m ≠ changed → N'.parameters = N.parameters)

namespace Forest.Widens

variable {f f' : Forest} {root changed m : NodeId} {counterpart : NodeId → NodeId} {N N' : Node}
  {as : List ParsedArgument}

/-- What fills the parameters of a node fills those of its counterpart, under the same names. -/
theorem filled (hw : f.Widens f' root changed counterpart) (hm : root ∈ f.pathOf m)
    (hN : f.node? m = some N) (hN' : f'.node? (counterpart m) = some N')
    (hfilled : Filled N.parameters.items as) :
    Filled N'.parameters.items as ∧ ∀ ws, (⟨ws, counterpart m, as⟩ : Reading).named N'
      = (⟨ws, m, as⟩ : Reading).named N := by
  obtain ⟨N'', hN'', -, -, -, hchanged, hother⟩ := hw.node hm hN
  rw [hN'] at hN''
  cases hN''
  by_cases hmc : m = changed
  · exact ⟨(hchanged hmc).filled hfilled, fun ws => (hchanged hmc).zip_names hfilled.length_le⟩
  · have hsame := hother hmc
    exact ⟨hsame ▸ hfilled, fun ws => by rw [Reading.named, Reading.named, hsame]⟩

/-- A child stands under the same command. -/
theorem root_mem_child (hf : f.Reachable) (hm : root ∈ f.pathOf m) (hN : f.node? m = some N)
    {c : NodeId} (hc : c ∈ N.children.items) :
    root ∈ f.pathOf c ∧ ∃ C, f.node? c = some C := by
  obtain ⟨key, hkey⟩ := Catalog.mem_items_iff_get?.mp hc
  obtain ⟨C, hC, hparent, -⟩ := hf.wellFormed.child hN hkey
  have hp : f.parentOf c = some m := by
    rw [parentOf, hC]
    exact hparent
  rw [pathOf_child hf.wellFormed hf.grounded hp]
  exact ⟨List.mem_append_left _ hm, C, hC⟩

/-- **The counterparts of those children answer to a key that answer to it.** -/
theorem answering (hw : f.Widens f' root changed counterpart) (hf : f.Reachable)
    (hm : root ∈ f.pathOf m) (hN : f.node? m = some N) (key : String) :
    f'.answering (counterpart m) key = (f.answering m key).map counterpart := by
  obtain ⟨N', hN', -, -, hchildren, -⟩ := hw.node hm hN
  cases hget : N.children.get? key with
  | some c =>
    have hget' : N'.children.get? key = some (counterpart c) := by
      rw [hchildren, Catalog.get?_map, hget, Option.map_some]
    rw [answering_of_get? hN hget, answering_of_get? hN' hget', List.map_singleton]
  | none =>
    have hget' : N'.children.get? key = none := by
      rw [hchildren, Catalog.get?_map, hget, Option.map_none]
    rw [answering_of_get?_none hN hget, answering_of_get?_none hN' hget', hchildren,
      Catalog.items_map, List.filter_map]
    refine congrArg (List.map counterpart) (List.filter_congr fun c hc => ?_)
    obtain ⟨hroot, C, hC⟩ := root_mem_child hf hm hN hc
    obtain ⟨C', hC', -, haliases, -⟩ := hw.node hroot hC
    rw [Function.comp_apply, hasAlias, hasAlias, hC, hC', Option.any_some, Option.any_some,
      haliases]

/-! ## Readings of wider commands -/

variable {n : NodeId} {g g' : Grammar} {made made' b b' : BranchId} {w : String}

/-- A word leads to the same child of a node and of its counterpart. -/
theorem hasWord (hw : f.Widens f' root changed counterpart) (hf : f.Reachable)
    (hall : g.AllShaped f made) (hall' : g'.AllShaped f' made') (hn : root ∈ f.pathOf n)
    (hb : g.IsWordOf f made n b) (hb' : g'.IsWordOf f' made' (counterpart n) b') {c : BranchId}
    (h : g.HasWord b w c) :
    ∃ x c', root ∈ f.pathOf x ∧ g.IsWordOf f made x (g.target c) ∧ g'.HasWord b' w c' ∧
      g'.IsWordOf f' made' (counterpart x) (g'.target c') := by
  obtain ⟨N, hN, hchildren⟩ := hall.children hb
  obtain ⟨N', -, hchildren'⟩ := hall'.children hb'
  obtain ⟨-, x, hx, hword⟩ := hchildren.hasWord_iff.mp h
  have hx' : (f'.answering (counterpart n) (lowercase w)).getLast? = some (counterpart x) := by
    rw [hw.answering hf hn hN, List.getLast?_map, hx, Option.map_some]
  obtain ⟨c', hget, hmatch, hword'⟩ := hchildren'.exists_word hx'
  have hchild := Forest.mem_items_of_mem_answering hN (List.mem_of_getLast? hx)
  exact ⟨x, c', (root_mem_child hf hn hN hchild).1, hword,
    ⟨Catalog.mem_items_iff_get?.mpr ⟨_, hget⟩, hmatch⟩, hword'⟩

/-- Where a word leads nowhere, it leads nowhere in the wider command. -/
theorem not_hasWord (hw : f.Widens f' root changed counterpart) (hf : f.Reachable)
    (hall : g.AllShaped f made) (hall' : g'.AllShaped f' made') (hn : root ∈ f.pathOf n)
    (hb : g.IsWordOf f made n b) (hb' : g'.IsWordOf f' made' (counterpart n) b')
    (h : ∀ c, ¬ g.HasWord b w c) (c' : BranchId) : ¬ g'.HasWord b' w c' := by
  obtain ⟨N, hN, hchildren⟩ := hall.children hb
  obtain ⟨N', -, hchildren'⟩ := hall'.children hb'
  intro hword
  obtain ⟨-, x', hx', -⟩ := hchildren'.hasWord_iff.mp hword
  rw [hw.answering hf hn hN, List.getLast?_map, Option.map_eq_some_iff] at hx'
  obtain ⟨x, hx, -⟩ := hx'
  obtain ⟨c, hget, hmatch, -⟩ := hchildren.exists_word hx
  exact h c ⟨Catalog.mem_items_iff_get?.mpr ⟨_, hget⟩, hmatch⟩

/-- **A reading from a node on is one from its counterpart on.** -/
theorem fitsFrom (hw : f.Widens f' root changed counterpart) (hf : f.Reachable)
    (hall : g.AllShaped f made) (hall' : g'.AllShaped f' made') {ws : List String}
    {as : List ParsedArgument} (hn : root ∈ f.pathOf n) (hb : g.IsWordOf f made n b)
    (hb' : g'.IsWordOf f' made' (counterpart n) b') (h : Reading.FitsFrom ⟨ws, m, as⟩ g f made b) :
    root ∈ f.pathOf m ∧ Reading.FitsFrom ⟨ws, counterpart m, as⟩ g' f' made' b' := by
  induction ws generalizing n b b' with
  | nil =>
    obtain ⟨hm, N, hN, hfilled, hno⟩ := Reading.fitsFrom_nil_iff.mp h
    cases hm.inj hb
    obtain ⟨N', hN', -⟩ := hw.node hn hN
    refine ⟨hn, Reading.fitsFrom_nil_iff.mpr
      ⟨hb', N', hN', (hw.filled hn hN hN' hfilled).1, fun x xs hxs => ?_⟩⟩
    exact hw.not_hasWord hf hall hall' hn hb hb' (hno x xs hxs)
  | cons w ws ih =>
    obtain ⟨hspace, c, hc, hrest⟩ := Reading.fitsFrom_cons_iff.mp h
    obtain ⟨x, c', hx, hword, hc', hword'⟩ := hw.hasWord hf hall hall' hn hb hb' hc
    obtain ⟨hm, hrest'⟩ := ih hx hword hword' hrest
    exact ⟨hm, Reading.fitsFrom_cons_iff.mpr ⟨hspace, c', hc', hrest'⟩⟩

end Forest.Widens

/--
**A command that comes to take more still takes what it took.** Two commands differ at one node
only, where the second has one more parameter at the end or a string at the end that has become
greedy, and both can be compiled. Each is registered alone. Then whatever the first understands, the
second understands too: it calls what runs the counterpart of the node, with the same arguments.
-/
theorem widening_keeps_invocations {h k h' k' : Host} {handler handler' : Option Handler}
    {root changed : NodeId} {counterpart : NodeId → NodeId} {word word' : BranchId}
    (hf : h.forest.Reachable) (hf' : k.forest.Reachable)
    (hw : h.forest.Widens k.forest root changed counterpart)
    (hc : (h.renewed handler).compile (some root) = (h', .ok word))
    (hc' : (k.renewed handler').compile (some (counterpart root)) = (k', .ok word')) :
    let host := ((h.renewed handler).register (some root)).1
    let host' := ((k.renewed handler').register (some (counterpart root))).1
    ((h.renewed handler).register (some root)).2.result = .ok word ∧
      ((k.renewed handler').register (some (counterpart root))).2.result = .ok word' ∧
      ∀ source s i, host.parse source (.string s) = .ok i →
        ∃ i' n, host'.parse source (.string s) = .ok i' ∧ root ∈ h.forest.pathOf n ∧
          i.callback = h.forest.runnerOf n ∧ i'.callback = k.forest.runnerOf (counterpart n) ∧
          i'.arguments = i.arguments := by
  intro host host'
  obtain ⟨hresult, -, hs⟩ := Host.serves_of_compile hf hc
  obtain ⟨hresult', -, hs'⟩ := Host.serves_of_compile hf' hc'
  refine ⟨hresult, hresult', fun source s i hi => ?_⟩
  have hroot : root ∈ h.forest.pathOf root := List.mem_append_right _ (List.mem_singleton_self root)
  obtain ⟨R, hR, -⟩ := hs.node
  obtain ⟨R', hR', hname, haliases, -⟩ := hw.node hroot hR
  obtain ⟨⟨words, n, as⟩, N, ⟨w, ws, rfl, hspace, hmatches, hfits, htexts⟩, hN, hfilled, -, hargs,
    hcall⟩ := hs.exists_reading hf.wellFormed hR hi
  obtain ⟨hn, hfits'⟩ := hw.fitsFrom hf hs.shaped hs'.shaped hroot hs.word hs'.word hfits
  obtain ⟨N', hN', -⟩ := hw.node hn hN
  have hreading : Reading.Fits ⟨w :: ws, counterpart n, as⟩ host'.grammar k.forest
      (k.renewed handler').grammar.size word' R' (Grammar.withoutSlash s.toList) := by
    refine ⟨w, ws, rfl, hspace, ?_, hfits', htexts⟩
    rw [Node.matchesWord, hname, haliases]
    exact hmatches
  obtain ⟨i', hi'⟩ := hs'.exists_invocation hR' source hreading
  obtain ⟨r, M, hr, hM, -, -, hargs', hcall'⟩ := hs'.exists_reading hf'.wellFormed hR' hi'
  cases Grammar.fits_unique hs'.shaped hs'.word hr hreading
  rw [hN'] at hM
  cases hM
  refine ⟨i', n, hi', hn, hcall, hcall', Catalog.ext ?_⟩
  rw [hargs, hargs']
  exact (hw.filled hn hN hN' hfilled).2 _

/-! ## Points with a reason -/

/-- The rest of an input as a reason. -/
def reasonParameter : Parameter :=
  ⟨"argument", ⟨"reason", by decide⟩, .string 1 none true, true, fun m hm => by cases hm⟩

/-- The command for points, whose child takes a reason behind the amount. -/
def reasonForest : Forest :=
  pointsForest.update 1 fun N => { N with parameters := N.parameters.put "reason" reasonParameter }

theorem reasonForest_reachable : reasonForest.Reachable :=
  pointsForest_reachable.step (.parameter (show _ = .ok _ from rfl :
    pointsForest.registerParameter 1 (some reasonParameter) = _))

/-- A host with the nodes of that command. -/
def reasonHost : Host := { Host.create none with forest := reasonForest }

theorem compile_reasonHost : (reasonHost.renewed none).compile (some 0)
    = (((reasonHost.renewed none).compile (some 0)).1, .ok 6) := rfl

theorem pointsForest_widens : pointsForest.Widens reasonForest 0 1 id where
  node := fun {m N} _ hN => by
    rcases m with _ | _ | m <;> cases hN
    · exact ⟨_, rfl, rfl, rfl, rfl, fun h => absurd h (by decide), fun _ => rfl⟩
    · exact ⟨_, rfl, rfl, rfl, rfl, fun _ => .more [amountParameter] reasonParameter,
        fun h => absurd rfl h⟩

/-- A call without a reason is understood as it was before there were reasons. -/
theorem widening_keeps_invocations_points :
    pointsForest.Reachable ∧ reasonForest.Reachable ∧ pointsForest.Widens reasonForest 0 1 id ∧
      (pointsHost.renewed none).compile (some 0)
        = (((pointsHost.renewed none).compile (some 0)).1, .ok 5) ∧
      (reasonHost.renewed none).compile (some 0)
        = (((reasonHost.renewed none).compile (some 0)).1, .ok 6) ∧
      ∃ i i' n, ((pointsHost.renewed none).register (some 0)).1.parse none (.string "/pts GIVE 7")
          = .ok i ∧
        ((reasonHost.renewed none).register (some 0)).1.parse none (.string "/pts GIVE 7")
          = .ok i' ∧
        i.callback = pointsForest.runnerOf n ∧ i'.callback = reasonForest.runnerOf n ∧
        i'.arguments = i.arguments := by
  obtain ⟨-, -, hs⟩ := Host.serves_of_compile (h := pointsHost) pointsForest_reachable
    compile_pointsHost
  obtain ⟨i, hi⟩ := hs.exists_invocation rfl none (fits_points rfl)
  obtain ⟨-, -, hkept⟩ := widening_keeps_invocations (h := pointsHost) (k := reasonHost)
    pointsForest_reachable reasonForest_reachable pointsForest_widens compile_pointsHost
    compile_reasonHost
  obtain ⟨i', n, hi', -, hcall, hcall', harguments⟩ := hkept none _ i hi
  exact ⟨pointsForest_reachable, reasonForest_reachable, pointsForest_widens, compile_pointsHost,
    compile_reasonHost, i, i', n, hi, hi', hcall, hcall', harguments⟩

end CommandTree
