import CommandTree.Proofs.Host.Mounting

/-!
# What a registered command understands

A command that is registered alone understands exactly the inputs that have a reading: the name of
the command or an alias, words that lead down the tree, and texts that fill the first parameters of
the node that they lead to, all joined by single spaces. An input has one reading at most, and it
says what is called and with which arguments.

* `Grammar.Filed.eligible_eq`: what is tried at the start
* `Grammar.fits_of_walk`, `Grammar.walk_of_fits`: the search finds exactly the readings
* `parse_iff_reading`: the inputs that are understood
-/

namespace CommandTree

open Text

/-! ## Arguments by name -/

/-- Arguments that are put under different names come in the order of their parameters. -/
theorem entries_putAll {ps : List Parameter} (h : (ps.map (·.name.text)).Nodup)
    (as : List ParsedArgument) :
    (putAll .empty ps as).entries = (ps.zip as).map fun e => (e.1.name.text, e.2) := by
  have hnew : ((.empty : Catalog ParsedArgument).keys
      ++ (ps.zip as).map fun e => e.1.name.text).Nodup := by
    rw [Catalog.keys_empty, List.nil_append]
    exact nodup_map_zip h as
  rw [putAll_eq_foldl]
  exact Catalog.entries_foldl_put (fun e : Parameter × ParsedArgument => e.1.name.text) Prod.snd _ _
    hnew

/-- The arguments of a reading, by the names of the parameters of a node. -/
def Reading.named (r : Reading) (n : Node) : List (String × ParsedArgument) :=
  (n.parameters.items.zip r.arguments).map fun e => (e.1.name.text, e.2)

/-! ## At the start -/

namespace Grammar

variable {g : Grammar} {f : Forest} {made start word : BranchId} {keys : List String}

/-- Whether only words stand at the start, each under its key. -/
structure Filed (g : Grammar) (start : BranchId) : Prop where
  isStart : ∃ S, g.branch? start = some S ∧ S.kind = .start
  word : ∀ {key c}, (g.childrenOf start).get? key = some c →
    ∃ C name redirect, g.branch? c = some C ∧ C.kind = .word name redirect ∧ name.key = key

/-- Whether only words stand at the start, each under its key, and all of them stand for words of
nodes. -/
structure Opens (g : Grammar) (f : Forest) (made start : BranchId) : Prop where
  isStart : ∃ S, g.branch? start = some S ∧ S.kind = .start
  words : ∀ key c, (g.childrenOf start).get? key = some c →
    ∃ root word, g.WordAt made (g.childrenOf start) key word ∧ g.IsWordOf f made root word

theorem childrenOf_start {S : Branch} (hS : g.branch? start = some S) (hk : S.kind = .start) :
    g.childrenOf start = S.children := by
  have htarget : g.target start = start :=
    target_of_redirect?_none hS (by rw [Branch.redirect?, hk])
  rw [Grammar.childrenOf, htarget, hS]

/-- What stands at the start is the word of its key. -/
theorem Filed.matchesWord_iff (h : g.Filed start) {key : String} {c : BranchId}
    (hc : (g.childrenOf start).get? key = some c) {w : String} :
    (g.branch? c).any (·.matchesWord w) = true ↔ key = lowercase w := by
  obtain ⟨C, name, redirect, hC, hk, rfl⟩ := h.word hc
  rw [hC, Option.any_some, Branch.matchesWord, hk]
  exact beq_iff_eq.trans eq_comm

/-- Nothing is tried at the start but what stands there under the key of the word. -/
theorem Filed.eligible_eq (h : g.Filed start) (w : String) :
    g.eligible start w = ((g.childrenOf start).get? (lowercase w)).toList := by
  have hwords := Catalog.filter_items_eq fun key item hkey => (h.matchesWord_iff (w := w) hkey).mp
  have hslots :
      ((g.childrenOf start).items.filter fun c => (g.branch? c).any Branch.isSlot) = [] := by
    refine List.filter_eq_nil_iff.mpr fun c hmem hslot => ?_
    obtain ⟨key, hkey⟩ := Catalog.mem_items_iff_get?.mp hmem
    obtain ⟨C, name, redirect, hC, hk, -⟩ := h.word hkey
    rw [hC, Option.any_some, Branch.isSlot, hk] at hslot
    cases hslot
  rw [eligible, hwords, hslots]
  cases hget : (g.childrenOf start).get? (lowercase w) with
  | none => rfl
  | some c =>
    rw [Option.filter_some, if_pos ((h.matchesWord_iff hget).mpr rfl)]
    rfl

theorem Opens.filed (h : g.Opens f made start) : g.Filed start where
  isStart := h.isStart
  word := fun hc => by
    obtain ⟨root, word, ⟨c', C, name, redirect, hget, -, hC, hk, hname, -⟩, -⟩ := h.words _ _ hc
    rw [hget] at hc
    cases hc
    exact ⟨C, name, redirect, hC, hk, hname⟩

/-- A word that stands at the start is all that is tried there. -/
theorem Filed.eligible_word (h : g.Filed start) {w : String} {c : BranchId}
    (hc : (g.childrenOf start).get? (lowercase w) = some c) :
    g.HasWord start w c ∧ g.eligible start w = [c] := by
  refine ⟨⟨Catalog.mem_items_iff_get?.mpr ⟨_, hc⟩, (h.matchesWord_iff hc).mpr rfl⟩, ?_⟩
  rw [h.eligible_eq, hc]
  rfl

/-- Where a word does not stand at the start, nothing is tried. -/
theorem Filed.eligible_other (h : g.Filed start) {w : String}
    (hw : (g.childrenOf start).get? (lowercase w) = none) : g.eligible start w = [] := by
  rw [h.eligible_eq, hw]
  rfl

/-- A search that succeeds from the start on goes on behind a word that stands there. -/
theorem Opens.first_word (h : g.Opens f made start) {cs : List Char} {a : Attempt}
    (hend : g.EndsIn (g.walk start ⟨0, cs⟩ .empty) a) :
    ∃ c, (g.childrenOf start).get? (lowercase (String.ofList (firstWord cs))) = some c ∧
      g.EndsIn (g.resume c ((⟨0, cs⟩ : Spot).after (firstWord cs).length)
        (extended .empty c none)) a := by
  cases hget : (g.childrenOf start).get? (lowercase (String.ofList (firstWord cs))) with
  | some c =>
    obtain ⟨hchild, hel⟩ := h.filed.eligible_word hget
    rw [@walk_of_hasWord g start c ⟨0, cs⟩ hel hchild] at hend
    exact ⟨c, rfl, hend⟩
  | none =>
    have hstop := @walk_of_eligible_nil g start ⟨0, cs⟩ .empty (h.filed.eligible_other hget)
    rw [hstop] at hend
    obtain ⟨rfl, -, hcall⟩ := endsIn_stop.mp hend
    cases hcall

/-! ## Where one word is mounted -/

theorem Mounted.childrenOf (h : g.Mounted made start word keys) :
    (∀ key ∈ keys, g.WordAt made (g.childrenOf start) key word) ∧
      ∀ key ∉ keys, (g.childrenOf start).get? key = none := by
  obtain ⟨S, hS, hkind, hrest⟩ := h
  rw [childrenOf_start hS hkind]
  exact hrest

theorem Mounted.key_mem (h : g.Mounted made start word keys) {key : String} {c : BranchId}
    (hc : (g.childrenOf start).get? key = some c) : key ∈ keys := by
  by_contra hno
  rw [h.childrenOf.2 key hno] at hc
  cases hc

theorem Mounted.opens (h : g.Mounted made start word keys) {root : NodeId}
    (hword : g.IsWordOf f made root word) : g.Opens f made start where
  isStart := by
    obtain ⟨S, hS, hkind, -⟩ := h
    exact ⟨S, hS, hkind⟩
  words := fun key c hc => ⟨root, word, h.childrenOf.1 key (h.key_mem hc), hword⟩

theorem Mounted.exists_word (h : g.Mounted made start word keys) {root : NodeId}
    (hword : g.IsWordOf f made root word) {w : String} (hw : lowercase w ∈ keys) :
    ∃ c, (g.childrenOf start).get? (lowercase w) = some c ∧ g.target c = word := by
  obtain ⟨c, hget, -, htarget⟩ := (h.childrenOf.1 _ hw).found hword
  exact ⟨c, hget, htarget⟩

end Grammar

/-! ## Readings of whole inputs -/

/-- Whether a reading holds for an input, given the command and its word: the first word is the name
of the command or an alias, the rest is read from the word of the command on, and the texts that are
read are the input, joined by single spaces. -/
def Reading.Fits (r : Reading) (g : Grammar) (f : Forest) (made word : BranchId) (root : Node)
    (cs : List Char) : Prop :=
  ∃ w ws, r.words = w :: ws ∧ ' ' ∉ w.toList ∧ root.matchesWord w = true ∧
    Reading.FitsFrom ⟨ws, r.node, r.arguments⟩ g f made word ∧ joined r.texts = cs

theorem Node.matchesWord_iff {n : Node} {w : String} :
    n.matchesWord w = true ↔ lowercase w ∈ n.key :: n.aliases.map Name.key := by
  rw [Node.matchesWord, Bool.or_eq_true, List.mem_cons, List.mem_map, List.any_eq_true]
  refine or_congr beq_iff_eq (exists_congr fun a => and_congr_right fun _ => ?_)
  rw [sameWord, beq_iff_eq]
  exact eq_comm

namespace Grammar

variable {g : Grammar} {f : Forest} {made start word : BranchId} {root : NodeId} {N : Node}

/-- What a search has read that succeeds from the start on. -/
theorem fits_of_walk (hall : g.AllShaped f made) (hword : g.IsWordOf f made root word)
    (hs : g.Mounted made start word (N.key :: N.aliases.map Name.key)) {cs : List Char}
    {a : Attempt} (hend : g.EndsIn (g.walk start ⟨0, cs⟩ .empty) a) :
    ∃ (r : Reading) (M : Node), r.Fits g f made word N cs ∧ f.node? r.node = some M ∧
      Filled M.parameters.items r.arguments ∧
      a.trail.arguments = putAll .empty M.parameters.items r.arguments ∧
      g.calledAt a = some (f.runnerOf r.node) := by
  obtain ⟨c, hget, hend⟩ := (hs.opens hword).first_word hend
  have hw := hs.key_mem hget
  obtain ⟨c', hget', htarget⟩ := hs.exists_word hword hw
  rw [hget] at hget'
  cases hget'
  obtain ⟨rest, hsplit, hrest⟩ := firstWord_append_rest cs
  have hafter : ((⟨0, cs⟩ : Spot).after (firstWord cs).length).ahead = rest := ahead_after hsplit
  obtain ⟨⟨ws, m, args⟩, M, hfits, htexts, hM, hargs, hcall⟩ := fitsFrom_of_resume hall
    (htarget ▸ hword) (List.getLast?_concat ..) (hafter ▸ hrest) hend
  rw [htarget] at hfits
  refine ⟨⟨String.ofList (firstWord cs) :: ws, m, args⟩, M,
    ⟨_, ws, rfl, ?_, Node.matchesWord_iff.mpr hw, hfits, ?_⟩, hM, hfits.filled hM, hargs, hcall⟩
  · rw [String.toList_ofList]
    exact space_not_mem_firstWord cs
  · rw [Reading.texts_cons, joined_cons_spaced, String.toList_ofList, ← htexts, hafter, ← hsplit]

/-- An input that has a reading is found by a search that succeeds. -/
theorem walk_of_fits (hall : g.AllShaped f made) (hword : g.IsWordOf f made root word)
    (hs : g.Mounted made start word (N.key :: N.aliases.map Name.key)) {cs : List Char}
    {r : Reading} (h : r.Fits g f made word N cs) :
    ∃ a, g.EndsIn (g.walk start ⟨0, cs⟩ .empty) a := by
  obtain ⟨w, ws, hws, hspace, hmatches, hfits, rfl⟩ := h
  have hjoined : joined r.texts
      = w.toList ++ spaced (⟨ws, r.node, r.arguments⟩ : Reading).texts := by
    rw [Reading.texts, hws, List.cons_append, joined_cons_spaced]
    rfl
  have hfirst : firstWord (joined r.texts) = w.toList := by
    rw [hjoined, firstWord_append_spaced hspace]
  obtain ⟨c, hget, htarget⟩ := hs.exists_word hword (Node.matchesWord_iff.mp hmatches)
  obtain ⟨hchild, hel⟩ := (hs.opens hword).filed.eligible_word hget
  have hsame : w = String.ofList (firstWord (joined r.texts)) := by
    rw [hfirst, String.ofList_toList]
  subst hsame
  rw [@walk_of_hasWord g start c ⟨0, joined r.texts⟩ hel hchild]
  refine resume_of_fitsFrom hall (htarget ▸ hword) (List.getLast?_concat ..) (htarget ▸ hfits) ?_
  rw [hfirst]
  exact ahead_after hjoined

/-- An input has one reading at most. -/
theorem fits_unique (hall : g.AllShaped f made) (hword : g.IsWordOf f made root word)
    {cs : List Char} {r r' : Reading} (h : r.Fits g f made word N cs)
    (h' : r'.Fits g f made word N cs) : r = r' := by
  obtain ⟨words, m, args⟩ := r
  obtain ⟨words', m', args'⟩ := r'
  obtain ⟨w, ws, rfl, hspace, -, hfits, hcs⟩ := h
  obtain ⟨w', ws', rfl, hspace', -, hfits', hcs'⟩ := h'
  have htail : w.toList ++ spaced (⟨ws, m, args⟩ : Reading).texts
      = w'.toList ++ spaced (⟨ws', m', args'⟩ : Reading).texts := by
    rw [← hcs', Reading.texts, Reading.texts, List.cons_append, List.cons_append,
      joined_cons_spaced, joined_cons_spaced] at hcs
    exact hcs
  have hww : w = w' := by
    rw [← firstWord_of_joined_eq hspace' htail, firstWord_of_not_mem hspace, String.ofList_toList]
  subst hww
  cases fitsFrom_unique hall hword hfits hfits' (List.append_cancel_left htail)
  rfl

end Grammar

/-- An input that a command understands has a reading, which the invocation tells. -/
theorem Host.Serves.exists_reading {h : Host} {f : Forest} {made word : BranchId} {root : NodeId}
    (hs : h.Serves f made root word) (hwf : f.WellFormed) {N : Node}
    (hN : f.node? root = some N) {source : Option Sender} {s : String} {i : Invocation}
    (hi : h.parse source (.string s) = .ok i) :
    ∃ (r : Reading) (M : Node), r.Fits h.grammar f made word N (Grammar.withoutSlash s.toList) ∧
      f.node? r.node = some M ∧ Filled M.parameters.items r.arguments ∧
      i.source = source ∧ i.arguments.entries = r.named M ∧ i.callback = f.runnerOf r.node := by
  obtain ⟨N', hN', -, hmounted⟩ := hs.node
  rw [hN] at hN'
  cases hN'
  obtain ⟨a, callback, hend, hcall, rfl⟩ := Grammar.parse_eq_ok_iff.mp hi
  obtain ⟨r, M, hfits, hM, hfilled, hargs, hcall'⟩ :=
    Grammar.fits_of_walk hs.shaped hs.word hmounted hend
  rw [hcall] at hcall'
  cases hcall'
  refine ⟨r, M, hfits, hM, hfilled, rfl, ?_, rfl⟩
  rw [hargs, entries_putAll (hwf.nodup_names hM)]
  rfl

/-- An input that has a reading is understood. -/
theorem Host.Serves.exists_invocation {h : Host} {f : Forest} {made word : BranchId}
    {root : NodeId} (hs : h.Serves f made root word) {N : Node} (hN : f.node? root = some N)
    (source : Option Sender) {s : String} {r : Reading}
    (hr : r.Fits h.grammar f made word N (Grammar.withoutSlash s.toList)) :
    ∃ i, h.parse source (.string s) = .ok i := by
  obtain ⟨N', hN', -, hmounted⟩ := hs.node
  rw [hN] at hN'
  cases hN'
  obtain ⟨a, hend⟩ := Grammar.walk_of_fits hs.shaped hs.word hmounted hr
  obtain ⟨r', M, -, -, -, -, hcall⟩ := Grammar.fits_of_walk hs.shaped hs.word hmounted hend
  exact ⟨_, Grammar.parse_eq_ok_iff.mpr ⟨a, _, hend, hcall, rfl⟩⟩

/--
**The language of a command.** A command that can be compiled is registered; then an input is
understood exactly if it has a reading, of which there is one at most. The reading says which
arguments the invocation holds, in which order, and that it calls what runs the node.
-/
theorem parse_iff_reading {h h' : Host} {handler : Option Handler} {root : NodeId} {N : Node}
    {word : BranchId} (hf : h.forest.Reachable)
    (hc : (h.renewed handler).compile (some root) = (h', .ok word))
    (hN : h.forest.node? root = some N) :
    ((h.renewed handler).register (some root)).2.result = .ok word ∧
      let host := ((h.renewed handler).register (some root)).1
      ∀ (source : Option Sender) (s : String),
        let fits := fun r : Reading => r.Fits host.grammar h.forest (h.renewed handler).grammar.size
          word N (Grammar.withoutSlash s.toList)
        ((∃ i, host.parse source (.string s) = .ok i) ↔ ∃ r, fits r) ∧
        (∀ r r', fits r → fits r' → r = r') ∧
        ∀ i r, host.parse source (.string s) = .ok i → fits r →
          ∃ M, h.forest.node? r.node = some M ∧ i.source = source ∧
            i.arguments.entries = r.named M ∧ i.callback = h.forest.runnerOf r.node := by
  have hwf := hf.wellFormed
  obtain ⟨hresult, -, hserves⟩ := Host.serves_of_compile hf hc
  refine ⟨hresult, fun source s => ?_⟩
  refine ⟨⟨?_, ?_⟩, fun r r' hr hr' => ?_, ?_⟩
  · rintro ⟨i, hi⟩
    obtain ⟨r, M, hfits, -⟩ := hserves.exists_reading hwf hN hi
    exact ⟨r, hfits⟩
  · rintro ⟨r, hr⟩
    exact hserves.exists_invocation hN source hr
  · exact Grammar.fits_unique hserves.shaped hserves.word hr hr'
  · intro i r hi hr
    obtain ⟨r', M, hr', hM, -, hsource, hargs, hcall⟩ := hserves.exists_reading hwf hN hi
    cases Grammar.fits_unique hserves.shaped hserves.word hr hr'
    exact ⟨M, hM, hsource, hargs, hcall⟩

/-! ## A command for points -/

/-- A command with an alias, a permission and an audience, and one child, which has an alias too and
takes an amount. -/
def pointsForest : Forest :=
  ⟨[⟨⟨"root", .root, ⟨"points", by decide⟩, some "points.use", none, [⟨"pts", by decide⟩],
        .interactive⟩, Catalog.empty.put "add" 1, .empty, none, false, fun _ => .done ()⟩,
    ⟨⟨"child", .sub, ⟨"add", by decide⟩, none, none, [⟨"give", by decide⟩], .anyone⟩, .empty,
      Catalog.empty.put "amount" amountParameter, some 0, false, fun _ => .done ()⟩]⟩

theorem pointsForest_reachable : pointsForest.Reachable := by
  have hroot : Node.describe "root" .root (.string "points")
        { permission := .string "points.use", aliases := .tuple [.string "pts"]
          audience := .audience .interactive }
      = .ok ⟨"root", .root, ⟨"points", by decide⟩, some "points.use", none,
        [⟨"pts", by decide⟩], .interactive⟩ := rfl
  have hadd : Node.describe "child" .sub (.string "add") { aliases := .tuple [.string "give"] }
      = .ok ⟨"child", .sub, ⟨"add", by decide⟩, none, none, [⟨"give", by decide⟩], .anyone⟩ := rfl
  have htwo := (Forest.Reachable.start.step (.add (fun _ => .done ()) hroot)).step
    (.add (fun _ => .done ()) hadd)
  have hlinked := htwo.step
    (.child (show _ = .ok _ from rfl : Forest.registerChild _ 0 (some 1) = _))
  exact hlinked.step
    (.parameter (show _ = .ok _ from rfl : Forest.registerParameter _ 1 (some amountParameter) = _))

/-- A host with the nodes of the command. -/
def pointsHost : Host := { Host.create none with forest := pointsForest }

theorem compile_pointsHost : (pointsHost.renewed none).compile (some 0)
    = (((pointsHost.renewed none).compile (some 0)).1, .ok 5) := rfl

/-- The child is reached by its alias, and its amount is read. -/
def pointsReading : Reading := ⟨["pts", "GIVE"], 1, [⟨"7", .integer 7⟩]⟩

/-- The grammar of a host at which the command has been registered. -/
def pointsGrammar : Grammar := ((pointsHost.renewed none).register (some 0)).1.grammar

theorem fits_points {N : Node} (hN : pointsForest.node? 0 = some N) :
    pointsReading.Fits pointsGrammar pointsForest 2 5 N
      (Grammar.withoutSlash "/pts GIVE 7".toList) := by
  cases hN
  have hgive : pointsGrammar.HasWord 5 "GIVE" 4 := ⟨by decide, rfl⟩
  have hleads : pointsGrammar.Leads 5 ["GIVE"] 3 := ⟨4, hgive, rfl⟩
  have hword : pointsGrammar.IsWordOf pointsForest 2 1 3 := ⟨by decide, _, _, rfl, rfl, rfl, rfl⟩
  have hfilled : Filled [amountParameter] [⟨"7", .integer 7⟩] := ⟨⟨by decide, rfl⟩, trivial⟩
  refine ⟨"pts", ["GIVE"], rfl, by decide, by decide, ⟨3, _, by decide, hleads, hword, rfl, hfilled,
    ?_⟩, by decide⟩
  rintro x xs hx child ⟨hmem, hmatch⟩
  have hslot : child = 2 := by
    have hitems : (pointsGrammar.childrenOf 3).items = [2] := rfl
    rw [hitems, List.mem_singleton] at hmem
    exact hmem
  subst hslot
  cases hmatch

/-- A call of the child by aliases is understood, and its amount is read. -/
theorem parse_iff_reading_points :
    pointsForest.Reachable ∧
      (pointsHost.renewed none).compile (some 0)
        = (((pointsHost.renewed none).compile (some 0)).1, .ok 5) ∧
      ∃ N i, pointsForest.node? 0 = some N ∧
        ((pointsHost.renewed none).register (some 0)).1.parse none (.string "/pts GIVE 7") = .ok i ∧
        i.arguments.entries = [("amount", ⟨"7", .integer 7⟩)] ∧
        i.callback = pointsForest.runnerOf 1 := by
  refine ⟨pointsForest_reachable, compile_pointsHost, ?_⟩
  obtain ⟨-, hlanguage⟩ := parse_iff_reading (h := pointsHost) pointsForest_reachable
    compile_pointsHost rfl
  obtain ⟨hiff, -, htold⟩ := hlanguage none "/pts GIVE 7"
  obtain ⟨i, hi⟩ := hiff.mpr ⟨_, fits_points rfl⟩
  obtain ⟨M, hM, -, hargs, hcall⟩ := htold i _ hi (fits_points rfl)
  cases hM
  exact ⟨_, i, rfl, hi, hargs, hcall⟩

end CommandTree
