import CommandTree.Proofs.Host.Session

/-!
# Commands that are registered one after the other

The names and aliases of all commands share one table at the start of inputs, and what is
registered later takes the place of what was there. So a word leads to the command that was
registered last under it, be it as name or as alias. The list of registered commands is kept by
names alone: a command leaves it only for another one of its name.

* `Ledger.register`: one more registration, in the table and in the list
* `Ledger.parse_name`: a word leads to the command that was registered last under it
* `Ledger.root_of_parse`: every input that is read leads there
* `parse_name_iff`: when a listed command is reached by its name
* `parse_listed_iff`: when an input leads to a listed command
-/

namespace CommandTree

open Text

/-! ## Histories -/

/-- What a host can become while its forest is built further and commands are registered, and the
commands that were registered, the latest first. -/
inductive Host.Registrations (start : Host) : Host → List NodeId → Prop
  | start : Registrations start start []
  | build {h : Host} {log : List NodeId} {f : Forest} (hr : Registrations start h log)
      (hs : h.forest.Step f) : Registrations start { h with forest := f } log
  | register {h : Host} {log : List NodeId} {root : NodeId} {word : BranchId}
      (hr : Registrations start h log) (hok : (h.register (some root)).2.result = .ok word) :
      Registrations start (h.register (some root)).1 (root :: log)

/-- The commands of a history that were registered since a command was registered last. -/
def since (log : List NodeId) (c : NodeId) : List NodeId := log.takeWhile fun n => n ≠ c

/-- A command is the latest of its kind if none of the kind was registered since. -/
theorem find?_eq_some_iff_since {log : List NodeId} {c : NodeId} {p : NodeId → Bool}
    (hmem : c ∈ log) (hp : p c = true) : log.find? p = some c ↔ ∀ m ∈ since log c, p m = false := by
  induction log with
  | nil => cases hmem
  | cons n log ih =>
    by_cases hn : n = c
    · subst hn
      rw [List.find?_cons_of_pos hp, since, List.takeWhile_cons_of_neg (by simp)]
      exact iff_of_true rfl fun m hm => by cases hm
    · rw [since, List.takeWhile_cons_of_pos (by simpa using hn), List.forall_mem_cons]
      cases hpn : p n with
      | true =>
        rw [List.find?_cons_of_pos hpn]
        exact iff_of_false (fun h => hn (Option.some.inj h)) fun h => by cases h.1
      | false =>
        rw [List.find?_cons_of_neg (by simp [hpn])]
        have hrest := (List.mem_cons.mp hmem).resolve_left (Ne.symm hn)
        exact (ih hrest).trans (and_iff_right rfl).symm

namespace Forest

/-- Different nodes are run by different callbacks. -/
theorem runnerOf_inj {f : Forest} {n m : NodeId} : f.runnerOf n = f.runnerOf m ↔ n = m := by
  constructor
  · intro h
    cases h
    rfl
  · rintro rfl
    rfl

/-- The latest command of a history that is of a kind. -/
def latest? (f : Forest) (log : List NodeId) (kind : Node → Bool) : Option NodeId :=
  log.find? fun n => (f.node? n).any kind

variable {f f' : Forest} {log : List NodeId}

theorem latest?_eq_some_iff {c : NodeId} {C : Node} {kind : Node → Bool} (hmem : c ∈ log)
    (hC : f.node? c = some C) (hkind : kind C = true) :
    f.latest? log kind = some c ↔ ∀ m ∈ since log c, (f.node? m).any kind = false :=
  find?_eq_some_iff_since hmem (by rw [hC]; exact hkind)

/-- What a node says about itself does not change, so the latest of a kind stays so. -/
theorem latest?_step (hs : Step f f') (hlog : ∀ n ∈ log, ∃ N, f.node? n = some N)
    {kind : Node → Bool}
    (hkind : ∀ N N' : Node, N'.toDescription = N.toDescription → kind N' = kind N) :
    f'.latest? log kind = f.latest? log kind := by
  induction log with
  | nil => rfl
  | cons n log ih =>
    obtain ⟨⟨N, hN⟩, hlog⟩ := List.forall_mem_cons.mp hlog
    obtain ⟨N', hN', hsame⟩ := description_step hs hN
    have hrest := ih hlog
    rw [latest?] at hrest ⊢
    rw [latest?] at hrest ⊢
    rw [List.find?_cons, List.find?_cons, hN, hN', Option.any_some, Option.any_some,
      hkind N N' hsame, hrest]

end Forest

/-- Whether a node has the name of a key. -/
def Node.isNamed (key : String) (n : Node) : Bool := n.key == key

/-- A node answers to its name and to its aliases. -/
theorem Node.matchesWord_of_mem (n : Node) {name : Name} (h : name ∈ n.name :: n.aliases) :
    n.matchesWord name.text = true :=
  Node.matchesWord_iff.mpr (List.mem_map_of_mem (f := Name.key) h)

theorem Node.matchesWord_congr (w : String) {N N' : Node}
    (h : N'.toDescription = N.toDescription) : N'.matchesWord w = N.matchesWord w := by
  have hname : N'.name = N.name := congrArg Description.name h
  have haliases : N'.aliases = N.aliases := congrArg Description.aliases h
  rw [matchesWord, matchesWord, hname, haliases]

theorem Node.isNamed_congr (key : String) {N N' : Node} (h : N'.toDescription = N.toDescription) :
    N'.isNamed key = N.isNamed key := by
  have hname : N'.name = N.name := congrArg Description.name h
  rw [isNamed, isNamed, Node.key, Node.key, hname]

/-! ## What a history leaves -/

namespace Host

/-- What a host looks like after a history: each word leads to the command that was registered last
under it, and each name is listed with the command that was registered last by it. -/
structure Ledger (h : Host) (made : BranchId) (log : List NodeId) : Prop where
  furnished : h.Furnished made
  commands : ∀ n ∈ log, ∃ N, h.forest.node? n = some N ∧ N.role = .root
  leads : ∀ {w n}, h.forest.latest? log (·.matchesWord w) = some n → ∃ word,
    h.grammar.WordAt made (h.grammar.childrenOf h.registrar.start) (lowercase w) word ∧
      h.grammar.IsWordOf h.forest made n word
  nothing : ∀ {w}, h.forest.latest? log (·.matchesWord w) = none →
    (h.grammar.childrenOf h.registrar.start).get? (lowercase w) = none
  listed : ∀ key, h.registered.get? key = h.forest.latest? log (·.isNamed key)

variable {h : Host} {made : BranchId} {log : List NodeId}

theorem ledger_renewed (hf : h.forest.Reachable) (handler : Option Handler) :
    (h.renewed handler).Ledger (h.renewed handler).grammar.size [] where
  furnished := furnished_renewed hf handler
  commands := fun n hn => by cases hn
  leads := fun hn => by cases hn
  nothing := fun {w} _ => by
    have hs : (h.renewed handler).grammar.branch? h.grammar.size = some (.bare .start) :=
      Grammar.branch?_add_self ..
    rw [show (h.renewed handler).registrar.start = h.grammar.size from rfl,
      Grammar.childrenOf_start hs rfl]
    rfl
  listed := fun key => rfl

theorem Ledger.exists_node (hl : h.Ledger made log) : ∀ n ∈ log, ∃ N, h.forest.node? n = some N :=
  fun n hn => by
    obtain ⟨N, hN, -⟩ := hl.commands n hn
    exact ⟨N, hN⟩

/-- A command of a history is at the top of its tree. -/
theorem Ledger.rootOf_command (hl : h.Ledger made log) {c : NodeId} (hc : c ∈ log) :
    h.forest.rootOf c = c := by
  obtain ⟨N, hN, hrole⟩ := hl.commands c hc
  exact Forest.rootOf_of_parentOf
    (hl.furnished.forest.wellFormed.parentOf_command hN hrole)

theorem Ledger.command_step (hl : h.Ledger made log) {f : Forest} (hs : h.forest.Step f) :
    ∀ n ∈ log, ∃ N, f.node? n = some N ∧ N.role = .root := by
  intro n hn
  obtain ⟨N, hN, hrole⟩ := hl.commands n hn
  obtain ⟨N', hN', hsame⟩ := Forest.description_step hs hN
  exact ⟨N', hN', (congrArg Description.role hsame).trans hrole⟩

/-- Building the forest further changes nothing. -/
theorem Ledger.build (hl : h.Ledger made log) {f : Forest} (hs : h.forest.Step f) :
    ({ h with forest := f } : Host).Ledger made log where
  furnished := hl.furnished.build hs
  commands := hl.command_step hs
  leads := fun {w n} hn => by
    rw [Forest.latest?_step hs hl.exists_node fun _ _ => Node.matchesWord_congr w] at hn
    obtain ⟨word, hword, hn⟩ := hl.leads hn
    exact ⟨word, hword, hl.furnished.isWordOf hs (Grammar.Kept.refl ..) hn⟩
  nothing := fun {w} hn => by
    rw [Forest.latest?_step hs hl.exists_node fun _ _ => Node.matchesWord_congr w] at hn
    exact hl.nothing hn
  listed := fun key => by
    rw [Forest.latest?_step hs hl.exists_node fun _ _ => Node.isNamed_congr key]
    exact hl.listed key

/-- **One more registration**: the names of the command lead to it from now on, and all other words
lead to where they led before. -/
theorem Ledger.register (hl : h.Ledger made log) {root : NodeId} {word : BranchId}
    (hok : (h.register (some root)).2.result = .ok word) :
    (h.register (some root)).1.Ledger made (root :: log) := by
  obtain ⟨hh', root', N, hid, hr⟩ := hl.furnished.register hok
  cases hid
  generalize (h.register (some root)).1 = h' at hh' hr
  have hlatest : ∀ kind : Node → Bool,
      (∀ N N' : Node, N'.toDescription = N.toDescription → kind N' = kind N) →
      h'.forest.latest? (root :: log) kind
        = if kind N then some root else h.forest.latest? log kind := by
    intro kind hkind
    rw [← Forest.latest?_step hr.forest hl.exists_node hkind, Forest.latest?, List.find?_cons,
      hr.node, Option.any_some]
    cases kind N <;> rfl
  refine ⟨hh', List.forall_mem_cons.mpr ⟨⟨N, hr.node, hr.role⟩, hl.command_step hr.forest⟩, ?_, ?_,
    ?_⟩
  · intro w n hn
    rw [hlatest _ fun _ _ => Node.matchesWord_congr w] at hn
    by_cases hw : N.matchesWord w = true
    · rw [if_pos hw] at hn
      cases hn
      exact ⟨word, hr.named _ (Node.matchesWord_iff.mp hw), hr.isWordOf⟩
    · rw [if_neg hw] at hn
      obtain ⟨word', hword', hn⟩ := hl.leads hn
      have hother := hr.others _ fun hmem => hw (Node.matchesWord_iff.mpr hmem)
      obtain ⟨c, C, name, redirect, hget, hrest⟩ := hword'.mono hr.kept
      exact ⟨word', ⟨c, C, name, redirect, hother.trans hget, hrest⟩,
        hl.furnished.isWordOf hr.forest hr.kept hn⟩
  · intro w hn
    rw [hlatest _ fun _ _ => Node.matchesWord_congr w] at hn
    by_cases hw : N.matchesWord w = true
    · rw [if_pos hw] at hn
      cases hn
    · rw [if_neg hw] at hn
      rw [hr.others _ fun hmem => hw (Node.matchesWord_iff.mpr hmem)]
      exact hl.nothing hn
  · intro key
    rw [hlatest _ fun _ _ => Node.isNamed_congr key, hr.listed, Catalog.get?_put, hl.listed,
      Node.isNamed]
    by_cases hkey : key = N.key
    · simp [hkey]
    · simp [hkey, Ne.symm hkey]

/-- What a history leaves. -/
theorem Registrations.ledger {start : Host} (hstart : start.Ledger made [])
    (hr : Registrations start h log) : h.Ledger made log := by
  induction hr with
  | start => exact hstart
  | build _ hs ih => exact ih.build hs
  | register _ hok ih => exact ih.register hok

/-! ## Where words lead -/

end Host

/-- Words lead from the word of a node to words of nodes of the same tree. -/
theorem Grammar.Leads.rootOf {g : Grammar} {f : Forest} {made : BranchId} (hwf : f.WellFormed)
    (hlasts : g.Lasts f made) {ws : List String} {n m : NodeId} {b c : BranchId}
    (h : g.Leads b ws c) (hb : g.IsWordOf f made n b) (hc : g.IsWordOf f made m c) :
    f.rootOf m = f.rootOf n := by
  induction ws generalizing n b with
  | nil =>
    cases h
    rw [hb.inj hc]
  | cons w ws ih =>
    obtain ⟨child, hchild, hleads⟩ := h
    obtain ⟨N, hN, hchildren⟩ := hlasts.shaped.children hb
    obtain ⟨-, k, hk, hword⟩ := hchildren.hasWord_iff.mp hchild
    have hitem := Forest.mem_items_of_mem_answering hN (List.mem_of_getLast? hk)
    obtain ⟨key, hkey⟩ := Catalog.mem_items_iff_get?.mp hitem
    obtain ⟨K, hK, hparent, -⟩ := hwf.child hN hkey
    rw [ih hleads hword, (hlasts.frozen hword).rootOf_child hwf hK hparent]

namespace Host

variable {h : Host} {made : BranchId} {log : List NodeId}

/-- **A word leads to the command that was registered last under it.** -/
theorem Ledger.parse_name (hl : h.Ledger made log) {name : Name} {n : NodeId}
    (hn : h.forest.latest? log (·.matchesWord name.text) = some n) (source : Option Sender) :
    ∃ i, h.parse source (.string ("/" ++ name.text)) = .ok i ∧
      i.callback = h.forest.runnerOf n := by
  obtain ⟨word, hword, hroot⟩ := hl.leads hn
  obtain ⟨c, hget, -, htarget⟩ := hword.found hroot
  obtain ⟨hchild, hel⟩ := hl.furnished.opens.filed.eligible_word hget
  have hcs := Grammar.withoutSlash_slash name.text
  have hfirst : String.ofList (firstWord name.text.toList) = name.text := by
    rw [firstWord_of_not_mem name.not_mem_space, String.ofList_toList]
  have hcall : h.grammar.callbackOf c = some (h.forest.runnerOf n) := by
    rw [← Grammar.callbackOf_congr (htarget ▸ hroot.target), htarget, hroot.callbackOf]
  have hahead : ((⟨0, name.text.toList⟩ : Spot).after
      (firstWord name.text.toList).length).ahead = [] := by
    rw [firstWord_of_not_mem name.not_mem_space]
    exact List.drop_length
  have hend := @Grammar.endsIn_resume_nil h.grammar (h.forest.runnerOf n) c _
    (Grammar.extended .empty c none) hahead (List.getLast?_concat ..) hcall
  have hword : (⟨0, name.text.toList⟩ : Spot).word = name.text := hfirst
  rw [← Grammar.walk_of_hasWord (hword.symm ▸ hel) (hword.symm ▸ hchild)] at hend
  refine ⟨_, Grammar.parse_eq_ok_iff.mpr ⟨_, h.forest.runnerOf n, hcs.symm ▸ hend, ?_, rfl⟩, rfl⟩
  rw [Grammar.calledAt, Grammar.extended, List.getLast?_concat, Option.bind_some, hcall]

/-- **Every input that is read leads to a node of the command that was registered last under its
first word.** -/
theorem Ledger.root_of_parse (hl : h.Ledger made log) {source : Option Sender} {s : String}
    {i : Invocation} (hi : h.parse source (.string s) = .ok i) :
    ∃ n, i.callback = h.forest.runnerOf n ∧
      h.forest.latest? log (·.matchesWord
        (String.ofList (firstWord (Grammar.withoutSlash s.toList))))
        = some (h.forest.rootOf n) := by
  obtain ⟨a, callback, hend, hcall, rfl⟩ := Grammar.parse_eq_ok_iff.mp hi
  generalize Grammar.withoutSlash s.toList = cs at hend ⊢
  have hwf := hl.furnished.forest.wellFormed
  obtain ⟨c, hget, hend⟩ := hl.furnished.opens.first_word hend
  cases hlast : h.forest.latest? log (·.matchesWord (String.ofList (firstWord cs))) with
  | none =>
    rw [hl.nothing hlast] at hget
    cases hget
  | some root =>
    obtain ⟨word, hword, hroot⟩ := hl.leads hlast
    obtain ⟨c', hget', -, htarget⟩ := hword.found hroot
    rw [hget] at hget'
    cases hget'
    obtain ⟨rest, hsplit, hrest⟩ := firstWord_append_rest cs
    have hafter : ((⟨0, cs⟩ : Spot).after (firstWord cs).length).ahead = rest :=
      Grammar.ahead_after hsplit
    obtain ⟨r, N, ⟨b, N', -, hleads, hb, -⟩, -, -, -, hcall'⟩ := Grammar.fitsFrom_of_resume
      hl.furnished.lasts.shaped (htarget ▸ hroot) (List.getLast?_concat ..) (hafter ▸ hrest) hend
    rw [hcall] at hcall'
    cases hcall'
    have htop := hl.rootOf_command (List.mem_of_find?_eq_some hlast)
    rw [htarget] at hleads
    exact ⟨r.node, rfl, by rw [hleads.rootOf hwf hl.furnished.lasts hroot hb, htop]⟩

/-- A word that leads to a command is, but for the case of letters, one of its names. -/
theorem Ledger.exists_name (hl : h.Ledger made log) {w : String} {n : NodeId}
    (hn : h.forest.latest? log (·.matchesWord w) = some n) :
    ∃ N, h.forest.node? n = some N ∧ ∃ name ∈ N.name :: N.aliases,
      h.forest.latest? log (·.matchesWord name.text) = some n := by
  obtain ⟨N, hN, -⟩ := hl.commands n (List.mem_of_find?_eq_some hn)
  have hmatches := List.find?_some hn
  rw [hN, Option.any_some, Node.matchesWord_iff, Node.key, ← List.map_cons, List.mem_map]
    at hmatches
  obtain ⟨name, hname, hkey⟩ := hmatches
  have hlower : lowercase name.text = lowercase w := hkey
  have hsame : ∀ M : Node, M.matchesWord name.text = M.matchesWord w := fun M => by
    simp only [Node.matchesWord, sameWord, hlower]
  exact ⟨N, hN, name, hname, by simpa only [hsame] using hn⟩

/-- Whether a command is listed. -/
def Lists (h : Host) (c : NodeId) : Prop := ∃ key, h.registered.get? key = some c

/-- A command is listed as long as no other one of its name has been registered. -/
theorem Ledger.lists_iff (hl : h.Ledger made log) {c : NodeId} (hc : c ∈ log) {C : Node}
    (hC : h.forest.node? c = some C) :
    h.Lists c ↔ ∀ m ∈ since log c, ∀ M, h.forest.node? m = some M → M.key ≠ C.key := by
  have hlast := @Forest.latest?_eq_some_iff h.forest log c C (·.isNamed C.key) hc hC
    (beq_self_eq_true C.key)
  constructor
  · rintro ⟨key, hkey⟩
    rw [hl.listed] at hkey
    -- what is listed under a key has that name
    have hnamed := List.find?_some hkey
    rw [hC, Option.any_some] at hnamed
    obtain rfl := eq_of_beq hnamed
    intro m hm M hM he
    have hother := hlast.mp hkey m hm
    rw [hM, Option.any_some, Node.isNamed, he, beq_self_eq_true] at hother
    cases hother
  · intro hsince
    refine ⟨C.key, (hl.listed C.key).trans (hlast.mpr fun m hm => ?_)⟩
    cases hM : h.forest.node? m with
    | none => rfl
    | some M => exact beq_false_of_ne (hsince m hm M hM)

/-- Every input leads to a listed command exactly if the names of a command that is not listed any
more have all been taken by commands registered since. -/
theorem Ledger.all_listed_iff (hl : h.Ledger made log) :
    (∀ source s i, h.parse source (.string s) = .ok i →
        ∃ n, i.callback = h.forest.runnerOf n ∧ h.Lists (h.forest.rootOf n)) ↔
      ∀ c ∈ log, ¬ h.Lists c → ∀ C, h.forest.node? c = some C → ∀ name ∈ C.name :: C.aliases,
        ∃ m ∈ since log c, (h.forest.node? m).any (·.matchesWord name.text) = true := by
  constructor
  · intro hall c hc hreplaced C hC name hname
    by_contra hnone
    have hlast := (Forest.latest?_eq_some_iff hc hC (C.matchesWord_of_mem hname)).mpr fun m hm =>
      Bool.eq_false_iff.mpr fun hm' => hnone ⟨m, hm, hm'⟩
    obtain ⟨i, hi, hcall⟩ := hl.parse_name hlast none
    obtain ⟨n, hcall', hlists⟩ := hall none _ i hi
    cases Forest.runnerOf_inj.mp (hcall.symm.trans hcall')
    exact hreplaced (hl.rootOf_command hc ▸ hlists)
  · intro htaken source s i hi
    obtain ⟨n, hcall, hlast⟩ := hl.root_of_parse hi
    by_contra hno
    have hreplaced : ¬ h.Lists (h.forest.rootOf n) := fun hlists => hno ⟨n, hcall, hlists⟩
    obtain ⟨R, hR, name, hname, hlast'⟩ := hl.exists_name hlast
    have hmem := List.mem_of_find?_eq_some hlast'
    obtain ⟨m, hm, hmatches⟩ := htaken _ hmem hreplaced R hR name hname
    have hother := (Forest.latest?_eq_some_iff hmem hR (R.matchesWord_of_mem hname)).mp hlast' m hm
    rw [hother] at hmatches
    cases hmatches

end Host

/-! ## Commands that share names -/

/-- A command without children and parameters. -/
def bareCommand (name : Name) (aliases : List Name) : Node :=
  ⟨⟨"root", .root, name, none, none, aliases, .anyone⟩, .empty, .empty, none, false,
    fun _ => .done ()⟩

theorem isToken_points : isToken "points" = true := by decide

theorem isToken_pts : isToken "pts" = true := by decide

/-- A command with an alias, a command that has the name of the first one as an alias, and a command
of the same name as the first one. -/
def sharingForest : Forest :=
  ⟨[bareCommand ⟨"points", isToken_points⟩ [⟨"pts", isToken_pts⟩],
    bareCommand ⟨"pay", by decide⟩ [⟨"points", isToken_points⟩],
    bareCommand ⟨"points", isToken_points⟩ []]⟩

theorem sharingForest_reachable : sharingForest.Reachable := by
  have hpoints : Node.describe "root" .root (.string "points") { aliases := .tuple [.string "pts"] }
      = .ok (bareCommand ⟨"points", isToken_points⟩ [⟨"pts", isToken_pts⟩]).toDescription := rfl
  have hpay : Node.describe "root" .root (.string "pay") { aliases := .tuple [.string "points"] }
      = .ok (bareCommand ⟨"pay", by decide⟩ [⟨"points", isToken_points⟩]).toDescription := rfl
  have hother : Node.describe "root" .root (.string "points") {}
      = .ok (bareCommand ⟨"points", isToken_points⟩ []).toDescription := rfl
  exact ((Forest.Reachable.start.step (.add (fun _ => .done ()) hpoints)).step
    (.add (fun _ => .done ()) hpay)).step (.add (fun _ => .done ()) hother)

/-- A host with the nodes of these commands. -/
def sharingHost : Host := { Host.create none with forest := sharingForest }

/-- The host after commands have been registered, the first of the list being the latest. -/
def sharing (log : List NodeId) : Host :=
  log.foldr (fun c h => (h.register (some c)).1) (sharingHost.renewed none)

/-- Two of the commands are registered, one after the other. -/
theorem registrations_sharing {first second : NodeId} {v w : BranchId}
    (hfirst : ((sharing []).register (some first)).2.result = .ok v)
    (hsecond : ((sharing [first]).register (some second)).2.result = .ok w) :
    Host.Registrations (sharingHost.renewed none) (sharing [second, first]) [second, first] :=
  .register (.register .start hfirst) hsecond

/-! ## Names of listed commands -/

/--
**A listed command is reached by its name, unless a later command has that name as an alias.** After
any history of registrations, the name of a listed command is understood. It calls the command that
was registered last under it, which is the listed one exactly if none of the commands registered
since has its name for an alias.
-/
theorem parse_name_iff {h host : Host} {handler : Option Handler} {log : List NodeId}
    (hf : h.forest.Reachable) (hr : Host.Registrations (h.renewed handler) host log) {key : String}
    {c : NodeId} {C : Node} (hlisted : host.registered.get? key = some c)
    (hC : host.forest.node? c = some C) (source : Option Sender) :
    ∃ i n, host.parse source (.string ("/" ++ C.name.text)) = .ok i ∧
      host.forest.latest? log (·.matchesWord C.name.text) = some n ∧
      i.callback = host.forest.runnerOf n ∧
      (i.callback = host.forest.runnerOf c ↔
        ∀ m ∈ since log c, host.forest.hasAlias C.key m = false) := by
  have hl := hr.ledger (Host.ledger_renewed hf handler)
  have hc : c ∈ log := List.mem_of_find?_eq_some ((hl.listed key).symm.trans hlisted)
  have hown := C.matchesWord_of_mem (List.mem_cons_self ..)
  obtain ⟨n, hn⟩ : ∃ n, host.forest.latest? log (·.matchesWord C.name.text) = some n :=
    Option.isSome_iff_exists.mp (List.find?_isSome.mpr ⟨c, hc, by rw [hC]; exact hown⟩)
  obtain ⟨i, hi, hcall⟩ := hl.parse_name hn source
  refine ⟨i, n, hi, hn, hcall, ?_⟩
  have hlast := @Forest.latest?_eq_some_iff host.forest log c C (·.matchesWord C.name.text) hc hC
    hown
  rw [hn, Option.some.injEq] at hlast
  rw [hcall, Forest.runnerOf_inj, hlast]
  -- none of the commands registered since has the name itself, so they have it as an alias or not
  refine forall₂_congr fun m hm => ?_
  cases hM : host.forest.node? m with
  | none => simp [Forest.hasAlias, hM]
  | some M =>
    have hname := (hl.lists_iff hc hC).mp ⟨key, hlisted⟩ m hm M hM
    rw [Forest.hasAlias, hM, Option.any_some, Option.any_some,
      Node.matchesWord_of_ne fun he => hname he.symm]
    rfl

/-- A command that has the name of a later one as an alias is reached by its own name. -/
theorem parse_name_pay :
    sharingHost.forest.Reachable ∧
      Host.Registrations (sharingHost.renewed none) (sharing [2, 1]) [2, 1] ∧
      (sharing [2, 1]).registered.get? "pay" = some 1 ∧
      ∃ i, (sharing [2, 1]).parse none (.string "/pay") = .ok i ∧
        i.callback = (sharing [2, 1]).forest.runnerOf 1 := by
  have hr := @registrations_sharing 1 2 2 4 rfl rfl
  have hlisted : (sharing [2, 1]).registered.get? "pay" = some 1 := rfl
  obtain ⟨i, n, hi, -, -, hown⟩ := parse_name_iff sharingForest_reachable hr hlisted rfl none
  exact ⟨sharingForest_reachable, hr, hlisted, i, hi, hown.mpr (by decide)⟩

/-- The name of a listed command leads to the command that has it as an alias and was registered
later. -/
theorem pay_takes_name_of_points :
    sharingHost.forest.Reachable ∧
      Host.Registrations (sharingHost.renewed none) (sharing [1, 0]) [1, 0] ∧
      (sharing [1, 0]).registered.get? "points" = some 0 ∧
      ∃ i, (sharing [1, 0]).parse none (.string "/points") = .ok i ∧
        i.callback = (sharing [1, 0]).forest.runnerOf 1 ∧
        i.callback ≠ (sharing [1, 0]).forest.runnerOf 0 := by
  have hr := @registrations_sharing 0 1 2 4 rfl rfl
  have hl := hr.ledger (Host.ledger_renewed sharingForest_reachable none)
  obtain ⟨i, hi, hcall⟩ := @Host.Ledger.parse_name _ _ _ hl ⟨"points", isToken_points⟩ 1 rfl none
  refine ⟨sharingForest_reachable, hr, rfl, i, hi, hcall, ?_⟩
  rw [hcall]
  intro hsame
  cases hsame

/-! ## Commands that have been replaced -/

/--
**An input leads to a listed command, unless the command that answers to its first word has been
replaced.** After any history of registrations, every input that is understood calls a node of the
command that was registered last under its first word, by name or alias. That command is listed
exactly if no other one of its name has been registered since. All inputs lead to listed commands
exactly if the names of every replaced command have been taken by commands registered since.
-/
theorem parse_listed_iff {h host : Host} {handler : Option Handler} {log : List NodeId}
    (hf : h.forest.Reachable) (hr : Host.Registrations (h.renewed handler) host log) :
    (∀ source s i, host.parse source (.string s) = .ok i →
      ∃ n R, i.callback = host.forest.runnerOf n ∧
        host.forest.node? (host.forest.rootOf n) = some R ∧
        host.forest.latest? log (·.matchesWord
            (String.ofList (firstWord (Grammar.withoutSlash s.toList))))
          = some (host.forest.rootOf n) ∧
        (host.Lists (host.forest.rootOf n) ↔
          ∀ m ∈ since log (host.forest.rootOf n), ∀ M, host.forest.node? m = some M →
            M.key ≠ R.key)) ∧
      ((∀ source s i, host.parse source (.string s) = .ok i →
          ∃ n, i.callback = host.forest.runnerOf n ∧ host.Lists (host.forest.rootOf n)) ↔
        ∀ c ∈ log, ¬ host.Lists c → ∀ C, host.forest.node? c = some C →
          ∀ name ∈ C.name :: C.aliases, ∃ m ∈ since log c,
            (host.forest.node? m).any (·.matchesWord name.text) = true) := by
  have hl := hr.ledger (Host.ledger_renewed hf handler)
  refine ⟨fun source s i hi => ?_, hl.all_listed_iff⟩
  obtain ⟨n, hcall, hlast⟩ := hl.root_of_parse hi
  have hmem := List.mem_of_find?_eq_some hlast
  obtain ⟨R, hR, -⟩ := hl.commands _ hmem
  exact ⟨n, R, hcall, hR, hlast, hl.lists_iff hmem hR⟩

/-- A command without aliases is replaced by another one of its name, and no input leads to it any
more. -/
theorem parse_listed_points :
    sharingHost.forest.Reachable ∧
      Host.Registrations (sharingHost.renewed none) (sharing [0, 2]) [0, 2] ∧
      ¬ (sharing [0, 2]).Lists 2 ∧
      (∃ i, (sharing [0, 2]).parse none (.string "/points") = .ok i) ∧
      ∀ source s i, (sharing [0, 2]).parse source (.string s) = .ok i →
        ∃ n, i.callback = (sharing [0, 2]).forest.runnerOf n ∧
          (sharing [0, 2]).Lists ((sharing [0, 2]).forest.rootOf n) := by
  have hr := @registrations_sharing 2 0 2 3 rfl rfl
  have hl := hr.ledger (Host.ledger_renewed sharingForest_reachable none)
  have hreplaced : ¬ (sharing [0, 2]).Lists 2 := fun hlists =>
    (@Host.Ledger.lists_iff _ _ _ hl 2 (by decide) _ rfl).mp hlists 0 (by decide) _ rfl rfl
  obtain ⟨i, hi, -⟩ := @Host.Ledger.parse_name _ _ _ hl ⟨"points", isToken_points⟩ 0 rfl none
  refine ⟨sharingForest_reachable, hr, hreplaced, ⟨i, hi⟩,
    (parse_listed_iff sharingForest_reachable hr).2.mpr ?_⟩
  intro c hc hgone C hC name hname
  rw [List.mem_cons, List.mem_singleton] at hc
  obtain rfl | rfl := hc
  · exact absurd ⟨"points", rfl⟩ hgone
  · cases hC
    cases List.mem_singleton.mp hname
    exact ⟨0, by decide, rfl⟩

/-- The alias of a command that has been replaced still leads to it. -/
theorem alias_leads_to_replaced :
    sharingHost.forest.Reachable ∧
      Host.Registrations (sharingHost.renewed none) (sharing [2, 0]) [2, 0] ∧
      ∃ i, (sharing [2, 0]).parse none (.string "/pts") = .ok i ∧
        ∀ n, i.callback = (sharing [2, 0]).forest.runnerOf n →
          ¬ (sharing [2, 0]).Lists ((sharing [2, 0]).forest.rootOf n) := by
  have hr := @registrations_sharing 0 2 2 4 rfl rfl
  have hl := hr.ledger (Host.ledger_renewed sharingForest_reachable none)
  obtain ⟨i, hi, hcall⟩ := @Host.Ledger.parse_name _ _ _ hl ⟨"pts", isToken_pts⟩ 0 rfl none
  refine ⟨sharingForest_reachable, hr, i, hi, fun n hn hlisted => ?_⟩
  rw [hcall] at hn
  cases hn
  -- the command that has been registered since has the same name
  have hsince := (@Host.Ledger.lists_iff _ _ _ hl 0 (by decide) _ rfl).mp hlisted
  exact hsince 2 (by decide) _ rfl rfl

end CommandTree
