import CommandTree.Proofs.Dispatch.Decision
import CommandTree.Proofs.Forest.Request

/-!
# What a call does not depend on

Whether a sender may run a node is said by the node or by the root of its tree. So two trees of the
same commands, with the same names, parameters and runs, take a call in the same way as soon as the
node that is called and the roots agree as far as they have a say, whatever all other nodes ask for,
and whatever is written in descriptions and aliases.

* `Tree.Shows.usageOf`: the line of usage of a node of a tree
* `Tree.pathTexts_eq_of_sameCommands`: the names on the way to a position are the same in trees of
  the same commands
* `dispatch_congr`: what a call depends on
* `dispatch_eq_of_sameCommands`: calls at one position of trees of the same commands come to the
  same
-/

namespace CommandTree

open Text

/-! ## Positions in a tree -/

/-- Whether two nodes are of the same command: they have the same name, take the same parameters and
do the same when they are run. -/
structure Node.SameCommand (n n' : Node) : Prop where
  name : n.name = n'.name
  parameters : n.parameters = n'.parameters
  run : n.run = n'.run

namespace Tree

/-- The part of a tree at a position, which tells the number of the child to take at each node on
the way down. -/
def part? : Tree → List Nat → Option Tree
  | t, [] => some t
  | .branch _ _ children, i :: position => children[i]?.bind fun child => child.part? position

/-- Whether two trees have the same shape, with nodes of the same commands. -/
inductive SameCommands : Tree → Tree → Prop
  | branch {id id' : NodeId} {n n' : Node} {children children' : List Tree}
      (node : n.SameCommand n') (below : List.Forall₂ SameCommands children children') :
      SameCommands (.branch id n children) (.branch id' n' children')

variable {t t' s s' : Tree}

theorem SameCommands.node (h : t.SameCommands t') : t.node.SameCommand t'.node := by
  obtain ⟨hnode, -⟩ := h
  exact hnode

theorem SameCommands.children (h : t.SameCommands t') :
    List.Forall₂ SameCommands t.children t'.children := by
  obtain ⟨-, hbelow⟩ := h
  exact hbelow

theorem part?_cons_eq_some_iff {i : Nat} {position : List Nat} :
    t.part? (i :: position) = some s ↔
      ∃ c, t.children[i]? = some c ∧ c.part? position = some s := by
  cases t with
  | branch id n children => rw [part?, Option.bind_eq_some_iff, Tree.children]

/-- Children at one place of trees of the same commands are of the same commands. -/
theorem SameCommands.child (h : t.SameCommands t') {i : Nat} {c c' : Tree}
    (hc : t.children[i]? = some c) (hc' : t'.children[i]? = some c') : c.SameCommands c' := by
  obtain ⟨hi, rfl⟩ := List.getElem?_eq_some_iff.mp hc
  obtain ⟨hi', rfl⟩ := List.getElem?_eq_some_iff.mp hc'
  exact h.children.get hi hi'

/-- Trees of the same commands have parts of the same commands at each position. -/
theorem SameCommands.part (h : t.SameCommands t') {position : List Nat}
    (hs : t.part? position = some s) (hs' : t'.part? position = some s') : s.SameCommands s' := by
  induction position generalizing t t' with
  | nil =>
    cases hs
    cases hs'
    exact h
  | cons i position ih =>
    obtain ⟨c, hc, hs⟩ := part?_cons_eq_some_iff.mp hs
    obtain ⟨c', hc', hs'⟩ := part?_cons_eq_some_iff.mp hs'
    exact ih (h.child hc hc') hs hs'

end Tree

/-- The texts of the names on the path to a node. -/
def Forest.pathTexts (f : Forest) (id : NodeId) : List String :=
  (f.pathNodes id).map (·.name.text)

namespace Tree

variable {f f' : Forest} {t t' s s' : Tree}

theorem allShow_iff {ts : List Tree} : AllShow f ts ↔ ∀ t ∈ ts, t.Shows f := by
  induction ts with
  | nil => simp [AllShow]
  | cons first rest ih => rw [AllShow, ih, List.forall_mem_cons]

/-- What is under a node of a tree has that node as its parent. -/
theorem Shows.child (hwf : f.WellFormed) (h : t.Shows f) {i : Nat} {c : Tree}
    (hc : t.children[i]? = some c) : c.Shows f ∧ f.parentOf c.id = some t.id := by
  cases t with
  | branch id n children =>
    obtain ⟨hn, hids, hall⟩ := h
    have hmem : c ∈ children := List.mem_of_getElem? hc
    have hchild : c.id ∈ n.children.items := hids ▸ List.mem_map_of_mem hmem
    exact ⟨allShow_iff.mp hall c hmem, hwf.mem_children_iff.mp ⟨n, hn, hchild⟩⟩

/-- A part of a tree shows nodes as they are, and its top is among the nodes of the tree. -/
theorem Shows.part (hwf : f.WellFormed) (h : t.Shows f) {position : List Nat}
    (hs : t.part? position = some s) : s.Shows f ∧ s.id ∈ t.ids := by
  induction position generalizing t with
  | nil =>
    cases hs
    exact ⟨h, id_mem_ids _⟩
  | cons i position ih =>
    obtain ⟨c, hc, hs⟩ := part?_cons_eq_some_iff.mp hs
    obtain ⟨hshows, hmem⟩ := ih (h.child hwf hc).1 hs
    refine ⟨hshows, ?_⟩
    cases t with
    | branch id n children =>
      rw [ids]
      exact List.mem_cons_of_mem _ (ids_subset_of_mem (List.mem_of_getElem? hc) hmem)

/-- The path to a child is the path to its parent, with the child behind it. -/
theorem Shows.pathTexts_child (hwf : f.WellFormed) (hg : f.Grounded) (h : t.Shows f) {i : Nat}
    {c : Tree} (hc : t.children[i]? = some c) :
    f.pathTexts c.id = f.pathTexts t.id ++ [c.node.name.text] := by
  obtain ⟨hshows, hparent⟩ := h.child hwf hc
  rw [Forest.pathTexts, Forest.pathNodes, Forest.pathOf_child hwf hg hparent, List.filterMap_append,
    List.filterMap_cons_some hshows.node?, List.filterMap_nil, List.map_append]
  rfl

/-- **The names on the way to a position are the same in trees of the same commands**, if they are
on the way to the tops of the trees. -/
theorem pathTexts_eq_of_sameCommands (hwf : f.WellFormed) (hg : f.Grounded) (hwf' : f'.WellFormed)
    (hg' : f'.Grounded) (h : t.Shows f) (h' : t'.Shows f') (hsame : t.SameCommands t')
    (htop : f.pathTexts t.id = f'.pathTexts t'.id) {position : List Nat}
    (hs : t.part? position = some s) (hs' : t'.part? position = some s') :
    f.pathTexts s.id = f'.pathTexts s'.id := by
  -- both trees are gone down in step, and at each node the same name is added to both paths
  induction position generalizing t t' with
  | nil =>
    cases hs
    cases hs'
    exact htop
  | cons i position ih =>
    obtain ⟨c, hc, hs⟩ := part?_cons_eq_some_iff.mp hs
    obtain ⟨c', hc', hs'⟩ := part?_cons_eq_some_iff.mp hs'
    have hchild : c.SameCommands c' := hsame.child hc hc'
    refine ih (h.child hwf hc).1 (h'.child hwf' hc').1 hchild ?_ hs hs'
    rw [h.pathTexts_child hwf hg hc, h'.pathTexts_child hwf' hg' hc', htop, hchild.node.name]

/-! ## Lines of usage -/

/-- The names of the children in a line of usage, if there are any. -/
def choiceOf (names : List String) : List String :=
  if names.isEmpty then [] else ["<" ++ "|".intercalate names ++ ">"]

theorem Shows.childNames (h : t.Shows f) :
    f.childNames t.node = t.children.map (·.node.name.text) := by
  cases t with
  | branch id n children =>
    obtain ⟨-, hids, hall⟩ := h
    show (n.children.items.filterMap f.node?).map (·.name.text) = children.map (·.node.name.text)
    have hnodes : ∀ ts : List Tree, (∀ c ∈ ts, c.Shows f) →
        (ts.map Tree.id).filterMap f.node? = ts.map Tree.node := by
      intro ts hts
      induction ts with
      | nil => rfl
      | cons c ts ih =>
        obtain ⟨hc, hts⟩ := List.forall_mem_cons.mp hts
        rw [List.map_cons, List.filterMap_cons_some hc.node?, ih hts, List.map_cons]
    rw [← hids, hnodes children (allShow_iff.mp hall), List.map_map]
    rfl

/-- The line of usage of a node of a tree: the names on the path, those of the children, and the
parameters. -/
theorem Shows.usageOf (h : t.Shows f) :
    f.usageOf t.id = " ".intercalate (f.pathTexts t.id
      ++ choiceOf (t.children.map (·.node.name.text))
      ++ t.node.parameters.items.map Parameter.usage) := by
  have hempty : t.node.children.entries.isEmpty
      = (t.children.map (·.node.name.text)).isEmpty := by
    cases t with
    | branch id n children =>
      obtain ⟨-, hids, -⟩ := h
      have hitems : children.map Tree.id = n.children.entries.map Prod.snd := hids
      have hempty := congrArg List.isEmpty hitems
      simp only [List.isEmpty_map] at hempty
      simp [Tree.node, Tree.children, hempty]
  rw [Forest.usageOf, h.node?]
  dsimp only
  rw [hempty, h.childNames]
  rfl

theorem SameCommands.childNames (h : t.SameCommands t') :
    t.children.map (·.node.name.text) = t'.children.map (·.node.name.text) := by
  have hbelow := h.children
  generalize t.children = below, t'.children = below' at hbelow
  induction hbelow with
  | nil => rfl
  | cons hc _ ih => rw [List.map_cons, List.map_cons, hc.node.name, ih]

/-- At one position of trees of the same commands, the lines of usage are the same. -/
theorem usageOf_eq_of_sameCommands (h : t.Shows f) (h' : t'.Shows f') (hsame : t.SameCommands t')
    (hpath : f.pathTexts t.id = f'.pathTexts t'.id) : f.usageOf t.id = f'.usageOf t'.id := by
  rw [h.usageOf, h'.usageOf, hpath, hsame.childNames, hsame.node.parameters]

end Tree

/-! ## What a call depends on -/

section Congruence

variable {f f' : Forest} {target target' : NodeId} {n n' : Node}

theorem bindAll_congr (h : n.parameters = n'.parameters) (bound : Catalog Value)
    (raw : List (Datum × Datum)) : bindAll n bound raw = bindAll n' bound raw := by
  induction raw generalizing bound with
  | nil => rfl
  | cons entry rest ih =>
    have hfor : parameterFor n entry.1 = parameterFor n' entry.1 := by
      unfold parameterFor Node.parameter?
      rw [h]
    unfold bindAll
    rw [hfor]
    simp only [ih]

/-- **A call depends on the command of the node, its line of usage, and the permission and the
audience that are needed to run it.** -/
theorem dispatch_congr (hn : f.node? target = some n) (hn' : f'.node? target' = some n')
    (h : n.SameCommand n') (husage : f.usageOf target = f'.usageOf target')
    (hpermission : f.effectivePermission target = f'.effectivePermission target')
    (haudience : f.effectiveAudience target = f'.effectiveAudience target')
    (handler : Option Handler) (sender : Option Sender) (raw given : Datum) :
    dispatch f handler sender target raw given = dispatch f' handler sender target' raw given := by
  have hprepare : ∀ entries, prepareCall f sender target n entries given
      = prepareCall f' sender target' n' entries given := by
    intro entries
    unfold prepareCall
    rw [hpermission, haudience, husage, h.name, bindAll_congr h.parameters]
  have hrun : runNode n = runNode n' := by
    funext call
    unfold runNode
    rw [h.run]
  unfold dispatch
  rw [Forest.nodeAt_eq_ok_iff.mpr hn, Forest.nodeAt_eq_ok_iff.mpr hn']
  cases (raw.orElse (.dict [])).entries with
  | error fault => rfl
  | ok entries =>
    dsimp only
    rw [hprepare, hrun]

end Congruence

/-- Nodes that ask for the same permission lead to the same constraints, if they are for the same
audience where the permission is one of their own, and the roots agree where there is none. -/
theorem constraints_eq_of_agree {n n' root root' : Node}
    (hpermission : n.permission = n'.permission)
    (hown : n.permission ≠ none → n.audience = n'.audience)
    (hroot : n.permission = none →
      root.permission = root'.permission ∧ root.audience = root'.audience) :
    let guard := if n.isRestricted then n else root
    let guard' := if n'.isRestricted then n' else root'
    guard.permission = guard'.permission ∧ guard.audience = guard'.audience := by
  dsimp only
  unfold Node.isRestricted
  rw [← hpermission]
  cases hp : n.permission with
  | none =>
    rw [Option.isSome_none, if_neg Bool.false_ne_true, if_neg Bool.false_ne_true]
    exact hroot hp
  | some p =>
    have hne : n.permission ≠ none := by
      rw [hp]
      exact Option.some_ne_none p
    rw [Option.isSome_some, if_pos rfl, if_pos rfl]
    exact ⟨hpermission, hown hne⟩

/-! ## Calls of nodes of a tree -/

/-- Whether a forest has a tree under a node without a parent, and the tree has a part at a
position. -/
structure Forest.Locates (f : Forest) (root : NodeId) (position : List Nat) (t s : Tree) :
    Prop where
  reachable : f.Reachable
  tree : f.treeOf root = some t
  parentOf : f.parentOf root = none
  target : t.part? position = some s

namespace Forest.Locates

variable {f : Forest} {root : NodeId} {position : List Nat} {t s : Tree}

theorem id (h : f.Locates root position t s) : t.id = root := (shows_of_treeWithin h.tree).1

theorem shows (h : f.Locates root position t s) : t.Shows f := shows_of_treeOf h.tree

theorem part (h : f.Locates root position t s) : s.Shows f ∧ s.id ∈ t.ids :=
  h.shows.part h.reachable.wellFormed h.target

theorem pathTexts_root (h : f.Locates root position t s) :
    f.pathTexts t.id = [t.node.name.text] := by
  have hparent := h.parentOf
  rw [← h.id] at hparent
  rw [pathTexts, pathNodes, pathOf, ancestorsOf, ancestorsWithin_of_parentOf hparent,
    List.reverse_nil, List.nil_append, List.filterMap_cons_some h.shows.node?]
  rfl

/-- The node at the position says who may run it, or the node on top of the tree does. -/
theorem constraintSource (h : f.Locates root position t s) :
    f.constraintSource s.id = some (if s.node.isRestricted then s.node else t.node) := by
  obtain ⟨hshows, hmem⟩ := h.part
  have hroot := rootOf_of_mem_ids h.reachable.wellFormed h.tree h.parentOf hmem
  rw [← h.id] at hroot
  exact constraintSource_eq hshows.node? (hroot ▸ h.shows.node?)

end Forest.Locates

/--
**Who may run other nodes makes no difference to a call.** Two trees are of the same commands, and
stand in any forests. The nodes at one position ask for the same permission. If it is one of their
own, they are for the same audience; if there is none, the nodes on top of the trees agree on both.
Then every call of the two nodes comes to the same verdict, with the same events, whatever all other
nodes say about permissions, audiences, descriptions and aliases.

What a node does when it is run is a function of the call. A call does not carry the node, only its
name and its line of usage, so a run cannot ask for what the node or its neighbours say; nor can it
act on the forest while it goes on.
-/
theorem dispatch_eq_of_sameCommands {f f' : Forest} {root root' : NodeId} {position : List Nat}
    {t t' s s' : Tree} (h : f.Locates root position t s) (h' : f'.Locates root' position t' s')
    (hsame : t.SameCommands t')
    (hpermission : s.node.permission = s'.node.permission)
    (hown : s.node.permission ≠ none → s.node.audience = s'.node.audience)
    (hroot : s.node.permission = none →
      t.node.permission = t'.node.permission ∧ t.node.audience = t'.node.audience)
    (handler : Option Handler) (sender : Option Sender) (raw given : Datum) :
    dispatch f handler sender s.id raw given = dispatch f' handler sender s'.id raw given := by
  obtain ⟨hshows, -⟩ := h.part
  obtain ⟨hshows', -⟩ := h'.part
  have hpart := hsame.part h.target h'.target
  have htop : f.pathTexts t.id = f'.pathTexts t'.id := by
    rw [h.pathTexts_root, h'.pathTexts_root, hsame.node.name]
  have hpath := Tree.pathTexts_eq_of_sameCommands h.reachable.wellFormed h.reachable.grounded
    h'.reachable.wellFormed h'.reachable.grounded h.shows h'.shows hsame htop h.target h'.target
  have husage := Tree.usageOf_eq_of_sameCommands hshows hshows' hpart hpath
  obtain ⟨hp, ha⟩ := constraints_eq_of_agree hpermission hown hroot
  refine dispatch_congr hshows.node? hshows'.node? hpart.node husage ?_ ?_ handler sender raw given
  · rw [Forest.effectivePermission_of_source h.constraintSource,
      Forest.effectivePermission_of_source h'.constraintSource, hp]
  · rw [Forest.effectiveAudience_of_source h.constraintSource,
      Forest.effectiveAudience_of_source h'.constraintSource, ha]

/-- A command for a shop, with a child for its stock. Under that are a child without a permission of
its own, which takes an amount, and one with a permission of its own. -/
def shopForest (shop stock : Node.Options) : Forest :=
  Forest.empty.after [.declare "command" .root (.string "shop") shop fun _ => .done (),
    .declare "child" .sub (.string "stock") stock fun _ => .done (),
    .declare "child" .sub (.string "add") {} fun _ => .done (),
    .declare "child" .sub (.string "clear") { permission := .string "shop.clear" }
      fun _ => .done (),
    .parameter 2 (some amountParameter), .child 1 (some 2), .child 1 (some 3), .child 0 (some 1)]

/-- A shop for players with a permission. -/
def guardedShop : Node.Options :=
  { permission := .string "shop.use", audience := .audience .interactive }

/-- A shop for the console, with another description and an alias. -/
def consoleShop : Node.Options :=
  { description := .string "All wares.", aliases := .tuple [.string "store"]
    audience := .audience .automated }

/-- A stock for the console, with a permission of its own. -/
def lockedStock : Node.Options :=
  { permission := .string "shop.stock", audience := .audience .automated }

/-- The child without a permission of its own is called alike if only the stock differs, and the one
with a permission of its own also if the shop does. -/
theorem dispatch_eq_of_sameCommands_shop :
    (∃ t t' s s', (shopForest guardedShop {}).Locates 0 [0, 0] t s ∧
      (shopForest guardedShop lockedStock).Locates 0 [0, 0] t' s' ∧ t.SameCommands t' ∧
      s.node.permission = none ∧ t.node.permission = some "shop.use" ∧
      ∀ handler sender raw given,
        dispatch (shopForest guardedShop {}) handler sender s.id raw given
          = dispatch (shopForest guardedShop lockedStock) handler sender s'.id raw given) ∧
    ∃ t t' s s', (shopForest guardedShop {}).Locates 0 [0, 1] t s ∧
      (shopForest consoleShop lockedStock).Locates 0 [0, 1] t' s' ∧ t.SameCommands t' ∧
      s.node.permission = some "shop.clear" ∧ t'.node.permission = none ∧
      ∀ handler sender raw given,
        dispatch (shopForest guardedShop {}) handler sender s.id raw given
          = dispatch (shopForest consoleShop lockedStock) handler sender s'.id raw given := by
  have hreachable : ∀ shop stock, (shopForest shop stock).Reachable := fun shop stock =>
    Forest.Reachable.start.after _
  have hadd : ∃ t t' s s', (shopForest guardedShop {}).Locates 0 [0, 0] t s ∧
      (shopForest guardedShop lockedStock).Locates 0 [0, 0] t' s' ∧ t.SameCommands t' ∧
      s.node.permission = none ∧ s'.node.permission = none ∧
      t.node.permission = some "shop.use" ∧ t'.node.permission = some "shop.use" ∧
      t.node.audience = t'.node.audience :=
    ⟨_, _, _, _, ⟨hreachable _ _, rfl, rfl, rfl⟩, ⟨hreachable _ _, rfl, rfl, rfl⟩,
      .branch ⟨rfl, rfl, rfl⟩ (.cons (.branch ⟨rfl, rfl, rfl⟩ (.cons (.branch ⟨rfl, rfl, rfl⟩ .nil)
        (.cons (.branch ⟨rfl, rfl, rfl⟩ .nil) .nil))) .nil), rfl, rfl, rfl, rfl, rfl⟩
  have hclear : ∃ t t' s s', (shopForest guardedShop {}).Locates 0 [0, 1] t s ∧
      (shopForest consoleShop lockedStock).Locates 0 [0, 1] t' s' ∧ t.SameCommands t' ∧
      s.node.permission = some "shop.clear" ∧ s'.node.permission = some "shop.clear" ∧
      s.node.audience = s'.node.audience ∧ t'.node.permission = none :=
    ⟨_, _, _, _, ⟨hreachable _ _, rfl, rfl, rfl⟩, ⟨hreachable _ _, rfl, rfl, rfl⟩,
      .branch ⟨rfl, rfl, rfl⟩ (.cons (.branch ⟨rfl, rfl, rfl⟩ (.cons (.branch ⟨rfl, rfl, rfl⟩ .nil)
        (.cons (.branch ⟨rfl, rfl, rfl⟩ .nil) .nil))) .nil), rfl, rfl, rfl, rfl⟩
  obtain ⟨t, t', s, s', h, h', hsame, hs, hs', ht, ht', haudience⟩ := hadd
  obtain ⟨u, u', v, v', hu, hu', hsameU, hv, hv', haudienceU, hnone⟩ := hclear
  refine ⟨⟨t, t', s, s', h, h', hsame, hs, ht, ?_⟩, ⟨u, u', v, v', hu, hu', hsameU, hv, hnone, ?_⟩⟩
  · exact dispatch_eq_of_sameCommands h h' hsame (hs.trans hs'.symm) (fun hne => absurd hs hne)
      fun _ => ⟨ht.trans ht'.symm, haudience⟩
  · refine dispatch_eq_of_sameCommands hu hu' hsameU (hv.trans hv'.symm) (fun _ => haudienceU) ?_
    intro hnone
    rw [hv] at hnone
    cases hnone

end CommandTree
