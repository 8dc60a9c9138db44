import CommandTree.Proofs.Forest.Frozen
import CommandTree.Proofs.Forest.Request

/-!
# What was registered last

The children and the parameters of a node can be told from what was registered on it: under each key
is what was registered there last, and the keys are in the order of their first use. This holds
after any requests, granted or refused, of which others may be about other nodes. A child that was
replaced has no parent from then on, until it is registered once more.

* `Done`: what requests do that are granted
* `childrenAt_after`, `parametersAt_after`: children and parameters, from what was registered
* `registerChild_isOk_iff`: what it takes to register a child
* `registered_in_order`: all of this about any requests
-/

namespace CommandTree.Forest

open Text

/-! ## Requests that are granted -/

namespace Request

/-- Whether a request is granted. -/
def isGranted (f : Forest) (r : Request) : Bool :=
  match r.carryOut f with
  | .ok _ _ => true
  | .error _ _ => false

/-- The child that a request registers on a node, with its key, if the request is granted. -/
def childOn (p : NodeId) (f : Forest) (r : Request) : Option (String × NodeId) :=
  match r with
  | .child parent (some c) =>
    if parent = p ∧ r.isGranted f = true then (f.node? c).map fun n => (n.key, c) else none
  | _ => none

/-- The parameter that a request registers on a node, with its key, if the request is granted. -/
def parameterOn (id : NodeId) (f : Forest) (r : Request) : Option (String × Parameter) :=
  match r with
  | .parameter other (some p) =>
    if other = id ∧ r.isGranted f = true then some (p.key, p) else none
  | _ => none

end Request

/-- What there is to tell of requests, in order, each in the forest as it is by then. -/
def logged {α : Type} (told : Forest → Request → Option α) (f : Forest) : List Request → List α
  | [] => []
  | r :: rest => (told f r).toList ++ logged told (f.afterOne r) rest

/-- What requests do that are granted. -/
inductive Done (f : Forest) : Request → Forest → Prop
  | declare {label : String} {role : NodeRole} {name : Datum} {o : Node.Options} {d : Description}
      (run : Call → Outcome Unit) (h : Node.describe label role name o = .ok d) :
      Done f (.declare label role name o run) (f.add (.alone d run)).1
  | child {f' : Forest} {parent c : NodeId} {P C : Node} (h : f.Linked f' parent c P C) :
      Done f (.child parent (some c)) f'
  | parameter {f' : Forest} {id : NodeId} {n : Node} {p : Parameter} (hn : f.node? id = some n)
      (h : ∀ other, f'.node? other = (f.node? other).map fun n =>
        if other = id then { n with parameters := n.parameters.put p.key p } else n) :
      Done f (.parameter id (some p)) f'
  | sealed (top : NodeId) : Done f (.sealed top) (f.sealUnder top)

variable {f f' : Forest} {r : Request}

theorem granted_or_refused_atOnce (r : Request) {change : Forest → Except Fault Forest}
    (hr : r.carryOut = atOnce change) :
    (r.isGranted f = true ∧ change f = .ok (f.afterOne r)) ∨
      (r.isGranted f = false ∧ f.afterOne r = f) := by
  unfold Request.isGranted afterOne
  rw [hr, atOnce]
  cases change f with
  | ok f' => exact Or.inl ⟨rfl, rfl⟩
  | error fault => exact Or.inr ⟨rfl, rfl⟩

/-- **A request is granted and done, or it is refused and changes nothing.** -/
theorem granted_or_refused (hf : f.Reachable) (r : Request) :
    (r.isGranted f = true ∧ f.Done r (f.afterOne r)) ∨
      (r.isGranted f = false ∧ f.afterOne r = f) := by
  cases r with
  | declare label role name o run =>
    refine (granted_or_refused_atOnce (.declare label role name o run)
      (declaring_eq label role name o run)).imp_left ?_
    rintro ⟨hgranted, hdone⟩
    refine ⟨hgranted, ?_⟩
    cases hd : Node.describe label role name o with
    | error fault => rw [hd] at hdone; cases hdone
    | ok d =>
      rw [hd] at hdone
      rw [← Except.ok.inj hdone]
      exact .declare run hd
  | child parent c =>
    refine (granted_or_refused_atOnce (.child parent c) (registering_eq parent c)).imp_left ?_
    rintro ⟨hgranted, hdone⟩
    obtain ⟨c, P, C, rfl, hl⟩ := linked_of_registerChild hdone
    exact ⟨hgranted, .child hl⟩
  | parameter id p =>
    refine (granted_or_refused_atOnce (.parameter id p)
      (registeringParameter_eq id p)).imp_left ?_
    rintro ⟨hgranted, hdone⟩
    obtain ⟨p, rfl, hnode⟩ := node?_registerParameter hdone
    obtain ⟨n, hn, -⟩ := unsealed_of_registerParameter hdone
    exact ⟨hgranted, .parameter hn hnode⟩
  | sealed top =>
    unfold Request.isGranted afterOne
    cases hN : f.node? top with
    | some N =>
      have hseal : (Request.sealed top).carryOut f = .ok () (f.sealUnder top) :=
        sealing_eq hf.wellFormed hf.grounded hN
      rw [hseal]
      exact Or.inl ⟨rfl, .sealed top⟩
    | none =>
      have hrefused : (Request.sealed top).carryOut f = .error (.node .absent) f :=
        sealing_absent hN
      rw [hrefused]
      exact Or.inr ⟨rfl, rfl⟩

/-! ## Children and parameters -/

/-- The children of a node, none if there is no such node. -/
def childrenAt (f : Forest) (p : NodeId) : Catalog NodeId :=
  (f.node? p).elim .empty fun n => n.children

/-- The parameters of a node, none if there is no such node. -/
def parametersAt (f : Forest) (id : NodeId) : Catalog Parameter :=
  (f.node? id).elim .empty fun n => n.parameters

/-- What has been put into a catalog, or what it was. -/
def putFrom {α : Type} (kept : Catalog α) (entry : Option (String × α)) : Catalog α :=
  entry.elim kept fun e => kept.put e.1 e.2

/-- A node that is declared has neither children nor parameters. -/
theorem elim_node?_add {α : Type} (read : Node → α) (none : α) (d : Description)
    (run : Call → Outcome Unit) (h : read (.alone d run) = none) (id : NodeId) :
    ((f.add (.alone d run)).1.node? id).elim none read = (f.node? id).elim none read := by
  rw [node?_add]
  by_cases hid : id = f.size
  · rw [if_pos hid, hid, node?_size]
    exact h
  · rw [if_neg hid]

/-- What a node has does not change where the node is changed in other respects only. -/
theorem elim_node?_map {α : Type} (read : Node → α) (none : α) {id : NodeId} {change : Node → Node}
    (hnode : f'.node? id = (f.node? id).map change) (h : ∀ n, read (change n) = read n) :
    (f'.node? id).elim none read = (f.node? id).elim none read := by
  rw [hnode]
  cases f.node? id with
  | none => rfl
  | some n => exact h n

/-- A child that is registered is registered on its node. -/
theorem Request.childOn_of_granted {parent c : NodeId} {C : Node}
    (h : Request.isGranted f (.child parent (some c)) = true) (hC : f.node? c = some C)
    (p : NodeId) :
    Request.childOn p f (.child parent (some c))
      = if parent = p then some (C.key, c) else none := by
  simp [Request.childOn, h, hC]

theorem Request.parameterOn_of_granted {other : NodeId} {p : Parameter}
    (h : Request.isGranted f (.parameter other (some p)) = true) (id : NodeId) :
    Request.parameterOn id f (.parameter other (some p))
      = if other = id then some (p.key, p) else none := by
  simp [Request.parameterOn, h]

/-- A request that is refused registers nothing. -/
theorem Request.childOn_of_refused (h : r.isGranted f = false) (p : NodeId) :
    r.childOn p f = none := by
  unfold Request.childOn
  split
  · rw [h, if_neg fun hgranted => Bool.false_ne_true hgranted.2]
  · rfl

theorem Request.parameterOn_of_refused (h : r.isGranted f = false) (id : NodeId) :
    r.parameterOn id f = none := by
  unfold Request.parameterOn
  split
  · rw [h, if_neg fun hgranted => Bool.false_ne_true hgranted.2]
  · rfl

/-- **A request changes the children of a node by what it registers there, and in no other way.** -/
theorem childrenAt_afterOne (hf : f.Reachable) (r : Request) (p : NodeId) :
    (f.afterOne r).childrenAt p = putFrom (f.childrenAt p) (r.childOn p f) := by
  rcases granted_or_refused hf r with ⟨hgranted, hdone⟩ | ⟨hrefused, hsame⟩
  · generalize f.afterOne r = f' at hdone ⊢
    cases hdone with
    | declare run h => exact elim_node?_add (fun n => n.children) .empty _ run rfl p
    | @child _ parent c P C hl =>
      -- the nodes that get or lose a parent keep their own children
      rw [Request.childOn_of_granted hgranted hl.childNode, childrenAt, childrenAt, hl.after]
      by_cases hp : parent = p
      · subst hp
        simp [relinked, putFrom, hl.parentNode]
      · rw [if_neg hp]
        cases f.node? p with
        | none => rfl
        | some n => simp [relinked, putFrom, Ne.symm hp]
    | parameter hn h =>
      refine elim_node?_map (fun n => n.children) .empty (h p) fun n => ?_
      split <;> rfl
    | sealed top =>
      refine elim_node?_map (fun n => n.children) .empty (node?_sealUnder f top p) fun n => ?_
      split <;> rfl
  · rw [hsame, Request.childOn_of_refused hrefused]
    rfl

/-- **So it is with the parameters.** -/
theorem parametersAt_afterOne (hf : f.Reachable) (r : Request) (id : NodeId) :
    (f.afterOne r).parametersAt id = putFrom (f.parametersAt id) (r.parameterOn id f) := by
  rcases granted_or_refused hf r with ⟨hgranted, hdone⟩ | ⟨hrefused, hsame⟩
  · generalize f.afterOne r = f' at hdone ⊢
    cases hdone with
    | declare run h => exact elim_node?_add (fun n => n.parameters) .empty _ run rfl id
    | child hl => exact elim_node?_map (fun n => n.parameters) .empty (hl.after id) fun n => rfl
    | @parameter _ other n q hn h =>
      rw [Request.parameterOn_of_granted hgranted, parametersAt, parametersAt, h]
      by_cases hid : other = id
      · subst hid
        simp [putFrom, hn]
      · rw [if_neg hid]
        cases f.node? id with
        | none => rfl
        | some n => simp [putFrom, Ne.symm hid]
    | sealed top =>
      refine elim_node?_map (fun n => n.parameters) .empty (node?_sealUnder f top id) fun n => ?_
      split <;> rfl
  · rw [hsame, Request.parameterOn_of_refused hrefused]
    rfl

/-- What each request adds to, requests add to one after the other. -/
theorem after_eq_foldl_logged {α : Type} (kept : Forest → Catalog α)
    (told : Forest → Request → Option (String × α))
    (hone : ∀ f : Forest, f.Reachable → ∀ r, kept (f.afterOne r) = putFrom (kept f) (told f r))
    (hf : f.Reachable) (requests : List Request) :
    kept (f.after requests)
      = (logged told f requests).foldl (fun c e => c.put e.1 e.2) (kept f) := by
  -- about any forest to start from, since the later requests start from what the first one leaves
  induction requests generalizing f with
  | nil => rfl
  | cons r rest ih =>
    have hnext : (f.afterOne r).Reachable := hf.after [r]
    rw [show f.after (r :: rest) = (f.afterOne r).after rest from rfl, ih hnext, hone f hf, logged,
      List.foldl_append]
    cases told f r <;> rfl

/-- **The children of a node are what was registered on it, put one after the other.** -/
theorem childrenAt_after (requests : List Request) (p : NodeId) :
    (empty.after requests).childrenAt p
      = Catalog.ofList (logged (fun f r => r.childOn p f) empty requests) :=
  after_eq_foldl_logged (·.childrenAt p) (fun f r => r.childOn p f)
    (fun _ hf r => childrenAt_afterOne hf r p) .start requests

/-- **So are the parameters.** -/
theorem parametersAt_after (requests : List Request) (id : NodeId) :
    (empty.after requests).parametersAt id
      = Catalog.ofList (logged (fun f r => r.parameterOn id f) empty requests) :=
  after_eq_foldl_logged (·.parametersAt id) (fun f r => r.parameterOn id f)
    (fun _ hf r => parametersAt_afterOne hf r id) .start requests

/-! ## Children that are replaced -/

/-- **A child can be registered on a node exactly if** both are there, the child is none of its own,
the node has not been compiled and does not stand under the child, and the child has no other
parent. -/
theorem registerChild_isOk_iff {p c : NodeId} :
    (∃ f', f.registerChild p (some c) = .ok f') ↔
      ∃ P C, f.node? p = some P ∧ f.node? c = some C ∧ C.role = .sub ∧ P.isSealed = false ∧
        c ∉ f.pathOf p ∧ ∀ q, C.parent = some q → q = p := by
  constructor
  · rintro ⟨f', h⟩
    obtain ⟨c', P, C, hc, hl⟩ := linked_of_registerChild h
    cases hc
    exact ⟨P, C, hl.parentNode, hl.childNode, hl.role, hl.unsealed, hl.noCircle, hl.free⟩
  · rintro ⟨P, C, hP, hC, hrole, hsealed, hpath, hfree⟩
    have hr : checkRole P C = .ok () := by simp [checkRole, hrole]
    have hcircle : f.checkCircle p c C = .ok () := by simp [checkCircle, hpath]
    rw [registerChild_some, nodeAt_eq_ok_iff.mpr hP, nodeAt_eq_ok_iff.mpr hC]
    simp only [bind, Except.bind, hr, checkMutable_eq_ok_iff.mpr hsealed, hcircle,
      checkParent_eq_ok_iff.mpr hfree]
    exact ⟨_, rfl⟩

/-- A node without a parent gets none unless it is registered. -/
theorem parentOf_afterOne (hf : f.Reachable) (r : Request) {id : NodeId}
    (h : f.parentOf id = none) (hno : ∀ p key, r.childOn p f ≠ some (key, id)) :
    (f.afterOne r).parentOf id = none := by
  rcases granted_or_refused hf r with ⟨hgranted, hdone⟩ | ⟨-, hsame⟩
  · generalize f.afterOne r = f' at hdone ⊢
    cases hdone with
    | declare run hd => rw [parentOf_add, h]
    | @child _ parent c P C hl =>
      have hne : id ≠ c := by
        rintro rfl
        refine hno parent C.key ?_
        rw [Request.childOn_of_granted hgranted hl.childNode, if_pos rfl]
      rcases hl.parentOf_ne hne with hp | hp
      · exact hp
      · exact hp.trans h
    | parameter hn hnode =>
      rw [← h, parentOf, parentOf, hnode]
      cases f.node? id with
      | none => rfl
      | some n =>
        rw [Option.map_some]
        split <;> rfl
    | sealed top => rw [parentOf_sealUnder, h]
  · rw [hsame, h]

theorem parentOf_after (hf : f.Reachable) (requests : List Request) {id : NodeId}
    (h : f.parentOf id = none)
    (hno : ∀ p, id ∉ (logged (fun f r => r.childOn p f) f requests).map Prod.snd) :
    (f.after requests).parentOf id = none := by
  induction requests generalizing f with
  | nil => exact h
  | cons r rest ih =>
    have hnext : (f.afterOne r).Reachable := hf.after [r]
    refine ih hnext (parentOf_afterOne hf r h fun p key hp => hno p ?_) fun p hmem => hno p ?_
    · rw [logged, hp]
      exact List.mem_cons_self ..
    · rw [logged, List.map_append]
      exact List.mem_append_right _ hmem

theorem description_after (hf : f.Reachable) (requests : List Request) {id : NodeId} {n : Node}
    (hn : f.node? id = some n) :
    ∃ n', (f.after requests).node? id = some n' ∧ n'.toDescription = n.toDescription := by
  induction requests generalizing f n with
  | nil => exact ⟨n, hn, rfl⟩
  | cons r rest ih =>
    have hnext : (f.afterOne r).Reachable := hf.after [r]
    obtain ⟨m, hm, hone⟩ : ∃ m, (f.afterOne r).node? id = some m ∧
        m.toDescription = n.toDescription := by
      rcases afterOne_cases hf r with hs | hsame
      · exact description_step hs hn
      · exact ⟨n, by rw [hsame, hn], rfl⟩
    obtain ⟨n', hn', hrest⟩ := ih hnext hm
    exact ⟨n', hn', hrest.trans hone⟩

/-- Whether a node has no parent and can be registered on any node that has not been compiled and
does not stand under it. -/
structure Free (f : Forest) (c : NodeId) : Prop where
  parentOf : f.parentOf c = none
  registers : ∀ p P, f.node? p = some P → P.isSealed = false → f.isUnder p c = false →
    Request.isGranted f (.child p (some c)) = true ∧
      (f.afterOne (.child p (some c))).parentOf c = some p

theorem free_of_parentOf {c : NodeId} {C : Node} (hC : f.node? c = some C) (hrole : C.role = .sub)
    (h : f.parentOf c = none) : f.Free c where
  parentOf := h
  registers := fun p P hP hsealed hunder => by
    rw [Forest.parentOf, hC, Option.bind_some] at h
    rw [isUnder, List.contains_eq_mem, decide_eq_false_iff_not] at hunder
    have hfree : ∀ q, C.parent = some q → q = p := by
      intro q hq
      rw [h] at hq
      cases hq
    obtain ⟨f', hdone⟩ := registerChild_isOk_iff.mpr ⟨P, C, hP, hC, hrole, hsealed, hunder, hfree⟩
    obtain ⟨c', P', C', hc, hl⟩ := linked_of_registerChild hdone
    cases hc
    unfold Request.isGranted afterOne
    rw [Request.carryOut, registering_eq, atOnce, hdone]
    exact ⟨rfl, by rw [hl.parentOf, if_pos rfl]⟩

/-- The child that is replaced is one that can be registered, and loses its parent. -/
theorem replaced_of_childOn (hf : f.Reachable) {p c old : NodeId} {key : String}
    (hc : Request.childOn p f (.child p (some c)) = some (key, c))
    (hold : (f.childrenAt p).get? key = some old) (hne : old ≠ c) :
    (∃ n, f.node? old = some n ∧ n.role = .sub) ∧
      (f.afterOne (.child p (some c))).parentOf old = none := by
  rcases granted_or_refused hf (.child p (some c)) with ⟨hgranted, hdone⟩ | ⟨hrefused, -⟩
  · generalize f.afterOne (.child p (some c)) = f' at hdone ⊢
    cases hdone with
    | @child _ _ _ P C hl =>
      rw [Request.childOn_of_granted hgranted hl.childNode, if_pos rfl] at hc
      cases hc
      rw [childrenAt, hl.parentNode, Option.elim_some] at hold
      obtain ⟨n, hn, -, -, hrole⟩ := hf.wellFormed.child hl.parentNode hold
      refine ⟨⟨n, hn, hrole⟩, ?_⟩
      rw [hl.parentOf, if_neg hne, if_pos hold]
  · rw [Request.childOn_of_refused hrefused] at hc
    cases hc

/-! ## What was registered -/

/--
**A node has what was registered on it last.** Whatever is requested of a forest, granted or
refused: under each key, a node has the child that was registered on it last under that key, and the
keys are in the order in which something was first registered under them. So it is with its
parameters. The child that was registered last under a word in lower case is the one that the word
leads to, whatever aliases other children have. A child that has been replaced by another one has no
parent until it is registered once more, and until then it can be registered on any node that has
not been compiled and does not stand under it.
-/
theorem registered_in_order (requests : List Request) (p : NodeId) :
    let f := empty.after requests
    let children := logged (fun f r => r.childOn p f) empty requests
    let parameters := logged (fun f r => r.parameterOn p f) empty requests
    (f.childrenAt p).Keeps children ∧ (f.parametersAt p).Keeps parameters ∧
      (∀ word c, Catalog.IsLast children (lowercase word) c → f.resolve p word = some c) ∧
      ∀ c key old, Request.childOn p f (.child p (some c)) = some (key, c) →
        (f.childrenAt p).get? key = some old → old ≠ c →
        let f' := f.afterOne (.child p (some c))
        ∀ later, (∀ q, old ∉ (logged (fun f r => r.childOn q f) f' later).map Prod.snd) →
          (f'.after later).Free old := by
  dsimp only
  have hf : (empty.after requests).Reachable := Reachable.start.after requests
  have hchildren := childrenAt_after requests p
  refine ⟨?_, ?_, ?_, ?_⟩
  · rw [hchildren]
    exact Catalog.keeps_ofList _
  · rw [parametersAt_after]
    exact Catalog.keeps_ofList _
  · intro word c hlast
    rw [← Catalog.get?_ofList_eq_some_iff, ← hchildren, childrenAt] at hlast
    rw [resolve]
    cases hP : (empty.after requests).node? p with
    | none => rw [hP] at hlast; cases hlast
    | some P =>
      rw [hP, Option.elim_some] at hlast
      dsimp only
      rw [hlast]
  · intro c key old hc hold hne later hno
    obtain ⟨⟨n, hn, hrole⟩, hparent⟩ := replaced_of_childOn hf hc hold hne
    have hnext := hf.after [.child p (some c)]
    obtain ⟨m, hm, hdesc⟩ := description_after hf (.child p (some c) :: later) hn
    have hsub : m.role = .sub := (congrArg Description.role hdesc).trans hrole
    exact free_of_parentOf hm hsub (parentOf_after hnext later hparent hno)

/-- A command is given two children, of which the second has the name of the first as an alias; it
cannot be registered under its own child. -/
def pointsRequests : List Request :=
  [.declare "command" .root (.string "points") {} fun _ => .done (),
    .declare "child" .sub (.string "add") {} fun _ => .done (),
    .declare "child" .sub (.string "remove") { aliases := .tuple [.string "ADD"] } fun _ =>
      .done (),
    .declare "child" .sub (.string "Add") {} fun _ => .done (),
    .child 0 (some 1), .child 0 (some 2), .child 1 (some 0)]

/-- A child whose name differs from that of the first in case only takes its place, and the first
can be registered under the second. -/
theorem registered_in_order_points :
    logged (fun f r => r.childOn 0 f) empty (pointsRequests ++ [.child 0 (some 3)])
        = [("add", 1), ("remove", 2), ("add", 3)] ∧
      ((empty.after (pointsRequests ++ [.child 0 (some 3)])).childrenAt 0).keys
        = ["add", "remove"] ∧
      (empty.after (pointsRequests ++ [.child 0 (some 3)])).resolve 0 "aDD" = some 3 ∧
      Request.childOn 0 (empty.after pointsRequests) (.child 0 (some 3)) = some ("add", 3) ∧
      ((empty.after pointsRequests).childrenAt 0).get? "add" = some 1 ∧
      ((empty.after pointsRequests).afterOne (.child 0 (some 3))).Free 1 := by
  have hlogged : logged (fun f r => r.childOn 0 f) empty (pointsRequests ++ [.child 0 (some 3)])
      = [("add", 1), ("remove", 2), ("add", 3)] := rfl
  have hc : Request.childOn 0 (empty.after pointsRequests) (.child 0 (some 3)) = some ("add", 3) :=
    rfl
  obtain ⟨hchildren, -, hresolve, -⟩ :=
    registered_in_order (pointsRequests ++ [.child 0 (some 3)]) 0
  obtain ⟨-, -, -, hfree⟩ := registered_in_order pointsRequests 0
  refine ⟨hlogged, ?_, hresolve "aDD" 3 ⟨[("add", 1), ("remove", 2)], [], hlogged, by simp⟩, hc,
    rfl, hfree 3 "add" 1 hc rfl (by decide) [] ?_⟩
  · rw [hchildren.keys, hlogged]
    decide
  · intro q hmem
    cases hmem

end CommandTree.Forest
