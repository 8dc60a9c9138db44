import CommandTree.Dispatch
import CommandTree.Proofs.Grammar.Walk
import CommandTree.Proofs.Parameter.Oversize

/-!
# Who may run a node, and with which call

A node, or the root of its tree, says which permission is needed and which class of senders may run
it. A sender that is admitted runs the node with the arguments that were read: they are bound again
without fault, to the values that were read. Any other sender runs nothing.

* `constraintSource_eq`: permission and audience come from the same node
* `bindAll_filled`: what a grammar has accepted is bound again to the same values
* `dispatch_filled`: what happens when a node is called with arguments for its first parameters
-/

namespace CommandTree

open Text

/-! ## Who is admitted -/

/-- Whether a sender is of an audience. -/
def Audience.Admits (a : Audience) (sender : Option Sender) : Prop :=
  match a with
  | .anyone => True
  | .interactive => ∃ s, sender = some s ∧ s.isInteractive = .ok true
  | .automated => ∃ s, sender = some s ∧ s.isAutomated = .ok true

/-- Whether a sender holds the permission that a node asks for, if it asks for one, and is of the
audience of the node. -/
def Node.Admits (n : Node) (sender : Option Sender) : Prop :=
  (∀ p, n.permission = some p → ∃ s, sender = some s ∧ s.holds (.string p) = .ok true) ∧
    n.audience.Admits sender

theorem checkAudience_eq_ok_iff {sender : Option Sender} {a : Audience} :
    checkAudience sender a = .ok () ↔ a.Admits sender := by
  cases a with
  | anyone => simp [checkAudience, Audience.Admits]
  | interactive | automated =>
    cases sender with
    | none => simp [checkAudience, Audience.Admits, presentSender, bind, Except.bind]
    | some s =>
      simp [checkAudience, Audience.Admits, presentSender, bind, Except.bind, insist_eq_ok_iff]

theorem checkPermission_eq_ok_iff {sender : Option Sender} {permission : Option String} :
    checkPermission sender permission = .ok () ↔
      ∀ p, permission = some p → ∃ s, sender = some s ∧ s.holds (.string p) = .ok true := by
  cases permission with
  | none => simp [checkPermission]
  | some p =>
    cases sender with
    | none => simp [checkPermission, presentSender, bind, Except.bind]
    | some s => simp [checkPermission, presentSender, bind, Except.bind, insist_eq_ok_iff]

/-- Permission and audience come from the node itself if it asks for a permission of its own, and
otherwise from the root of its tree. -/
theorem Forest.constraintSource_eq {f : Forest} {id : NodeId} {N R : Node}
    (hN : f.node? id = some N) (hR : f.node? (f.rootOf id) = some R) :
    f.constraintSource id = some (if N.isRestricted then N else R) := by
  rw [constraintSource, hN, hR, Option.any_some]
  by_cases h : N.isRestricted = true
  · rw [if_pos h, if_pos h]
  · rw [if_neg h, if_neg h]

section Source

variable {f : Forest} {id : NodeId} {guard : Node}

theorem Forest.effectivePermission_of_source (h : f.constraintSource id = some guard) :
    f.effectivePermission id = guard.permission := by
  rw [effectivePermission, h, Option.bind_some]

theorem Forest.effectiveAudience_of_source (h : f.constraintSource id = some guard) :
    f.effectiveAudience id = guard.audience := by
  rw [effectiveAudience, h]
  rfl

end Source

/-! ## Binding what was read -/

/-- The integers that a domain holds are of 64 bits. -/
theorem Domain.long_of_holds {d : Domain} (hsound : d.Sound)
    (htype : d.type = .integer ∨ d.type = .long) {n : Int} (h : d.holds (.integer n) = true) :
    longLeast ≤ n ∧ n ≤ longGreatest := by
  have hlimits : ∀ least greatest : Int, d.limits? = some (.integer least, .integer greatest) →
      least ≤ n ∧ n ≤ greatest := by
    intro least greatest hd
    rw [holds, hd] at h
    simpa [Scalar.isBetween, Scalar.number?, Scalar.isOfLength, Number.le_integer] using
      (Bool.and_eq_true_iff.mp h).1
  have hleast : longLeast ≤ integerLeast := by decide
  have hgreatest : integerGreatest ≤ longGreatest := by decide
  cases d with
  | integer least greatest =>
    obtain ⟨hl, hg⟩ := hlimits least greatest rfl
    obtain ⟨hlower, -, hupper⟩ := hsound
    exact ⟨by omega, by omega⟩
  | long least greatest =>
    obtain ⟨hl, hg⟩ := hlimits least greatest rfl
    obtain ⟨hlower, -, hupper⟩ := hsound
    exact ⟨by omega, by omega⟩
  | double least greatest => rcases htype with h | h <;> cases h
  | boolean => rcases htype with h | h <;> cases h
  | string minLength maxLength greedy => rcases htype with h | h <;> cases h

namespace Parameter

/-- What a text is accepted as can be bound again, to what it is. -/
theorem bind_of_acceptsWhole {p : Parameter} {a : ParsedArgument} (h : p.AcceptsWhole a) :
    p.bind a.value.toDatum = .ok (.of p.type a.value.toDatum) := by
  have hwhole := (acceptsWhole_iff.mp h).1
  have hbind : p.bind (.string a.raw) = .ok (.of p.type a.value.toDatum) :=
    (read_eq_ok_iff_bind h.1 hwhole).mp (by rw [h.2])
  exact bind_payload hbind

theorem isWritable_of_acceptsWhole {p : Parameter} {a : ParsedArgument} (h : p.AcceptsWhole a) :
    a.value.toDatum.isWritable = true := by
  obtain ⟨found, hread, hholds, hvalue⟩ := bind_eq_ok_iff.mp (bind_of_acceptsWhole h)
  have hfound : a.value = found := Scalar.toDatum_inj (congrArg Value.payload hvalue)
  have htype := isOf_of_read hread
  rw [hfound]
  cases found with
  | text s => rfl
  | double x => rfl
  | boolean b => rfl
  | integer n =>
    have hinteger : p.type = .integer ∨ p.type = .long := by
      cases hp : p.type <;> rw [hp] at htype <;> simp_all [Scalar.isOf]
    obtain ⟨hl, hg⟩ := Domain.long_of_holds p.sound hinteger hholds
    exact isWritableInteger_of_long hl hg

end Parameter

/-- The raw values of arguments, by the names of their parameters. -/
def rawEntries (ps : List Parameter) (as : List ParsedArgument) : List (Datum × Datum) :=
  (ps.zip as).map fun e => (.string e.1.name.text, e.2.value.toDatum)

/-- **What a grammar has accepted is bound again, to the values that were read.** -/
theorem bindAll_filled {n : Node} {ps : List Parameter} {as : List ParsedArgument}
    (hget : ∀ p ∈ ps, n.parameters.get? p.key = some p) (h : Filled ps as)
    (bound : Catalog Value) :
    bindAll n bound (rawEntries ps as)
      = .ok ((ps.zip as).foldl
          (fun kept e => kept.put e.1.key (.of e.1.type e.2.value.toDatum)) bound) := by
  induction ps generalizing as bound with
  | nil => rfl
  | cons p ps ih =>
    cases as with
    | nil => rfl
    | cons a as =>
      obtain ⟨hp, hps⟩ := List.forall_mem_cons.mp hget
      have hparameter : parameterFor n (.string p.name.text) = some p := hp
      rw [rawEntries, List.zip_cons_cons, List.map_cons, bindAll, hparameter]
      simp only [Parameter.bind_of_acceptsWhole h.1]
      exact ih hps h.2 _

/-- The arguments of a call are those that are given, or else the plain texts of the raw values, if
the raw values can be written. -/
theorem callArguments_eq {raw : List (Datum × Datum)}
    (h : ∀ entry ∈ raw, entry.2.isWritable = true) (given : Datum) :
    callArguments raw given
      = .ok (given.orElse (.tuple (raw.map fun entry => .string entry.2.plain))) := by
  have htexts : (raw.mapM fun entry => do
      let item ← entry.2.asWritable
      pure (Datum.string item.plain)) = .ok (raw.map fun entry => .string entry.2.plain) := by
    induction raw with
    | nil => rfl
    | cons entry rest ih =>
      obtain ⟨hentry, hrest⟩ := List.forall_mem_cons.mp h
      rw [List.mapM_cons, ih hrest, Datum.asWritable, if_pos hentry]
      rfl
  rw [callArguments, htexts]
  rfl

theorem isWritable_of_filled {ps : List Parameter} {as : List ParsedArgument} (h : Filled ps as) :
    ∀ entry ∈ rawEntries ps as, entry.2.isWritable = true := by
  induction ps generalizing as with
  | nil => simp [rawEntries]
  | cons p ps ih =>
    cases as with
    | nil => simp [rawEntries]
    | cons a as =>
      exact List.forall_mem_cons.mpr ⟨Parameter.isWritable_of_acceptsWhole h.1, ih h.2⟩

/-! ## The call -/

/-- The call of a node with arguments for its first parameters: the values that were read, by the
keys of the parameters, and the texts that they were read from. -/
def Node.callWith (n : Node) (sender : Option Sender) (usage : String) (as : List ParsedArgument) :
    Call :=
  ⟨sender, n.name.text, usage,
    (n.parameters.items.zip as).map fun e =>
      (.string e.1.key, (Value.of e.1.type e.2.value.toDatum).toDatum),
    as.map fun a => .string a.raw⟩

/-- What is made of the values that were bound is the same as what the call has. -/
theorem callValues_filled {n : Node} (hkeys : (n.parameters.items.map Parameter.key).Nodup)
    (as : List ParsedArgument) (sender : Option Sender) (usage : String) :
    callValues ((n.parameters.items.zip as).foldl
        (fun kept e => kept.put e.1.key (.of e.1.type e.2.value.toDatum)) .empty)
      = .dict (n.callWith sender usage as).values := by
  have hnew : ((.empty : Catalog Value).keys
      ++ (n.parameters.items.zip as).map fun e => e.1.key).Nodup := by
    rw [Catalog.keys_empty, List.nil_append]
    exact nodup_map_zip hkeys as
  rw [callValues, Catalog.entries_foldl_put (fun e : Parameter × ParsedArgument => e.1.key)
    (fun e => Value.of e.1.type e.2.value.toDatum) _ _ hnew, List.map_append, List.map_map]
  rfl

section Prepared

variable {f : Forest} {id : NodeId} {n guard : Node} {sender : Option Sender}
  {raw : List (Datum × Datum)} {given : Datum}

/-- A sender that is admitted gets as far as its raw values can be bound. -/
theorem prepareCall_of_admits (hguard : f.constraintSource id = some guard)
    (hadmits : guard.Admits sender) :
    prepareCall f sender id n raw given
      = (bindAll n .empty raw).bind fun bound => (callArguments raw given).bind fun arguments =>
          Call.declare sender n.name.text (f.usageOf id) (callValues bound) arguments := by
  obtain ⟨hp, ha⟩ := hadmits
  rw [prepareCall, Forest.effectivePermission_of_source hguard,
    checkPermission_eq_ok_iff.mpr hp, Forest.effectiveAudience_of_source hguard,
    checkAudience_eq_ok_iff.mpr ha]
  rfl

/-- A sender that is not admitted is refused before anything is bound. -/
theorem prepareCall_of_not_admits (hguard : f.constraintSource id = some guard)
    (hno : ¬ guard.Admits sender) :
    ∃ fault, prepareCall f sender id n raw given = .error fault := by
  rw [prepareCall, Forest.effectivePermission_of_source hguard,
    Forest.effectiveAudience_of_source hguard]
  cases hp : checkPermission sender guard.permission with
  | error fault => exact ⟨fault, rfl⟩
  | ok u =>
    cases ha : checkAudience sender guard.audience with
    | error fault => exact ⟨fault, rfl⟩
    | ok u => exact absurd ⟨checkPermission_eq_ok_iff.mp hp, checkAudience_eq_ok_iff.mp ha⟩ hno

/-- The call is made for senders that are admitted, and for no others. -/
theorem prepareCall_filled (hguard : f.constraintSource id = some guard)
    (hkeys : (n.parameters.items.map Parameter.key).Nodup)
    (hget : ∀ p ∈ n.parameters.items, n.parameters.get? p.key = some p)
    {as : List ParsedArgument} (h : Filled n.parameters.items as) (sender : Option Sender) :
    let prepared := prepareCall f sender id n (rawEntries n.parameters.items as)
      (.tuple (as.map fun a => .string a.raw))
    (guard.Admits sender → prepared = .ok (n.callWith sender (f.usageOf id) as)) ∧
      (¬ guard.Admits sender → ∃ fault, prepared = .error fault) := by
  refine ⟨fun hadmits => ?_, prepareCall_of_not_admits hguard⟩
  rw [prepareCall_of_admits hguard hadmits, bindAll_filled hget h,
    callArguments_eq (isWritable_of_filled h)]
  simp only [Except.bind, callValues_filled hkeys as sender (f.usageOf id)]
  rfl

end Prepared

/-! ## Running a node -/

/-- What happens after a node has been run: its fault is settled, if it ends in one. -/
def aftermath (handler : Option Handler) (sender : Option Sender) (result : Except Fault Unit) :
    List Event :=
  match result with
  | .ok _ => []
  | .error fault => (settle handler sender fault).events

/-- The verdict on how a node has ended. -/
def verdictOn (result : Except Fault Unit) : Verdict :=
  if result.isOk then .success else .failure

theorem conclude_eq (handler : Option Handler) (sender : Option Sender) (tried : Outcome Unit) :
    conclude handler sender tried
      = ⟨tried.events ++ aftermath handler sender tried.result, .ok (verdictOn tried.result)⟩ := by
  unfold conclude aftermath verdictOn
  cases tried.result with
  | ok u => simp [Except.isOk, Except.toBool]
  | error fault => rfl

theorem runNode_eq (n : Node) (call : Call) :
    runNode n call = ⟨.ran call :: (n.run call).events, (n.run call).result⟩ := by
  rw [runNode, Outcome.emit_bind]

section Dispatched

variable {f : Forest} {id : NodeId} {n : Node} {raw : Datum} {entries : List (Datum × Datum)}

theorem dispatch_eq (hn : f.node? id = some n)
    (hraw : (raw.orElse (.dict [])).entries = .ok entries) (handler : Option Handler)
    (sender : Option Sender) (given : Datum) :
    dispatch f handler sender id raw given
      = conclude handler sender
          ((Outcome.of (prepareCall f sender id n entries given)).bind (runNode n)) := by
  rw [dispatch, Forest.nodeAt_eq_ok_iff.mpr hn, hraw]

/-- Where there is no call, nothing is run, and what is wrong is settled. -/
theorem dispatch_of_refused (hn : f.node? id = some n)
    (hraw : (raw.orElse (.dict [])).entries = .ok entries) {handler : Option Handler}
    {sender : Option Sender} {given : Datum} {fault : Fault}
    (h : prepareCall f sender id n entries given = .error fault) :
    dispatch f handler sender id raw given
      = ⟨(settle handler sender fault).events, .ok .failure⟩ := by
  rw [dispatch_eq hn hraw, h, conclude_eq, Outcome.bind_of_error rfl]
  rfl

/-- Where there is a call, the node is run with it. -/
theorem dispatch_of_prepared (hn : f.node? id = some n)
    (hraw : (raw.orElse (.dict [])).entries = .ok entries) {handler : Option Handler}
    {sender : Option Sender} {given : Datum} {call : Call}
    (h : prepareCall f sender id n entries given = .ok call) :
    dispatch f handler sender id raw given
      = ⟨.ran call :: (n.run call).events ++ aftermath handler sender (n.run call).result,
        .ok (verdictOn (n.run call).result)⟩ := by
  rw [dispatch_eq hn hraw, h, conclude_eq, Outcome.bind_of_ok rfl, runNode_eq]
  rfl

end Dispatched

/-- **A node is run once for a sender that is admitted, and not at all for any other.** -/
theorem dispatch_filled {f : Forest} {id : NodeId} {n guard : Node} (hn : f.node? id = some n)
    (hguard : f.constraintSource id = some guard)
    (hkeys : (n.parameters.items.map Parameter.key).Nodup)
    (hget : ∀ p ∈ n.parameters.items, n.parameters.get? p.key = some p)
    {as : List ParsedArgument} (h : Filled n.parameters.items as) (handler : Option Handler)
    (sender : Option Sender) :
    let call := n.callWith sender (f.usageOf id) as
    let outcome := dispatch f handler sender id (.dict (rawEntries n.parameters.items as))
      (.tuple (as.map fun a => .string a.raw))
    (guard.Admits sender → outcome
        = ⟨.ran call :: (n.run call).events ++ aftermath handler sender (n.run call).result,
          .ok (verdictOn (n.run call).result)⟩) ∧
      (¬ guard.Admits sender → ∃ fault, outcome
        = ⟨(settle handler sender fault).events, .ok .failure⟩) := by
  obtain ⟨hyes, hno⟩ := prepareCall_filled hguard hkeys hget h sender
  dsimp only at hyes hno ⊢
  refine ⟨fun hadmits => dispatch_of_prepared hn rfl (hyes hadmits), fun hrefused => ?_⟩
  obtain ⟨fault, hfault⟩ := hno hrefused
  exact ⟨fault, dispatch_of_refused hn rfl hfault⟩

/-! ## Runs among events -/

/-- The call that an event is the run of, if it is one. -/
def Event.call? : Event → Option Call
  | .ran call => some call
  | _ => none

/-- The calls that nodes were run with, in order. -/
def callsIn (events : List Event) : List Call := events.filterMap Event.call?

/-- Settling a fault runs nothing if the handler runs nothing. -/
theorem callsIn_settle {handler : Option Handler}
    (h : ∀ x, handler = some x → ∀ sender r, callsIn (x.handle sender r).events = [])
    (sender : Option Sender) (fault : Fault) :
    callsIn (settle handler sender fault).events = [] := by
  have hreport : ∀ r, callsIn (reportTo handler sender r).events = [] := by
    intro r
    cases handler with
    | none => rfl
    | some x =>
      have hx := h x rfl sender r
      rw [reportTo, Outcome.rescue]
      cases (x.handle sender r).result with
      | ok u => exact hx
      | error fault =>
        rw [callsIn] at hx ⊢
        rw [List.filterMap_append, hx]
        rfl
  cases fault with
  | report r => exact hreport r
  | _ => rfl

/-- A node that runs nothing itself is the only one that is run. -/
theorem callsIn_ran {handler : Option Handler}
    (h : ∀ x, handler = some x → ∀ sender r, callsIn (x.handle sender r).events = [])
    (sender : Option Sender) (call : Call) {own : List Event} (hown : callsIn own = [])
    (result : Except Fault Unit) :
    callsIn (.ran call :: own ++ aftermath handler sender result) = [call] := by
  have hafter : callsIn (aftermath handler sender result) = [] := by
    cases result with
    | ok u => rfl
    | error fault => exact callsIn_settle h sender fault
  have hcall : (Event.ran call).call? = some call := rfl
  rw [callsIn] at hown hafter ⊢
  rw [List.cons_append, List.filterMap_cons_some hcall, List.filterMap_append, hown, hafter]
  rfl

end CommandTree
