import CommandTree.Proofs.Dispatch.Decision
import CommandTree.Proofs.Grammar.Route

/-!
# What a node is run with

The raw values of a call are named, in any case of letters, and several may be named for one
parameter. A node that is run has a value for each of its parameters that a raw value is named for,
and that is what the last such raw value is bound to. Raw values that are named for no parameter are
passed over, and might as well not be there if the arguments of the call are given.

* `enters_iff`: a node is run exactly if a call is made
* `mem_keys_of_bindAll`, `get?_of_bindAll`: which values are bound, and from which raw values
* `prepareCall_filter_names`: raw values that are named for no parameter do not matter
* `values_of_enters`: all of this about a node that is run
-/

namespace CommandTree

open Text

/-! ## Raw values by name -/

/-- Raw values by their names in lower case, as far as the names are texts. -/
def namedValues (raw : List (Datum × Datum)) : List (String × Datum) :=
  raw.filterMap fun entry => entry.1.string?.map fun name => (lowercase name, entry.2)

/-- What a raw value with a name in lower case is bound to, if there is such a parameter. -/
def Node.boundTo (n : Node) (key : String) (raw : Datum) : Option Value :=
  (n.parameters.get? key).bind fun p => (p.bind raw).toOption

section Bound

variable {f : Forest} {id : NodeId} {n : Node} {raw : List (Datum × Datum)}

theorem mem_namedValues_keys {key : String} :
    key ∈ (namedValues raw).map Prod.fst ↔
      ∃ entry ∈ raw, ∃ name, entry.1 = .string name ∧ lowercase name = key := by
  rw [namedValues, List.mem_map]
  constructor
  · rintro ⟨named, hnamed, rfl⟩
    obtain ⟨entry, hmem, hentry⟩ := List.mem_filterMap.mp hnamed
    obtain ⟨name, hname, rfl⟩ := Option.map_eq_some_iff.mp hentry
    refine ⟨entry, hmem, name, ?_, rfl⟩
    cases hd : entry.1 <;> rw [hd] at hname <;> cases hname
    rfl
  · rintro ⟨entry, hmem, name, hname, rfl⟩
    refine ⟨(lowercase name, entry.2), List.mem_filterMap.mpr ⟨entry, hmem, ?_⟩, rfl⟩
    rw [hname]
    rfl

/-- Binding raw values is binding them by their names in lower case. -/
theorem filterMap_binding (hwf : f.WellFormed) (hn : f.node? id = some n) :
    raw.filterMap n.binding?
      = (namedValues raw).filterMap fun named => (n.boundTo named.1 named.2).map (named.1, ·) := by
  rw [namedValues, List.filterMap_filterMap]
  refine List.filterMap_congr fun entry hmem => ?_
  rw [Node.binding?, parameterFor]
  cases entry.1.string? with
  | none => rfl
  | some name =>
    rw [Option.bind_some, Option.map_some, Option.bind_some, Node.boundTo, Node.parameter?]
    cases hp : n.parameters.get? (lowercase name) with
    | none => rfl
    | some p =>
      have hkey : p.key = lowercase name := hwf.parameter hn hp
      rw [Option.bind_some, Option.bind_some, hkey]

theorem takes_of_bindAll {bound : Catalog Value} (h : bindAll n .empty raw = .ok bound) :
    (∀ entry ∈ raw, n.Takes entry) ∧ bound = Catalog.ofList (raw.filterMap n.binding?) := by
  rcases refused_or_takes n raw with ⟨before, entry, after, p, fault, rfl, hb, hp, hf⟩ | htakes
  · rw [bindAll_of_refused hb hp hf] at h
    cases h
  · rw [bindAll_of_takes htakes] at h
    exact ⟨htakes, (Except.ok.inj h).symm⟩

/-- Raw values that are named for a parameter are bound, if all raw values are taken. -/
theorem boundTo_of_takes (htakes : ∀ entry ∈ raw, n.Takes entry) {p : Parameter}
    {named : String × Datum} (hmem : named ∈ namedValues raw)
    (hp : n.parameters.get? named.1 = some p) :
    ∃ v, n.boundTo named.1 named.2 = some v := by
  obtain ⟨entry, hentry, hnamed⟩ := List.mem_filterMap.mp hmem
  obtain ⟨name, hname, rfl⟩ := Option.map_eq_some_iff.mp hnamed
  have hfor : parameterFor n entry.1 = some p := by
    rw [parameterFor, hname]
    exact hp
  obtain ⟨v, hv⟩ := htakes entry hentry p hfor
  refine ⟨v, ?_⟩
  rw [Node.boundTo, hp, Option.bind_some, hv]
  rfl

/-- Values are bound to the parameters that raw values are named for. -/
theorem mem_keys_of_bindAll (hwf : f.WellFormed) (hn : f.node? id = some n)
    {bound : Catalog Value} (h : bindAll n .empty raw = .ok bound) {key : String} :
    key ∈ bound.keys ↔ (∃ p, n.parameters.get? key = some p) ∧
      key ∈ (namedValues raw).map Prod.fst := by
  obtain ⟨htakes, rfl⟩ := takes_of_bindAll h
  rw [Catalog.keys_ofList, List.mem_eraseDups, filterMap_binding hwf hn]
  simp only [List.mem_map, List.mem_filterMap, Option.map_eq_some_iff]
  constructor
  · rintro ⟨_, ⟨named, hmem, v, hv, rfl⟩, rfl⟩
    obtain ⟨p, hp, -⟩ := Option.bind_eq_some_iff.mp hv
    exact ⟨⟨p, hp⟩, named, hmem, rfl⟩
  · rintro ⟨⟨p, hp⟩, named, hmem, rfl⟩
    obtain ⟨v, hv⟩ := boundTo_of_takes htakes hmem hp
    exact ⟨_, ⟨named, hmem, v, hv, rfl⟩, rfl⟩

/-- **The value of a parameter is what the last raw value that is named for it is bound to.** -/
theorem get?_of_bindAll (hwf : f.WellFormed) (hn : f.node? id = some n)
    {bound : Catalog Value} (h : bindAll n .empty raw = .ok bound) {key : String} {p : Parameter}
    (hp : n.parameters.get? key = some p) {v : Value} :
    bound.get? key = some v ↔
      ∃ last, Catalog.IsLast (namedValues raw) key last ∧ p.bind last = .ok v := by
  obtain ⟨htakes, rfl⟩ := takes_of_bindAll h
  have hbound : ∀ named ∈ namedValues raw, named.1 = key →
      ∃ v, n.boundTo named.1 named.2 = some v := by
    rintro named hmem rfl
    exact boundTo_of_takes htakes hmem hp
  rw [Catalog.get?_ofList_eq_some_iff, filterMap_binding hwf hn,
    Catalog.isLast_filterMap_iff hbound]
  refine exists_congr fun last => and_congr_right fun _ => ?_
  rw [Node.boundTo, hp, Option.bind_some]
  cases p.bind last <;> simp [Except.toOption]

end Bound

/-! ## Raw values that are named for no parameter -/

/-- Whether a raw value is named for a parameter of a node. -/
def Node.names (n : Node) (entry : Datum × Datum) : Bool := (parameterFor n entry.1).isSome

section Unnamed

variable {n : Node} {raw : List (Datum × Datum)} {given : Datum}

/-- Raw values that are named for no parameter are passed over. -/
theorem bindAll_filter_names (bound : Catalog Value) :
    bindAll n bound (raw.filter n.names) = bindAll n bound raw := by
  induction raw generalizing bound with
  | nil => rfl
  | cons entry rest ih =>
    obtain ⟨name, value⟩ := entry
    cases hp : parameterFor n name with
    | none =>
      have hno : ¬ n.names (name, value) = true := by simp [Node.names, hp]
      rw [List.filter_cons_of_neg hno, bindAll, hp]
      exact ih bound
    | some p =>
      have hyes : n.names (name, value) = true := by simp [Node.names, hp]
      rw [List.filter_cons_of_pos hyes, bindAll, bindAll, hp]
      cases hv : p.bind value with
      | error fault => simp only [hv]
      | ok v => simp only [hv, ih]

/-- There are arguments only if all raw values can be written. -/
theorem isWritable_of_callArguments {arguments : Datum}
    (h : callArguments raw given = .ok arguments) : ∀ entry ∈ raw, entry.2.isWritable = true := by
  intro entry hmem
  unfold callArguments at h
  simp only [bind, Except.bind] at h
  split at h
  · cases h
  · next texts htexts =>
    obtain ⟨text, htext⟩ := Grammar.exists_ok_of_mapM htexts hmem
    by_contra hno
    rw [Datum.asWritable, if_neg hno] at htext
    cases htext

/-- Where the arguments are given, a call with raw values is also made without those that are named
for no parameter. -/
theorem prepareCall_filter_names {f : Forest} {sender : Option Sender} {target : NodeId}
    (hgiven : given ≠ .unset) (hwritable : ∀ entry ∈ raw, entry.2.isWritable = true) :
    prepareCall f sender target n (raw.filter n.names) given
      = prepareCall f sender target n raw given := by
  have hfiltered : ∀ entry ∈ raw.filter n.names, entry.2.isWritable = true := fun entry hmem =>
    hwritable entry (List.mem_of_mem_filter hmem)
  unfold prepareCall
  rw [bindAll_filter_names, callArguments_eq hwritable, callArguments_eq hfiltered,
    Datum.orElse_of_ne hgiven, Datum.orElse_of_ne hgiven]

end Unnamed

/-! ## Running a node -/

/-- Whether a call runs a node, and with which call, whoever is told of reports. -/
def Enters (f : Forest) (sender : Option Sender) (target : NodeId) (raw given : Datum)
    (call : Call) : Prop :=
  ∀ handler, (dispatch f handler sender target raw given).events.head? = some (.ran call)

section Entered

variable {f : Forest} {sender : Option Sender} {target : NodeId} {n : Node} {raw given : Datum}
  {call : Call}

/-- **A node is run exactly if its call can be made.** -/
theorem enters_iff (hn : f.node? target = some n) :
    Enters f sender target raw given call ↔
      ∃ entries, (raw.orElse (.dict [])).entries = .ok entries ∧
        prepareCall f sender target n entries given = .ok call := by
  constructor
  · intro h
    have hhead := h none
    cases hraw : (raw.orElse (.dict [])).entries with
    | error fault =>
      rw [dispatch, Forest.nodeAt_eq_ok_iff.mpr hn, hraw] at hhead
      cases hhead
    | ok entries =>
      refine ⟨entries, rfl, ?_⟩
      -- where no handler is told of it, a refused call leaves at most a line in the log
      cases hcall : prepareCall f sender target n entries given with
      | error fault =>
        rw [dispatch_of_refused hn hraw hcall] at hhead
        cases fault <;> cases hhead
      | ok made =>
        rw [dispatch_of_prepared hn hraw hcall] at hhead
        cases hhead
        rfl
  · rintro ⟨entries, hraw, hcall⟩ handler
    rw [dispatch_of_prepared hn hraw hcall]
    rfl

/-- What a call that can be made is made of. -/
theorem prepareCall_eq_ok {entries : List (Datum × Datum)}
    (h : prepareCall f sender target n entries given = .ok call) :
    ∃ bound, bindAll n .empty entries = .ok bound ∧
      (∀ entry ∈ entries, entry.2.isWritable = true) ∧
      call.values = bound.entries.map fun b => (.string b.1, b.2.toDatum) := by
  unfold prepareCall at h
  obtain ⟨-, -, h⟩ := exists_of_bind_eq_ok h
  obtain ⟨-, -, h⟩ := exists_of_bind_eq_ok h
  obtain ⟨bound, hbound, h⟩ := exists_of_bind_eq_ok h
  obtain ⟨arguments, harguments, h⟩ := exists_of_bind_eq_ok h
  unfold Call.declare at h
  obtain ⟨values, hvalues, h⟩ := exists_of_bind_eq_ok h
  obtain ⟨items, -, h⟩ := exists_of_bind_eq_ok h
  cases hvalues
  cases h
  exact ⟨bound, hbound, isWritable_of_callArguments harguments, rfl⟩

end Entered

/-! ## The values of a call -/

/-- Whether a call has the values of raw values: those of the parameters that raw values are named
for, each by the last of these raw values. -/
structure Call.HasValuesOf (call : Call) (n : Node) (raw : List (Datum × Datum)) : Prop where
  /-- No key is there twice, -/
  nodup : (call.values.map Prod.fst).Nodup
  /-- and the keys are the names in lower case of the parameters that raw values are named for. -/
  key_iff : ∀ d, d ∈ call.values.map Prod.fst ↔
    ∃ p ∈ n.parameters.items, d = .string (lowercase p.name.text) ∧
      ∃ entry ∈ raw, ∃ name, entry.1 = .string name ∧ lowercase name = lowercase p.name.text
  /-- The value of a parameter is what the last raw value that is named for it is bound to. It is
  found by the name in any case of letters. -/
  value : ∀ p ∈ n.parameters.items, ∀ last,
    Catalog.IsLast (namedValues raw) (lowercase p.name.text) last →
      ∃ v, p.bind last = .ok v ∧
        (.string (lowercase p.name.text), v.toDatum) ∈ call.values ∧
        ∀ name, lowercase name = lowercase p.name.text →
          call.getNamed (.string name) = .ok v.toDatum
  /-- What has no value is absent. -/
  absent : ∀ name, Datum.string (lowercase name) ∉ call.values.map Prod.fst →
    call.getNamed (.string name) = .ok Value.absent.toDatum

namespace Call

variable {call : Call} {bound : Catalog Value}

/-- Values are found by their keys. -/
theorem lookup_of_values (h : call.values = bound.entries.map fun b => (.string b.1, b.2.toDatum))
    (key : String) : Datum.lookup call.values key = (bound.get? key).map Value.toDatum := by
  rw [h, Datum.lookup, Catalog.get?, List.find?_map, Option.map_map, Option.map_map]
  rfl

theorem getNamed_of_values (h : call.values = bound.entries.map fun b => (.string b.1, b.2.toDatum))
    (name : String) : call.getNamed (.string name)
      = .ok (((bound.get? (lowercase name)).map Value.toDatum).getD Value.absent.toDatum) := by
  rw [getNamed, findNamed, find, lookup_of_values h]

end Call

section Values

variable {f : Forest} {target : NodeId} {n : Node}

theorem hasValuesOf_of_bindAll (hwf : f.WellFormed) (hn : f.node? target = some n)
    {raw : List (Datum × Datum)} {bound : Catalog Value} (hbound : bindAll n .empty raw = .ok bound)
    {call : Call} (h : call.values = bound.entries.map fun b => (.string b.1, b.2.toDatum)) :
    call.HasValuesOf n raw := by
  have hkeys : call.values.map Prod.fst = bound.keys.map Datum.string := by
    rw [h, List.map_map, Catalog.keys, List.map_map]
    rfl
  have hdeclared : ∀ key, (∃ p, n.parameters.get? key = some p) ↔
      ∃ p ∈ n.parameters.items, lowercase p.name.text = key := by
    intro key
    constructor
    · rintro ⟨p, hp⟩
      exact ⟨p, Catalog.mem_items_iff_get?.mpr ⟨key, hp⟩, hwf.parameter hn hp⟩
    · rintro ⟨p, hp, rfl⟩
      exact ⟨p, hwf.get?_key hn hp⟩
  constructor
  case nodup =>
    rw [hkeys]
    exact bound.nodup.map fun _ _ => Datum.string.inj
  case key_iff =>
    intro d
    rw [hkeys, List.mem_map]
    constructor
    · rintro ⟨key, hkey, rfl⟩
      obtain ⟨hget, hnamed⟩ := (mem_keys_of_bindAll hwf hn hbound).mp hkey
      obtain ⟨p, hp, rfl⟩ := (hdeclared key).mp hget
      exact ⟨p, hp, rfl, mem_namedValues_keys.mp hnamed⟩
    · rintro ⟨p, hp, rfl, hnamed⟩
      exact ⟨_, (mem_keys_of_bindAll hwf hn hbound).mpr
        ⟨(hdeclared _).mpr ⟨p, hp, rfl⟩, mem_namedValues_keys.mpr hnamed⟩, rfl⟩
  case value =>
    intro p hp last hlast
    have hget : n.parameters.get? (lowercase p.name.text) = some p := hwf.get?_key hn hp
    have hmem : lowercase p.name.text ∈ bound.keys := (mem_keys_of_bindAll hwf hn hbound).mpr
      ⟨⟨p, hget⟩, Catalog.exists_isLast_iff.mp ⟨last, hlast⟩⟩
    obtain ⟨v, hv⟩ := (Catalog.mem_keys_iff_get? _ _).mp hmem
    obtain ⟨last', hlast', hbind⟩ := (get?_of_bindAll hwf hn hbound hget).mp hv
    have hsame : last' = last := by
      rw [← Catalog.get?_ofList_eq_some_iff] at hlast hlast'
      exact Option.some.inj (hlast'.symm.trans hlast)
    subst hsame
    refine ⟨v, hbind, ?_, fun name hname => ?_⟩
    · rw [h]
      exact List.mem_map.mpr ⟨_, (Catalog.mem_entries_iff_get? _ _ _).mpr hv, rfl⟩
    · rw [Call.getNamed_of_values h, hname, hv]
      rfl
  case absent =>
    intro name hname
    rw [hkeys] at hname
    have hnone : bound.get? (lowercase name) = none :=
      Catalog.get?_eq_none_iff.mpr fun hmem => hname (List.mem_map_of_mem hmem)
    rw [Call.getNamed_of_values h, hnone]
    rfl

/--
**A node is run with the values of the raw values that are named for its parameters.** The raw
values of a call that runs a node have entries. The call has a value for each parameter that a raw
value is named for, in any case of letters, and it is what the last such raw value is bound to. It
is found by the name in any case of letters, and everything else is absent. If the arguments are
given, the call comes to the same verdict, with the same events, without the raw values that are
named for no parameter.
-/
theorem values_of_enters (hf : f.Reachable) (hn : f.node? target = some n)
    {sender : Option Sender} {raw given : Datum} {call : Call}
    (h : Enters f sender target raw given call) :
    ∃ entries, (raw.orElse (.dict [])).entries = .ok entries ∧ call.HasValuesOf n entries ∧
      (given ≠ .unset → ∀ handler,
        dispatch f handler sender target (.dict (entries.filter n.names)) given
          = dispatch f handler sender target raw given) := by
  obtain ⟨entries, hraw, hcall⟩ := (enters_iff hn).mp h
  obtain ⟨bound, hbound, hwritable, hvalues⟩ := prepareCall_eq_ok hcall
  refine ⟨entries, hraw, hasValuesOf_of_bindAll hf.wellFormed hn hbound hvalues, ?_⟩
  intro hgiven handler
  have hfiltered : ((Datum.dict (entries.filter n.names)).orElse (.dict [])).entries
      = .ok (entries.filter n.names) := rfl
  rw [dispatch_eq hn hraw, dispatch_eq hn hfiltered, prepareCall_filter_names hgiven hwritable]

end Values

/-- Two amounts, and something in between that there is no parameter for. -/
def twoAmounts : List (Datum × Datum) :=
  [(.string "Amount", .string "7"), (.string "note", .null), (.string "AMOUNT", .string "9")]

/-- The later amount is bound, and what there is no parameter for makes no difference. -/
theorem values_of_enters_points :
    pointsForest.Reachable ∧ ∃ n call, pointsForest.node? 1 = some n ∧
      Enters pointsForest (some pointsPlayer) 1 (.dict twoAmounts) (.tuple []) call ∧
      call.values = [(.string "amount", .value (some .integer) (.integer 9))] ∧
      call.getNamed (.string "aMount") = .ok (.value (some .integer) (.integer 9)) ∧
      call.getNamed (.string "note") = .ok Value.absent.toDatum ∧
      ∀ handler, dispatch pointsForest handler (some pointsPlayer) 1
          (.dict [(.string "Amount", .string "7"), (.string "AMOUNT", .string "9")]) (.tuple [])
        = dispatch pointsForest handler (some pointsPlayer) 1 (.dict twoAmounts) (.tuple []) := by
  obtain ⟨guard, hguard, hpermission, haudience⟩ : ∃ guard,
      pointsForest.constraintSource 1 = some guard ∧ guard.permission = some "points.use" ∧
        guard.audience = .interactive := ⟨_, rfl, rfl, rfl⟩
  have hadmits : guard.Admits (some pointsPlayer) := by
    refine ⟨fun p h => ⟨_, rfl, ?_⟩, haudience ▸ ⟨_, rfl, rfl⟩⟩
    cases hpermission.symm.trans h
    exact pointsPlayer_holds
  have htakes : ∀ n, pointsForest.node? 1 = some n → ∀ e ∈ twoAmounts, n.Takes e := by
    rintro n ⟨⟩ e hmem p hp
    simp only [twoAmounts, List.mem_cons, List.not_mem_nil, or_false] at hmem
    rcases hmem with rfl | rfl | rfl <;> cases hp
    · exact ⟨.of .integer (.integer 7), rfl⟩
    · exact ⟨.of .integer (.integer 9), rfl⟩
  have hwritable : ∀ entry ∈ twoAmounts, entry.2.isWritable = true := by
    intro entry hmem
    simp only [twoAmounts, List.mem_cons, List.not_mem_nil, or_false] at hmem
    rcases hmem with rfl | rfl | rfl <;> rfl
  have hgiven : (Datum.tuple []).CanBeGiven := Or.inr ⟨[], rfl⟩
  have henters : Enters pointsForest (some pointsPlayer) 1 (.dict twoAmounts) (.tuple [])
      (Node.callFor _ _ _ _ _) := (enters_iff rfl).mpr ⟨twoAmounts, rfl,
    prepareCall_of_takes hguard hadmits (htakes _ rfl) hwritable hgiven⟩
  obtain ⟨entries, hraw, hvalues, hsame⟩ := values_of_enters pointsForest_reachable rfl henters
  cases hraw
  have hlast : Catalog.IsLast (namedValues twoAmounts) (lowercase amountParameter.name.text)
      (.string "9") := by
    rw [show lowercase amountParameter.name.text = lowercase "AMOUNT" by decide]
    exact ⟨[(lowercase "Amount", .string "7"), (lowercase "note", .null)], [], rfl,
      List.not_mem_nil⟩
  obtain ⟨v, hbind, -, hfound⟩ := hvalues.value amountParameter (List.mem_singleton_self _) _ hlast
  cases hbind
  exact ⟨pointsForest_reachable, _, _, rfl, henters, rfl, hfound "aMount" (by decide), rfl,
    hsame nofun⟩

end CommandTree
