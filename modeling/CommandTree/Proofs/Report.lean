import CommandTree.Proofs.Catalog
import CommandTree.Report.Declaration

/-!
# Extending reports

A report is extended by an entry under any key but the word for the report itself. The extended
report has the id and the cause of the report it was made from, and its context with the entry laid
over it: the last entry under a key counts, and new keys come last. It is the report that would be
declared with that id and that context. The report itself stays as it is, so it can be extended
again and again, and what comes of it does not depend on what else was made of it.

* `extend_eq_ok_iff`: when a report can be extended, and by what
* `withEntries_extends`: what a report with further entries consists of
* `declare_again`: it is what its id and its context are declared as
* `served_eq_map`: reports that are made of one another, each along its own branch
* `extended_iff`: what comes of extending a report, once and in a chain
-/

namespace CommandTree.Report

/-! ## One entry -/

theorem extend_receiver (r : Report) (item : Datum) :
    r.extend (.string receiverWord) item = .error (.use .reportReceiverRepeated) := by
  simp [extend, replace]

theorem extend_eq_ok_iff {r s : Report} {key : String} {item : Datum} :
    r.extend (.string key) item = .ok s ↔ key ≠ receiverWord ∧ s = r.withEntry key item := by
  by_cases h : key = receiverWord
  · subst h
    rw [extend_receiver]
    exact iff_of_false nofun fun hne => hne.1 rfl
  · rw [extend_string r h, Except.ok.injEq]
    exact ⟨fun hs => ⟨h, hs.symm⟩, fun hs => hs.2.symm⟩

theorem withEntry_keys (r : Report) (key : String) (item : Datum) :
    (r.withEntry key item).context.keys
      = if key ∈ r.context.keys then r.context.keys else r.context.keys ++ [key] :=
  Catalog.keys_put ..

/-! ## Chains of entries -/

/-- Whether a report is another one whose context has entries laid over it, one after the other. -/
structure Extends (s r : Report) (entries : List (String × Datum)) : Prop where
  id : s.id = r.id
  cause : s.cause = r.cause
  context : s.context.Keeps (r.context.entries ++ entries)

theorem withEntries_concat (r : Report) (entries : List (String × Datum))
    (entry : String × Datum) :
    r.withEntries (entries ++ [entry]) = (r.withEntries entries).withEntry entry.1 entry.2 := by
  rw [withEntries, List.foldl_append]
  rfl

theorem context_withEntries (r : Report) (entries : List (String × Datum)) :
    (r.withEntries entries).context = Catalog.ofList (r.context.entries ++ entries) := by
  induction entries using List.reverseRecOn with
  | nil => rw [List.append_nil, Catalog.ofList_entries, withEntries, List.foldl_nil]
  | append_singleton entries entry ih =>
    rw [withEntries_concat, withEntry, ih, ← List.append_assoc, Catalog.ofList_concat]

theorem withEntries_extends (r : Report) (entries : List (String × Datum)) :
    (r.withEntries entries).Extends r entries := by
  induction entries using List.reverseRecOn with
  | nil =>
    refine ⟨rfl, rfl, ?_⟩
    rw [context_withEntries]
    exact Catalog.keeps_ofList _
  | append_singleton entries entry ih =>
    refine ⟨?_, ?_, ?_⟩
    · rw [withEntries_concat, withEntry_id, ih.id]
    · rw [withEntries_concat, withEntry_cause, ih.cause]
    · rw [context_withEntries]
      exact Catalog.keeps_ofList _

/-- A report with further entries is what its id and the entries are declared as, but for the
cause. -/
theorem declare_again {r : Report} (h : Text.trimmed r.id = r.id) (hid : r.id ≠ "")
    (entries : List (String × Datum)) :
    declare (.string r.id) (r.context.entries ++ entries)
      = .ok { r.withEntries entries with cause := none } := by
  have hext := withEntries_extends r entries
  rw [declare, h, if_neg (by simpa using hid), ← context_withEntries, ← hext.id]

/-- The report that is extended by entries, one after the other. -/
def extendAll (r : Report) (entries : List (String × Datum)) : Except Fault Report :=
  entries.foldlM (fun r entry => r.extend (.string entry.1) entry.2) r

/-- A chain is refused where it comes to the word for the report itself, and nowhere else. -/
theorem extendAll_eq (r : Report) (entries : List (String × Datum)) :
    r.extendAll entries
      = if receiverWord ∈ entries.map Prod.fst then .error (.use .reportReceiverRepeated)
        else .ok (r.withEntries entries) := by
  induction entries generalizing r with
  | nil => rfl
  | cons entry rest ih =>
    rw [extendAll, List.foldlM_cons]
    by_cases hkey : entry.1 = receiverWord
    · rw [hkey, extend_receiver, List.map_cons, hkey, if_pos (List.mem_cons_self ..)]
      rfl
    · have hmem :
          receiverWord ∈ (entry :: rest).map Prod.fst ↔ receiverWord ∈ rest.map Prod.fst := by
        rw [List.map_cons, List.mem_cons]
        exact or_iff_right (Ne.symm hkey)
      rw [extend_string r hkey, if_congr hmem rfl rfl]
      exact ih (r.withEntry entry.1 entry.2)

/-! ## Reports that are made of one another -/

/-- A request to extend the report at a place by an entry. -/
structure Request where
  place : Nat
  key : String
  item : Datum

/-- The reports that there are after a request: what a report is extended to comes last. A request
that is refused, or that is about no report, changes nothing. -/
def serve (reports : List Report) (q : Request) : List Report :=
  match reports[q.place]? with
  | none => reports
  | some r =>
    match r.extend (.string q.key) q.item with
    | .ok s => reports ++ [s]
    | .error _ => reports

/-- The reports that there are after requests, when there is one at first. -/
def served (r : Report) (requests : List Request) : List Report := requests.foldl serve [r]

/-- The entries along the branches of the reports, after a request. -/
def branchOut (branches : List (List (String × Datum))) (q : Request) :
    List (List (String × Datum)) :=
  match branches[q.place]? with
  | none => branches
  | some branch =>
    if q.key = receiverWord then branches else branches ++ [branch ++ [(q.key, q.item)]]

/-- The entries along the branch of each report, in order, after requests. -/
def branches (requests : List Request) : List (List (String × Datum)) :=
  requests.foldl branchOut [[]]

/-- A request keeps each report on its branch. -/
theorem serve_map (r : Report) (bs : List (List (String × Datum))) (q : Request) :
    serve (bs.map r.withEntries) q = (branchOut bs q).map r.withEntries := by
  unfold serve branchOut
  rw [List.getElem?_map]
  cases bs[q.place]? with
  | none => rfl
  | some branch =>
    simp only [Option.map_some]
    by_cases hkey : q.key = receiverWord
    · rw [hkey, extend_receiver, if_pos rfl]
    · rw [extend_string _ hkey, if_neg hkey, List.map_append, List.map_singleton,
        withEntries_concat]

/-- **After any requests, each report is the first one with the entries along its own branch.** -/
theorem served_eq_map (r : Report) (requests : List Request) :
    served r requests = (branches requests).map r.withEntries := by
  have hrun : ∀ bs : List (List (String × Datum)),
      requests.foldl serve (bs.map r.withEntries)
        = (requests.foldl branchOut bs).map r.withEntries := by
    induction requests with
    | nil => exact fun _ => rfl
    | cons q requests ih =>
      intro bs
      rw [List.foldl_cons, List.foldl_cons, serve_map, ih]
  exact hrun [[]]

theorem head?_branches (requests : List Request) : (branches requests)[0]? = some [] := by
  have hrun : ∀ bs : List (List (String × Datum)), bs[0]? = some [] →
      (requests.foldl branchOut bs)[0]? = some [] := by
    induction requests with
    | nil => exact fun _ h => h
    | cons q requests ih =>
      intro bs hbs
      refine ih _ ?_
      have happend (more : List (List (String × Datum))) : (bs ++ more)[0]? = some [] := by
        rw [List.getElem?_append_left (List.getElem?_eq_some_iff.mp hbs).1, hbs]
      unfold branchOut
      split
      · exact hbs
      · split
        · exact hbs
        · exact happend _
  exact hrun [[]] rfl

/-! ## What comes of extending a report -/

/--
**Extending a report.** A report is extended by an entry, to one of its id and its cause with the
entry laid over its context, exactly if the key is not the word for the report itself; otherwise
this is refused. So a chain of entries succeeds exactly if none of them has that key, and leads to
what would be declared with the id and all entries, the last under each key counting. Whatever else
is made of a report, it stays as it is, and each report holds what is along its own branch.
-/
theorem extended_iff (r : Report) :
    (∀ key item, (∃ s, r.extend (.string key) item = .ok s ∧ s.id = r.id ∧ s.cause = r.cause ∧
        (∀ other, s.context.get? other = if other = key then some item else r.context.get? other) ∧
        s.context.keys
          = if key ∈ r.context.keys then r.context.keys else r.context.keys ++ [key]) ↔
      key ≠ receiverWord) ∧
    (∀ item, r.extend (.string receiverWord) item = .error (.use .reportReceiverRepeated)) ∧
    (∀ entries, (∃ s, r.extendAll entries = .ok s ∧ s.Extends r entries) ↔
      receiverWord ∉ entries.map Prod.fst) ∧
    (∀ entries s, r.extendAll entries = .ok s → Text.trimmed r.id = r.id → r.id ≠ "" →
      declare (.string r.id) (r.context.entries ++ entries) = .ok { s with cause := none }) ∧
    ∀ requests, (served r requests)[0]? = some r ∧
      ∀ (place : Nat) (s : Report), (served r requests)[place]? = some s →
        ∃ branch, (branches requests)[place]? = some branch ∧ s.Extends r branch := by
  refine ⟨?_, extend_receiver r, ?_, ?_, ?_⟩
  · intro key item
    constructor
    · rintro ⟨s, hs, -⟩
      exact (extend_eq_ok_iff.mp hs).1
    · intro hkey
      exact ⟨_, extend_string r hkey item, rfl, rfl, withEntry_get? r key item,
        withEntry_keys r key item⟩
  · intro entries
    rw [extendAll_eq]
    constructor
    · rintro ⟨s, hs, -⟩ hmem
      rw [if_pos hmem] at hs
      cases hs
    · intro hnot
      exact ⟨_, if_neg hnot, withEntries_extends r entries⟩
  · intro entries s hs htrimmed hid
    rw [extendAll_eq] at hs
    split at hs
    · cases hs
    · cases hs
      exact declare_again htrimmed hid entries
  · intro requests
    rw [served_eq_map]
    constructor
    · rw [List.getElem?_map, head?_branches]
      rfl
    · intro place s hs
      rw [List.getElem?_map, Option.map_eq_some_iff] at hs
      obtain ⟨branch, hbranch, rfl⟩ := hs
      exact ⟨branch, hbranch, withEntries_extends r branch⟩

/-- An amount that is given once more stays in its place, before what is new. -/
theorem extended_iff_amount :
    receiverWord ∉ [("missing", Datum.integer 5), ("amount", .integer 2)].map Prod.fst ∧
      ∃ s, (⟨"points.not-enough", .ofList [("amount", .integer 1)], none⟩ : Report).extendAll
          [("missing", .integer 5), ("amount", .integer 2)] = .ok s ∧
        s.context.keys = ["amount", "missing"] ∧
        s.context.get? "amount" = some (.integer 2) := by
  have hkeys : receiverWord ∉ [("missing", Datum.integer 5), ("amount", .integer 2)].map Prod.fst :=
    by decide
  obtain ⟨-, -, hchain, -⟩ :=
    extended_iff ⟨"points.not-enough", .ofList [("amount", .integer 1)], none⟩
  obtain ⟨s, hs, -, -, hcontext⟩ := (hchain _).mpr hkeys
  refine ⟨hkeys, s, hs, hcontext.keys.trans (by decide), (hcontext.get?_iff _ _).mpr ?_⟩
  exact ⟨[("amount", .integer 1), ("missing", .integer 5)], [], rfl, List.not_mem_nil⟩

/-- A report cannot be extended by an entry under the word for itself, though it may be declared
with one. -/
theorem self_entry_is_refused :
    (∃ r, declare (.string "points.not-enough") [("self", .integer 5)] = .ok r ∧
        r.context.get? "self" = some (.integer 5)) ∧
      ∀ s, (⟨"points.not-enough", .empty, none⟩ : Report).extend (.string "self") (.integer 5)
        ≠ .ok s := by
  refine ⟨⟨⟨"points.not-enough", .ofList [("self", .integer 5)], none⟩, by rfl, rfl⟩, ?_⟩
  intro s hs
  exact (extend_eq_ok_iff.mp hs).1 rfl

end CommandTree.Report
