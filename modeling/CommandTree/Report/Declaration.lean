import CommandTree.Fault

/-!
# Declaring reports

A report is declared with an id, which is trimmed and must not be empty then, and with entries for
its context. Extending a report checks the key of the entry only.

* `declare_trimmed`: the id of a report is trimmed and not empty
* `extend_string`: a report can be extended under every key but the one for the report itself
-/

namespace CommandTree.Report

open Text

/-- The word under which the report itself is handed to its operations. -/
def receiverWord : String := "self"

/-- The report of an id and a context. -/
def declare (id : Datum) (context : List (String × Datum)) : Except Fault Report :=
  match id with
  | .string s =>
    if (trimmed s).isEmpty then .error (.use .reportIdEmpty)
    else .ok ⟨trimmed s, Catalog.ofList context, none⟩
  | _ => .error (.use .reportIdNotText)

/-- The report with entries put into its context. Only entries with keys can be put there; `unnamed`
tells whether others were given. -/
def replace (r : Report) (unnamed : Bool) (entries : List (String × Datum)) : Except Fault Report :=
  if entries.any fun entry => entry.1 = receiverWord then .error (.use .reportReceiverRepeated)
  else if unnamed then .error (.use .reportPositional)
  else .ok (r.withEntries entries)

/-- The report with an entry put into its context. -/
def extend (r : Report) (key item : Datum) : Except Fault Report :=
  match key with
  | .string key => r.replace false [(key, item)]
  | _ => .error (.use .reportKeyNotText)

theorem declare_trimmed {id : Datum} {context : List (String × Datum)} {r : Report}
    (h : declare id context = .ok r) : trimmed r.id = r.id ∧ r.id ≠ "" := by
  unfold declare at h
  split at h
  · next s =>
    split at h
    · cases h
    · next hne =>
      cases h
      constructor
      · simp only [trimmed, String.toList_ofList, trim_trim]
      · intro heq
        exact hne (by simpa using heq)
  · cases h

theorem extend_string (r : Report) {key : String} (h : key ≠ receiverWord) (item : Datum) :
    r.extend (.string key) item = .ok (r.withEntry key item) := by
  simp [extend, replace, h, withEntries]

end CommandTree.Report
