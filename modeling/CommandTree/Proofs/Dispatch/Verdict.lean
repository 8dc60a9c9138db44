import CommandTree.Proofs.Host.Execution

/-!
# Which calls come to a verdict

Before anything else is done about a call, its raw values are made into entries. Raw values that do
not make entries end the call in a fault, and nothing is run, told or logged. All that can go wrong
after that is settled, so any other call ends in a verdict, whoever the sender is, whatever the node
and the handler do, and whatever is given as arguments.

* `Datum.withPairs_cases`, `Datum.entries_cases`: what is made into entries, and what is not
* `dispatch_verdict_iff`: so which calls end in a verdict
* `dispatch_without_verdict`: there are calls that do not
-/

namespace CommandTree

namespace Datum

/-! ## Making entries -/

/-- Whether a datum has two members, of which the first can be a key. -/
def IsPair (d : Datum) : Prop := ∃ key item, d.items? = some [key, item] ∧ key.unfit? = none

/-- Whether raw values make entries: none are given, or they have entries, or they consist of
pairs. -/
def MakesEntries (raw : Datum) : Prop :=
  raw = .unset ∨ (∃ entries, raw = .dict entries) ∨
    ∃ items, raw.items? = some items ∧ ∀ item ∈ items, item.IsPair

theorem withPairs_cons_of_isPair {d : Datum} (h : d.IsPair) (index : Nat)
    (kept : List (Datum × Datum)) (rest : List Datum) :
    ∃ kept', withPairs index kept (d :: rest) = withPairs (index + 1) kept' rest := by
  obtain ⟨key, item, hitems, hkey⟩ := h
  refine ⟨putEntry key item kept, ?_⟩
  rw [withPairs, asPair, hitems]
  simp only [bind, Except.bind, asKey, hkey]

/-- What is no pair ends the making of entries in a fault of data. -/
theorem withPairs_cons_of_not_isPair {d : Datum} (h : ¬ d.IsPair) (index : Nat)
    (kept : List (Datum × Datum)) (rest : List Datum) :
    ∃ fault, withPairs index kept (d :: rest) = .error (.datum fault) := by
  rw [withPairs, asPair]
  match hitems : d.items? with
  | none => exact ⟨_, rfl⟩
  | some [] => exact ⟨_, rfl⟩
  | some [_] => exact ⟨_, rfl⟩
  | some [key, item] =>
    cases hkey : key.unfit? with
    | none => exact absurd ⟨key, item, hitems, hkey⟩ h
    | some kindName =>
      refine ⟨.unhashable kindName, ?_⟩
      simp only [bind, Except.bind, asKey, hkey]
  | some (_ :: _ :: _ :: _) => exact ⟨_, rfl⟩

/-- A collection is made into entries if it consists of pairs, and in no other case. -/
theorem withPairs_cases (index : Nat) (kept : List (Datum × Datum)) (items : List Datum) :
    (∀ item ∈ items, item.IsPair) ∧ (∃ entries, withPairs index kept items = .ok entries) ∨
      (¬ ∀ item ∈ items, item.IsPair) ∧
        ∃ fault, withPairs index kept items = .error (.datum fault) := by
  induction items generalizing index kept with
  | nil => exact Or.inl ⟨by simp, kept, rfl⟩
  | cons d rest ih =>
    by_cases hd : d.IsPair
    · obtain ⟨kept', hcons⟩ := withPairs_cons_of_isPair hd index kept rest
      rw [hcons, List.forall_mem_cons]
      simpa only [hd, true_and] using ih (index + 1) kept'
    · exact Or.inr ⟨fun hall => hd (hall d (List.mem_cons_self ..)),
        withPairs_cons_of_not_isPair hd index kept rest⟩

/-- Raw values have entries if they make some, and else there is a fault of data. -/
theorem entries_cases (raw : Datum) :
    raw.MakesEntries ∧ (∃ entries, (raw.orElse (.dict [])).entries = .ok entries) ∨
      ¬ raw.MakesEntries ∧ ∃ fault, (raw.orElse (.dict [])).entries = .error (.datum fault) := by
  by_cases hunset : raw = .unset
  · exact Or.inl ⟨Or.inl hunset, [], by rw [hunset]; rfl⟩
  by_cases hdict : ∃ entries, raw = .dict entries
  · obtain ⟨entries, rfl⟩ := hdict
    exact Or.inl ⟨Or.inr (Or.inl ⟨entries, rfl⟩), entries, rfl⟩
  have hmakes : raw.MakesEntries ↔
      ∃ items, raw.items? = some items ∧ ∀ item ∈ items, item.IsPair := by
    rw [MakesEntries, or_iff_right hunset, or_iff_right hdict]
  have hentries : raw.entries = raw.items.bind (withPairs 0 []) := by
    cases raw <;> first | rfl | exact absurd ⟨_, rfl⟩ hdict
  rw [orElse_of_ne hunset, hentries, hmakes, items]
  cases hitems : raw.items? with
  | none => exact Or.inr ⟨by simp, _, rfl⟩
  | some items =>
    simp only [Option.some.injEq, exists_eq_left']
    exact withPairs_cases 0 [] items

end Datum

/-! ## Verdicts -/

/--
**Calls come to a verdict exactly if their raw values make entries.** This is so for any sender,
handler and arguments, and for any node, whatever it does when it is run. Raw values that do not
make entries end the call in a fault of data, and nothing else happens.
-/
theorem dispatch_verdict_iff {f : Forest} {target : NodeId} {n : Node}
    (hn : f.node? target = some n) (handler : Option Handler) (sender : Option Sender)
    (raw given : Datum) :
    let outcome := dispatch f handler sender target raw given
    ((∃ verdict, outcome.result = .ok verdict) ↔ raw.MakesEntries) ∧
      (¬ raw.MakesEntries → ∃ fault, outcome = .fail (.datum fault)) := by
  rcases raw.entries_cases with ⟨hmakes, entries, hentries⟩ | ⟨hmakes, fault, hentries⟩
  · rw [dispatch_eq hn hentries]
    exact ⟨iff_of_true ⟨_, conclude_result ..⟩ hmakes, fun hno => absurd hmakes hno⟩
  · have hfail : dispatch f handler sender target raw given = .fail (.datum fault) := by
      rw [dispatch, Forest.nodeAt_eq_ok_iff.mpr hn, hentries]
    rw [hfail]
    refine ⟨iff_of_false ?_ hmakes, fun _ => ⟨fault, rfl⟩⟩
    rintro ⟨verdict, h⟩
    cases h

/-- Arguments that have no members are settled as any other fault is, raw values that have none are
not. -/
theorem dispatch_verdict_points :
    (∃ n, pointsForest.node? 1 = some n) ∧
      (∃ verdict, (dispatch pointsForest none (some pointsPlayer) 1
        (.tuple [.list [.string "amount", .integer 7]]) (.integer 5)).result = .ok verdict) ∧
      ∃ fault, dispatch pointsForest none (some pointsPlayer) 1 .null .unset
        = .fail (.datum fault) := by
  have hn : pointsForest.node? 1 = some _ := rfl
  obtain ⟨hiff, -⟩ := dispatch_verdict_iff hn none (some pointsPlayer)
    (.tuple [.list [.string "amount", .integer 7]]) (.integer 5)
  obtain ⟨-, hfail⟩ := dispatch_verdict_iff hn none (some pointsPlayer) .null .unset
  refine ⟨⟨_, hn⟩, hiff.mpr (Or.inr (Or.inr ⟨_, rfl, ?_⟩)), hfail ?_⟩
  · rintro item hmem
    rw [List.mem_singleton.mp hmem]
    exact ⟨_, _, rfl, rfl⟩
  · rintro (h | ⟨entries, h⟩ | ⟨items, h, -⟩) <;> cases h

/-- A pair that cannot be an entry, as its first member cannot be a key, keeps a call from coming to
a verdict. -/
theorem dispatch_without_verdict :
    dispatch pointsForest none (some pointsPlayer) 1 (.list [.tuple [.list [], .string "x"]]) .unset
        = .fail (.datum (.unhashable "list")) ∧
      ∀ verdict, (dispatch pointsForest none (some pointsPlayer) 1
        (.list [.tuple [.list [], .string "x"]]) .unset).result ≠ .ok verdict := by
  have hfail : dispatch pointsForest none (some pointsPlayer) 1
      (.list [.tuple [.list [], .string "x"]]) .unset = .fail (.datum (.unhashable "list")) := rfl
  refine ⟨hfail, fun verdict h => ?_⟩
  rw [hfail] at h
  cases h

end CommandTree
