import CommandTree.Fault

/-!
# What data consist of

Where a collection is asked for, a host may hand in anything that has members: a text consists of
its characters, bytes of numbers, entries of their keys, and a value of its type and its payload.
Where entries are asked for, any collection of pairs will do.

* `frozen_frozen`: what has been frozen stays as it is
-/

namespace CommandTree.Datum

/-! ## Members -/

/-- The members of a datum, if it has any. -/
def items? : Datum → Option (List Datum)
  | .list items | .tuple items | .set items => some items
  | .dict entries => some (entries.map Prod.fst)
  | .bytes items => some (items.map fun byte => .integer byte.toNat)
  | .string s => some (s.toList.map fun c => .string (String.singleton c))
  | .value type payload => some [ofType? type, payload]
  | _ => none

/-- The members of a datum that has to have members. -/
def items (d : Datum) : Except Fault (List Datum) :=
  match d.items? with
  | some items => .ok items
  | none => .error (.datum (.notIterable d.kindName))

/-- The datum as a collection that does not change: a list becomes a tuple, and so on. -/
def frozen : Datum → Datum
  | .list items | .tuple items => .tuple items
  | .bytes items => .tuple (items.map fun byte => .integer byte.toNat)
  | .value type payload => .tuple [ofType? type, payload]
  | d => d

theorem frozen_frozen (d : Datum) : d.frozen.frozen = d.frozen := by
  cases d <;> rfl

/-! ## Texts -/

/-- The datum, if it can be shown. -/
def asWritable (d : Datum) : Except Fault Datum :=
  if d.isWritable then .ok d else .error (.datum (.tooManyDigits none))

/-! ## Keys -/

mutual

/-- The kind of the part of the datum that keeps it from being a key, if there is one. -/
def unfit? : Datum → Option String
  | .list _ => some "list"
  | .set _ => some "set"
  | .dict _ => some "dict"
  | .tuple items => unfitMember? items
  | .value _ payload => unfit? payload
  | _ => none

/-- The kind of the first part of the members that keeps them from being keys. -/
def unfitMember? : List Datum → Option String
  | [] => none
  | item :: rest =>
    match unfit? item with
    | some kindName => some kindName
    | none => unfitMember? rest

end

/-- The datum, if it can be a key. -/
def asKey (d : Datum) : Except Fault Datum :=
  match d.unfit? with
  | some kindName => .error (.datum (.unhashable kindName))
  | none => .ok d

@[simp] theorem asKey_string (s : String) : asKey (.string s) = .ok (.string s) := rfl

/-- The members of a datum as a set, which all of them have to be fit for. -/
def asSet (d : Datum) : Except Fault (List Datum) := do
  let members ← (← d.items).mapM asKey
  pure (distinct members)

/-! ## Entries -/

/-- The two members of a pair, which stands at a place of a collection. -/
def asPair (index : Nat) (d : Datum) : Except Fault (Datum × Datum) :=
  match d.items? with
  | none => .error (.datum (.pairNotSequence index))
  | some [key, item] => .ok (key, item)
  | some items => .error (.datum (.pairLength index items.length))

/-- The entries with those that the pairs from a place on make. -/
def withPairs (index : Nat) (kept : List (Datum × Datum)) :
    List Datum → Except Fault (List (Datum × Datum))
  | [] => .ok kept
  | d :: rest => do
    let (key, item) ← asPair index d
    let key ← asKey key
    withPairs (index + 1) (putEntry key item kept) rest

/-- The entries of a datum that has to have entries or to consist of pairs. -/
def entries (d : Datum) : Except Fault (List (Datum × Datum)) :=
  match d with
  | .dict entries => .ok entries
  | d => do withPairs 0 [] (← d.items)

/-- The entries of a datum that has to have entries. -/
def mapping (d : Datum) : Except Fault (List (Datum × Datum)) :=
  match d with
  | .dict entries => .ok entries
  | d => .error (.datum (.notMapping d.kindName))

end CommandTree.Datum
