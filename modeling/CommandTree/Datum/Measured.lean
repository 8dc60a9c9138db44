import CommandTree.Datum.Items

/-!
# Data as numbers and as sequences

A host may hand in anything where a limit, a length or a position is asked for. Nothing is wrong
with that until the datum is compared with a number, counted, or cut: then it has to be a number, or
something that has a length and an order.

* `comparedWith_ofNumber`: a number can be compared
* `size_string`, `cut_string`: a text is counted and cut by its characters
-/

namespace CommandTree

/-- The whole part of a number. -/
def Number.whole : Number → Except DatumFault Int
  | .integer n => .ok n
  | .double .nan => .error .nanAsInteger
  | .double (.infinite _) => .error .infinityAsInteger
  | .double (.finite negative pattern) => .ok (Double.truncated negative pattern)

namespace Datum

/-- The number that the datum is in a comparison with another number, which stands on the left of
the given relation. -/
def comparedWith (d : Datum) (relation : String) (found : Number) : Except DatumFault Number :=
  match d.asNumber? with
  | some n => .ok n
  | none => .error (.incomparable relation (ofNumber found).kindName d.kindName)

@[simp] theorem comparedWith_ofNumber (n : Number) (relation : String) (found : Number) :
    (ofNumber n).comparedWith relation found = .ok n := by
  cases n <;> rfl

@[simp] theorem comparedWith_integer (n : Int) (relation : String) (found : Number) :
    (integer n).comparedWith relation found = .ok (.integer n) := rfl

/-- The number of members of a datum that has to have members. -/
def size (d : Datum) : Except DatumFault Nat :=
  match d.items? with
  | some items => .ok items.length
  | none => .error (.noSize d.kindName)

@[simp] theorem size_string (s : String) : size (.string s) = .ok s.toList.length := by
  simp [size, items?]

/-- The stretch of a datum between two positions; the second may be any number, but only an integer
is a position. -/
def cut (d : Datum) (start : Int) (stop : Number) : Except DatumFault Datum := do
  let within {α : Type} (make : List α → Datum) (items : List α) : Except DatumFault Datum :=
    match stop with
    | .integer stop => .ok (make (stretch items start stop))
    | .double _ => .error .placeNotInteger
  match d with
  | .string s => within (fun cs => .string (String.ofList cs)) s.toList
  | .bytes items => within .bytes items
  | .list items => within .list items
  | .tuple items => within .tuple items
  | .value type payload => within .tuple [ofType? type, payload]
  | .dict _ => .error (.unhashable "slice")
  | d => .error (.notSubscriptable d.kindName)

@[simp] theorem cut_string (s : String) (start stop : Int) :
    cut (.string s) start (.integer stop)
      = .ok (.string (String.ofList (stretch s.toList start stop))) := rfl

end Datum

end CommandTree
