import CommandTree.Decimal.Order
import CommandTree.Vocabulary

/-!
# Data of the host

A host hands names, limits, raw values and message contexts to the library, and each of them may be
anything that a host knows. A `Datum` is such a thing: the library looks at its kind, refuses what
it cannot use, and hands everything else back unchanged.

* `same_integer`, `same_string`: on integers and on texts, sameness is equality
* `orElse_of_ne`: a default stands in for nothing that was provided
-/

namespace CommandTree

/-- Anything that a host may hand to the library. -/
inductive Datum where
  /-- Not provided. -/
  | unset
  /-- Provided, but nothing. -/
  | null
  | boolean (b : Bool)
  | integer (n : Int)
  | double (x : Double)
  | string (s : String)
  | list (items : List Datum)
  | tuple (items : List Datum)
  | set (items : List Datum)
  | dict (entries : List (Datum × Datum))
  | bytes (items : List UInt8)
  | valueType (t : ValueType)
  | audience (a : Audience)
  | senderKind (k : SenderKind)
  /-- A value: its type, unless it is absent, and what it carries. -/
  | value (type : Option ValueType) (payload : Datum)
  /-- A function, by its name. -/
  | function (name : String)
  /-- A function of the host itself, whose name cannot be changed. -/
  | builtin (name : String)
  /-- Anything else. -/
  | object

namespace Datum

instance : Inhabited Datum := ⟨unset⟩

/-- The datum, or a default where none was provided. -/
def orElse (d default : Datum) : Datum :=
  match d with
  | .unset => default
  | d => d

/-- Whether the datum was provided. -/
def isGiven : Datum → Bool
  | .unset => false
  | _ => true

theorem orElse_of_ne {d : Datum} (h : d ≠ .unset) (default : Datum) : orElse d default = d := by
  cases d <;> first | rfl | exact absurd rfl h

/-- The text, if the datum is one. -/
def string? : Datum → Option String
  | .string s => some s
  | _ => none

/-- The number, if the datum is one. A truth value is none. -/
def number? : Datum → Option Number
  | .integer n => some (.integer n)
  | .double x => some (.double x)
  | _ => none

/-- The datum of a number. -/
def ofNumber : Number → Datum
  | .integer n => .integer n
  | .double x => .double x

/-- Whether the datum can be called. -/
def isCallable : Datum → Bool
  | .function _ | .builtin _ => true
  | _ => false

/-- The name of the kind that the datum is of, as messages show it. -/
def kindName : Datum → String
  | .unset => "UnsetType"
  | .null => "NoneType"
  | .boolean _ => "bool"
  | .integer _ => "int"
  | .double _ => "float"
  | .string _ => "str"
  | .list _ => "list"
  | .tuple _ => "tuple"
  | .set _ => "set"
  | .dict _ => "dict"
  | .bytes _ => "bytes"
  | .valueType _ => "ArgType"
  | .audience _ => "ExecutorType"
  | .senderKind _ => "SenderKind"
  | .value _ _ => "Value"
  | .function _ => "function"
  | .builtin _ => "builtin_function_or_method"
  | .object => "Opaque"

/-- Whether the datum counts as true: nothing, zero and whatever is empty does not. -/
def isTrue : Datum → Bool
  | .unset | .null => false
  | .boolean b => b
  | .integer n => n != 0
  | .double x => !x.isZero
  | .string s => !s.isEmpty
  | .list items | .tuple items | .set items => !items.isEmpty
  | .dict entries => !entries.isEmpty
  | .bytes items => !items.isEmpty
  | _ => true

/-! ## Sameness -/

/-- The number that the datum counts as in a comparison; truth values count as one and zero. -/
def asNumber? : Datum → Option Number
  | .boolean b => some (.integer (if b then 1 else 0))
  | .integer n => some (.integer n)
  | .double x => some (.double x)
  | _ => none

/-- The type of a value as the first of the two things that a value consists of. -/
def ofType? : Option ValueType → Datum
  | none => .null
  | some t => .valueType t

mutual

/-- Whether two data are the same to a host: numbers of any kind by their place, texts by their
characters, collections by their members. -/
def same : Datum → Datum → Bool
  | .unset, .unset => true
  | .null, .null => true
  | .string s, .string t => s == t
  | .list xs, .list ys => sameItems xs ys
  | .tuple xs, .tuple ys => sameItems xs ys
  | .tuple xs, .value type payload => sameItems xs [ofType? type, payload]
  | .value type payload, .tuple ys =>
    match ys with
    | [t, p] => sameType type t && same payload p
    | _ => false
  | .value type payload, .value type' payload' => type == type' && same payload payload'
  | .set xs, .set ys => xs.length == ys.length && allIn xs ys
  | .dict xs, .dict ys => xs.length == ys.length && allEntriesIn xs ys
  | .bytes xs, .bytes ys => xs == ys
  | .valueType t, .valueType t' => t == t'
  | .audience a, .audience a' => a == a'
  | .senderKind k, .senderKind k' => k == k'
  | .builtin f, .builtin g => f == g
  | x, y =>
    match x.asNumber?, y.asNumber? with
    | some m, some n => m.eqv n
    | _, _ => false

/-- Whether two lists hold the same data in the same order. -/
def sameItems : List Datum → List Datum → Bool
  | [], [] => true
  | x :: xs, y :: ys => same x y && sameItems xs ys
  | _, _ => false

/-- Whether every member of the first list is in the second. -/
def allIn : List Datum → List Datum → Bool
  | [], _ => true
  | x :: xs, ys => ys.any (same x ·) && allIn xs ys

/-- Whether every entry of the first list is in the second. -/
def allEntriesIn : List (Datum × Datum) → List (Datum × Datum) → Bool
  | [], _ => true
  | (k, v) :: xs, ys => ys.any (fun entry => same k entry.1 && same v entry.2) && allEntriesIn xs ys

/-- Whether the datum is the type of a value. -/
def sameType : Option ValueType → Datum → Bool
  | none, .null => true
  | some t, .valueType t' => t == t'
  | _, _ => false

end

/-- Whether a list of data holds a datum. -/
def memberOf (d : Datum) (items : List Datum) : Bool := items.any (same d ·)

/-- The list without the data that it held before. -/
def distinct (items : List Datum) : List Datum :=
  items.foldl (fun kept d => if memberOf d kept then kept else kept ++ [d]) []

theorem same_string (s t : String) : same (.string s) (.string t) = (s == t) := by
  simp [same]

theorem same_integer (m n : Int) : same (.integer m) (.integer n) = decide (m = n) := by
  simp only [same, asNumber?, Number.eqv, Number.le_integer]
  by_cases h : m = n
  · subst h; simp
  · by_cases h' : m ≤ n
    · have : ¬ n ≤ m := by omega
      simp [h, this]
    · simp [h, h']

/-! ## Entries -/

/-- The entries with one put under a key: replaced where the key is in use, else at the end. -/
def putEntry (key item : Datum) : List (Datum × Datum) → List (Datum × Datum)
  | [] => [(key, item)]
  | entry :: rest =>
    if same entry.1 key then (entry.1, item) :: rest else entry :: putEntry key item rest

/-- What stands under a text among entries. -/
def lookup (entries : List (Datum × Datum)) (key : String) : Option Datum :=
  (entries.find? fun entry => entry.1.string? == some key).map Prod.snd

end Datum

end CommandTree
