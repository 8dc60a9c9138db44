import CommandTree.Datum.Shown

/-!
# Members of data

Some data have members that a gap of a message can name: the parts of a number, the name and the
word of a choice, the type and the payload of a value. Here are the members that are data in turn.
-/

namespace CommandTree.Message

/-! ## Choices -/

/-- A choice of a closed set: its name in capitals, its word, and the choice itself. -/
structure Choice where
  capitals : String
  word : String
  datum : Datum

/-- A closed set of choices. -/
structure ChoiceSet where
  name : String
  choices : List Choice

/-- The set that a datum is a choice of. -/
def setOf? : Datum → Option ChoiceSet
  | .valueType _ =>
    some ⟨"ArgType", ValueType.all.map fun t => ⟨t.capitals, t.word, .valueType t⟩⟩
  | .audience _ =>
    some ⟨"ExecutorType", Audience.all.map fun a => ⟨a.capitals, a.word, .audience a⟩⟩
  | .senderKind _ =>
    some ⟨"SenderKind", SenderKind.all.map fun k => ⟨k.capitals, k.word, .senderKind k⟩⟩
  | _ => none

/-- The set of a name; there is a set that all sets are made after, and it has no choices. -/
def setNamed? (name : String) : Option ChoiceSet :=
  match name with
  | "ArgType" => setOf? (.valueType .string)
  | "ExecutorType" => setOf? (.audience .anyone)
  | "SenderKind" => setOf? (.senderKind .other)
  | "Enum" => some ⟨name, []⟩
  | _ => none

namespace ChoiceSet

/-- The choice of a name in capitals. -/
def find? (set : ChoiceSet) (capitals : String) : Option Datum :=
  (set.choices.find? (·.capitals == capitals)).map Choice.datum

/-- A member that all choices of a set have in common with the set. -/
def member? (set : ChoiceSet) (name : String) : Option Datum :=
  let entries (key : Choice → String) : Datum :=
    .dict (set.choices.map fun c => (.string (key c), c.datum))
  match name with
  | "_member_names_" => some (.list (set.choices.map fun c => .string c.capitals))
  | "_member_map_" => some (entries Choice.capitals)
  | "_value2member_map_" => some (entries Choice.word)
  | "_unhashable_values_" => some (.list [])
  | "_unhashable_values_map_" => some (.dict [])
  | "_hashable_values_" => some (.list (set.choices.map fun c => .string c.word))
  | "_use_args_" => some (.boolean false)
  | "_value_repr_" => some .null
  | name => set.find? name

end ChoiceSet

/-- The name in capitals of a choice. -/
def capitals? : Datum → Option String
  | .valueType t => some t.capitals
  | .audience a => some a.capitals
  | .senderKind k => some k.capitals
  | _ => none

/-- A member of a choice. -/
def choiceMember? (d : Datum) (name : String) : Option Datum := do
  let set ← setOf? d
  let capitals ← capitals? d
  let index ← set.choices.findIdx? (·.capitals == capitals)
  let choice ← set.choices[index]?
  match name with
  | "name" | "_name_" => some (.string choice.capitals)
  | "value" | "_value_" => some (.string choice.word)
  | "_sort_order_" => some (.integer index)
  | name => set.member? name

/-! ## Members -/

/-- A member of a datum that is a datum. -/
def member? (d : Datum) (name : String) : Option Datum :=
  match d, name with
  | .boolean b, "real" | .boolean b, "numerator" => some (.integer (if b then 1 else 0))
  | .integer n, "real" | .integer n, "numerator" => some (.integer n)
  | .boolean _, "imag" | .integer _, "imag" => some (.integer 0)
  | .boolean _, "denominator" | .integer _, "denominator" => some (.integer 1)
  | .double x, "real" => some (.double x)
  | .double _, "imag" => some (.double Double.zero)
  | .valueType t, "numeric" => some (.boolean t.isNumeric)
  | .valueType t, "bounds" =>
    some (match t.range? with
      | some (least, greatest) => .tuple [.ofNumber least, .ofNumber greatest]
      | none => .null)
  | .value type _, "type" => some (Datum.ofType? type)
  | .value _ payload, "payload" => some payload
  | .value type _, "present" => some (.boolean type.isSome)
  | .value _ _, "_fields" | .value _ _, "__match_args__" =>
    some (.tuple [.string "type", .string "payload"])
  | .value _ _, "_field_defaults" => some (.dict [])
  | .value _ _, "__slots__" => some (.tuple [])
  | .function f, "__name__" | .function f, "__qualname__" | .builtin f, "__name__"
  | .builtin f, "__qualname__" => some (.string f)
  | .function _, "__defaults__" | .function _, "__kwdefaults__" | .function _, "__closure__"
  | .list _, "__hash__" | .set _, "__hash__" | .dict _, "__hash__" | .object, "__weakref__"
  | .unset, "__weakref__" | .valueType _, "__weakref__" | .audience _, "__weakref__"
  | .senderKind _, "__weakref__" => some .null
  | .function _, "__dict__" | .function _, "__annotations__" | .object, "__dict__"
  | .unset, "__dict__" => some (.dict [])
  | .unset, "__final__" => some (.boolean true)
  | d, name => choiceMember? d name

end CommandTree.Message
