import CommandTree.Datum.Items
import CommandTree.Decimal.Spoken

/-!
# Values

A value is what a raw argument is bound to: a type and a payload, or the absence of both. It can be
read as a number, a text or a truth value; a reading that does not fit the type gives nothing.

Nothing is checked when a value is made, so a payload need not be of the kind that its type says.

* `narrowed_mod`, `narrowed_mem`: an integer is narrowed to the integer of the range that has the
  same remainder
-/

namespace CommandTree

/-- A type and a payload; a value without a type is absent. -/
structure Value where
  type : Option ValueType
  payload : Datum

/-- The integer between two limits that differs from the given one by a multiple of their span. -/
def narrowed (lower upper n : Int) : Int := (n - lower) % (upper - lower + 1) + lower

theorem narrowed_mem {lower upper : Int} (h : lower ≤ upper) (n : Int) :
    lower ≤ narrowed lower upper n ∧ narrowed lower upper n ≤ upper := by
  have h0 := Int.emod_nonneg (n - lower) (b := upper - lower + 1) (by omega)
  have h1 := Int.emod_lt_of_pos (n - lower) (b := upper - lower + 1) (by omega)
  unfold narrowed
  omega

theorem narrowed_mod (lower upper n : Int) :
    narrowed lower upper n % (upper - lower + 1) = n % (upper - lower + 1) := by
  rw [narrowed, Int.emod_add_emod, Int.sub_add_cancel]

namespace Value

/-- The value of an argument that is not there. -/
def absent : Value := ⟨none, .null⟩

/-- The value of a type. -/
def of (type : ValueType) (payload : Datum) : Value := ⟨some type, payload⟩

/-- The value as a datum. -/
def toDatum (v : Value) : Datum := .value v.type v.payload

/-- Whether the value is there. -/
def isPresent (v : Value) : Bool := v.type.isSome

/-- Whether the value is a number by its type. -/
def isNumeric (v : Value) : Bool := v.type.any ValueType.isNumeric

/-- A payload as an integer between two limits. -/
def narrowPayload (lower upper : Int) (payload : Datum) : Except Fault Int :=
  match payload.asNumber? with
  | some (.integer n) => .ok (narrowed lower upper n)
  | some (.double x) => .ok (x.saturated lower upper)
  | none => .error (.datum (.noDifference payload.kindName))

/-- The text of the value. -/
def asString? (v : Value) : Except Fault (Option String) :=
  match v.type with
  | none => .ok none
  | some .boolean => .ok (some (if v.payload.isTrue then "true" else "false"))
  | some _ => do .ok (some (← v.payload.asWritable).plain)

/-- The number of the value as an integer of 32 bits. -/
def asInteger? (v : Value) : Except Fault (Option Int) :=
  if v.isNumeric then some <$> narrowPayload integerLeast integerGreatest v.payload else .ok none

/-- The number of the value as an integer of 64 bits. -/
def asLong? (v : Value) : Except Fault (Option Int) :=
  if v.isNumeric then some <$> narrowPayload longLeast longGreatest v.payload else .ok none

/-- The text that bytes of ASCII are; other bytes are no text. -/
def asciiText? (bytes : List UInt8) : Option String :=
  if bytes.all (· < 0x80) then some (String.ofList (bytes.map fun byte => Char.ofNat byte.toNat))
  else none

/-- A payload as a double. -/
def doublePayload (payload : Datum) : Except Fault Double :=
  match payload with
  | .double x => .ok x
  | .string s =>
    match spokenDouble? s with
    | some x => .ok x
    | none => .error (.datum (.badNumeral payload.shown))
  | .bytes bytes =>
    match (asciiText? bytes).bind spokenDouble? with
    | some x => .ok x
    | none => .error (.datum (.badNumeral payload.shown))
  | payload =>
    match payload.asNumber? with
    | some (.integer n) =>
      match Double.ofInt? n with
      | some x => .ok x
      | none => .error (.datum .beyondDouble)
    | _ => .error (.datum (.notNumeral payload.kindName))

/-- The number of the value as a double. -/
def asDouble? (v : Value) : Except Fault (Option Double) :=
  if v.isNumeric then some <$> doublePayload v.payload else .ok none

/-- The truth value of the value. -/
def asBoolean? (v : Value) : Option Datum :=
  if v.type = some .boolean then some v.payload else none

end Value

end CommandTree
