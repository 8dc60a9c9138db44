import CommandTree.Fault
import CommandTree.Scalar
import CommandTree.Value

/-!
# Binding raw values

A raw value is bound to a parameter in two steps: it is read as the type of the parameter, and what
has been read is held against the limits. A raw value may be a token of an input or a value of the
right kind already; a truth value is never taken for a number.

* `bind_type`: what is bound has the type of the parameter
-/

namespace CommandTree.Parameter

/-- An integer as the double nearest to it. -/
def nearestDouble (n : Int) : Except Fault Double :=
  match Double.ofInt? n with
  | some x => .ok x
  | none => .error (.datum .beyondDouble)

/-- The fault of a binding, in whose message a number or a datum is named; one that cannot be
written leads to another fault. -/
def naming (isWritable : Bool) (f : BindingFault) : Fault :=
  if isWritable then .binding f else .datum (.tooManyDigits none)

/-- The integer that a text writes, or the given refusal if it writes none. -/
def readInteger (refusal : Fault) (s : String) : Except Fault Int :=
  match IntegerNumeral.ofChars? s.toList with
  | none => .error refusal
  | some numeral =>
    match numeral.read? with
    | some n => .ok n
    | none => .error (.datum (.tooManyDigits numeral.digits.length))

/-- The raw value as a scalar of the type of the parameter. -/
def read (p : Parameter) (raw : Datum) : Except Fault Scalar :=
  let refusal := naming raw.isWritable (.notReadable p raw)
  match p.type, raw with
  | .string, .string s => .ok (.text s)
  | .boolean, .boolean b => .ok (.boolean b)
  | .boolean, .string s =>
    match truthValue? s with
    | some b => .ok (.boolean b)
    | none => .error refusal
  | .integer, .integer n | .long, .integer n => .ok (.integer n)
  | .integer, .string s | .long, .string s => .integer <$> readInteger refusal s
  | .double, .integer n => .double <$> nearestDouble n
  | .double, .double x => if x.isNaN then .error refusal else .ok (.double x)
  | .double, .string s =>
    match DecimalNumeral.ofChars? s.toList with
    | some numeral => .ok (.double numeral.value)
    | none => .error refusal
  | _, _ => .error refusal

/-- Holds a number that was read from a raw value against the limits. -/
def checkLimits (p : Parameter) (raw : Datum) (found : Number) : Except Fault Unit :=
  match p.domain.limits? with
  | none => .ok ()
  | some (least, greatest) =>
    if least.le found && found.le greatest then .ok ()
    else .error (naming found.isWritable (.outOfLimits p raw found))

/-- Holds the length of a text that was read from a raw value against the limits. -/
def checkLengths (p : Parameter) (raw : Datum) (found : Nat) : Except Fault Unit :=
  match p.domain.lengths? with
  | none => .ok ()
  | some (minLength, maxLength) =>
    if minLength ≤ found && maxLength.all (found ≤ ·) then .ok ()
    else .error (naming (p.minLength.isWritable && p.maxLength.isWritable)
      (.wrongLength p raw found))

/-- Holds what was read from a raw value against the limits. -/
def check (p : Parameter) (raw : Datum) : Scalar → Except Fault Unit
  | .integer n => p.checkLimits raw (.integer n)
  | .double x => p.checkLimits raw (.double x)
  | .text s => p.checkLengths raw s.length
  | .boolean _ => .ok ()

/-- The value of a raw value under the parameter. -/
def bind (p : Parameter) (raw : Datum) : Except Fault Value := do
  let found ← p.read raw
  p.check raw found
  .ok (.of p.type found.toDatum)

theorem bind_type {p : Parameter} {raw : Datum} {v : Value} (h : p.bind raw = .ok v) :
    v.type = some p.type := by
  unfold bind at h
  cases hr : p.read raw with
  | error f => rw [hr] at h; cases h
  | ok found =>
    rw [hr] at h
    cases hc : p.check raw found with
    | error f => simp only [Bind.bind, Except.bind, hc] at h; cases h
    | ok u => simp only [Bind.bind, Except.bind, hc] at h; cases h; rfl

end CommandTree.Parameter
