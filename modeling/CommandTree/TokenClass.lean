import CommandTree.Cursor
import CommandTree.Datum.Measured
import CommandTree.Decimal.Numeral
import CommandTree.Scalar

/-!
# Classes of tokens

A class of tokens says which part of an input is one token, which tokens it accepts, and what they
are read as. All classes but one take a word; the one for the rest takes all that is left, spaces
included.

The limits of a class are what a host has set them to. A limit that cannot be compared with what was
read does no harm until a token comes to be held against it.

* `take_append_drop`: a token is the beginning of what it is taken from
* `accept_empty`: no class accepts an empty token
* `checkLimits_ofNumber`: numbers as limits are compared by their places
-/

namespace CommandTree

/-- A class of tokens with its limits. -/
inductive TokenClass where
  | integer (least greatest : Datum)
  | long (least greatest : Datum)
  | double (least greatest : Datum)
  | boolean
  /-- A word, whose greatest length may be null for none. -/
  | word (minLength maxLength : Datum)
  | rest (minLength maxLength : Datum)

/-- Why a token is not accepted. -/
inductive TokenFault where
  | complaint (c : Complaint)
  /-- The token cannot be read, or a limit is of no use. -/
  | datum (f : DatumFault)

namespace TokenFault

/-- The fault of a complaint that names a limit; one that cannot be written leads to another
fault. -/
def naming (limit : Datum) (c : Complaint) : TokenFault :=
  if limit.isWritable then .complaint c else .datum (.tooManyDigits none)

/-- The fault of a token that stands at a position of an input. -/
def located (f : TokenFault) (input : String) (position : Int) : Fault :=
  match f with
  | .complaint c => .parse ⟨c, some input, some position⟩
  | .datum f => .datum f

end TokenFault

namespace TokenClass

/-- What the tokens of the class are called in complaints. -/
def noun : TokenClass → String
  | .integer _ _ => "integer"
  | .long _ _ => "long"
  | .double _ _ => "double"
  | .boolean => "boolean"
  | .word _ _ | .rest _ _ => "string"

/-- Whether a token of the class takes all that is left. -/
def greedy : TokenClass → Bool
  | .rest _ _ => true
  | _ => false

/-- The token that a text begins with. -/
def take (cls : TokenClass) (cs : List Char) : List Char :=
  if cls.greedy then cs else cs.takeWhile isWordChar

theorem take_append_drop (cls : TokenClass) (cs : List Char) :
    cls.take cs ++ cs.drop (cls.take cs).length = cs := by
  unfold take
  split
  · simp
  · have h := List.prefix_iff_eq_take.1 (List.takeWhile_prefix (l := cs) isWordChar)
    conv => lhs; lhs; rw [h]
    exact List.take_append_drop ..

/-- A step that may find a limit to be of no use. -/
def usable {α : Type} : Except DatumFault α → Except TokenFault α
  | .ok a => .ok a
  | .error f => .error (.datum f)

/-- Holds a number against limits. -/
def checkLimits (noun : String) (least greatest : Datum) (found : Number) :
    Except TokenFault Unit := do
  let lower ← usable (least.comparedWith "<" found)
  if found.lt lower then .error (.naming least (.tooLow noun least found))
  else do
    let upper ← usable (greatest.comparedWith ">" found)
    if upper.lt found then .error (.naming greatest (.tooHigh noun greatest found)) else .ok ()

theorem checkLimits_ofNumber (noun : String) (least greatest found : Number) :
    checkLimits noun (.ofNumber least) (.ofNumber greatest) found
      = if found.lt least then
          .error (.naming (.ofNumber least) (.tooLow noun (.ofNumber least) found))
        else if greatest.lt found then
          .error (.naming (.ofNumber greatest) (.tooHigh noun (.ofNumber greatest) found))
        else .ok () := by
  simp [checkLimits, usable, bind, Except.bind]

/-- The integer that a token writes, between limits. -/
def acceptInteger (noun : String) (least greatest : Datum) (token : String) :
    Except TokenFault Scalar :=
  match IntegerNumeral.ofChars? token.toList with
  | none => .error (.complaint (.malformed noun token))
  | some numeral =>
    match numeral.read? with
    | none => .error (.datum (.tooManyDigits numeral.digits.length))
    | some n => do
      checkLimits noun least greatest (.integer n)
      .ok (.integer n)

/-- The double that a token writes, between limits. -/
def acceptDouble (noun : String) (least greatest : Datum) (token : String) :
    Except TokenFault Scalar :=
  match DecimalNumeral.ofChars? token.toList with
  | none => .error (.complaint (.malformed noun token))
  | some numeral => do
    checkLimits noun least greatest (.double numeral.value)
    .ok (.double numeral.value)

/-- The complaint that names a length, of which only the whole part is told. -/
def complainAbout (length : Datum) (limit : Number) (make : Int → Complaint) :
    Except TokenFault Unit := do
  let whole ← usable limit.whole
  .error (.naming length (make whole))

/-- Holds the length of a token against limits. -/
def checkLengths (minLength maxLength : Datum) (found : Nat) : Except TokenFault Unit := do
  let lower ← usable (minLength.comparedWith "<" (.integer found))
  if (Number.integer found).lt lower then complainAbout minLength lower (.tooShort · found)
  else match maxLength with
    | .null => .ok ()
    | maxLength => do
      let upper ← usable (maxLength.comparedWith ">" (.integer found))
      if upper.lt (.integer found) then complainAbout maxLength upper (.tooLong · found)
      else .ok ()

/-- The token itself, if its length is between limits. -/
def acceptText (minLength maxLength : Datum) (token : String) : Except TokenFault Scalar := do
  checkLengths minLength maxLength token.toList.length
  .ok (.text token)

/-- What a token of the class is read as. -/
def accept (cls : TokenClass) (token : String) : Except TokenFault Scalar :=
  if token.isEmpty then .error (.complaint (.missing cls.noun))
  else match cls with
    | .integer least greatest | .long least greatest =>
      acceptInteger cls.noun least greatest token
    | .double least greatest => acceptDouble cls.noun least greatest token
    | .boolean =>
      match truthValue? token with
      | some b => .ok (.boolean b)
      | none => .error (.complaint (.notBoolean token))
    | .word minLength maxLength | .rest minLength maxLength =>
      acceptText minLength maxLength token

theorem accept_empty (cls : TokenClass) :
    cls.accept "" = .error (.complaint (.missing cls.noun)) := rfl

/-- What a token of the class at a cursor is read as, and the cursor behind the token. -/
def read (cls : TokenClass) (c : Cursor) : Except Fault Scalar × Cursor :=
  let token := if cls.greedy then .ok c.readRest else c.readWord
  match token with
  | .error f => (.error f, c)
  | .ok (token, behind) =>
    match cls.accept token with
    | .ok found => (.ok found, behind)
    | .error f => (.error (f.located c.text c.position), behind)

/-! ## How classes are shown -/

/-- A class that is shown with two limits. -/
def shownWith (name : String) (first second : Datum) : String :=
  name ++ "(" ++ first.shown ++ ", " ++ second.shown ++ ")"

/-- The class as it is shown. -/
def shown : TokenClass → String
  | .integer least greatest => shownWith "IntegerParser" least greatest
  | .long least greatest => shownWith "LongParser" least greatest
  | .double least greatest => shownWith "DoubleParser" least greatest
  | .boolean => "BooleanParser()"
  | .word minLength maxLength => shownWith "WordParser" minLength maxLength
  | .rest minLength maxLength => shownWith "GreedyParser" minLength maxLength

/-! ## Classes of parameters -/

/-- The class of the tokens that a domain holds. -/
def ofDomain : Domain → TokenClass
  | .integer least greatest => .integer (.integer least) (.integer greatest)
  | .long least greatest => .long (.integer least) (.integer greatest)
  | .double least greatest => .double (.double least) (.double greatest)
  | .boolean => .boolean
  | .string minLength maxLength greedy =>
    let greatest := match maxLength with
      | none => Datum.null
      | some n => .integer n
    if greedy then .rest (.integer minLength) greatest else .word (.integer minLength) greatest

theorem ofDomain_greedy (d : Domain) : (ofDomain d).greedy = d.greedy := by
  cases d with
  | string minLength maxLength greedy => cases greedy <;> rfl
  | _ => rfl

end TokenClass

end CommandTree
