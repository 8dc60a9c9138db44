import CommandTree.Datum.Items
import CommandTree.Decimal.Rounded
import CommandTree.Message.Presentation

/-!
# Presented data

A text is cut off at the precision and filled up to the width. A number is made of a sign, a mark of
its base, digits in groups, and a rest (a point with a fraction, an exponent); it can be filled up
between sign and digits too, and zeros that fill it up there are grouped like digits.
-/

namespace CommandTree.Message

open Text

/-- Two parts of a text filled up to the width of the presentation. -/
def Presentation.filled (p : Presentation) (lead body : List Char) : List Char :=
  let missing := p.width.getD 0 - (lead.length + body.length)
  match p.alignment with
  | .left => lead ++ body ++ List.replicate missing p.fill
  | .right => List.replicate missing p.fill ++ lead ++ body
  | .center =>
    List.replicate (missing / 2) p.fill ++ lead ++ body
      ++ List.replicate (missing - missing / 2) p.fill
  | .inner => lead ++ List.replicate missing p.fill ++ body

/-- The number, if a text of so many characters can be made. -/
def feasible (length : Nat) : Except TemplateFault Nat :=
  if lengthLimit ≤ length then .error .tooLong else .ok length

/-- Two parts of a text filled up to the width of the presentation, if there is room for that. -/
def Presentation.fitted (p : Presentation) (lead body : List Char) :
    Except TemplateFault (List Char) := do
  let _ ← feasible (p.width.getD 0)
  .ok (p.filled lead body)

/-! ## Texts -/

/-- A text under a presentation. -/
def presentText (p : Presentation) (cs : List Char) : Except TemplateFault (List Char) :=
  match p.sign with
  | some ' ' => .error .spaceOnText
  | some _ => .error .signOnText
  | none =>
    if p.plainZero then .error .zeroOnText
    else if p.alternate then .error .alternateOnText
    else if p.alignment = .inner then .error .paddingOnText
    else p.fitted [] (match p.precision with | some n => cs.take n | none => cs)

/-! ## Groups of digits -/

/-- The least number of digits that, in groups of `size` with separators between them, take up at
least `width` characters. -/
def digitCount (size width : Nat) : Nat := width - (width - 1) / (size + 1)

/-- Digits, read backwards, with a separator behind each group of `size`; `room` digits fit into the
group that has been begun. -/
def separated (separator : Char) (size room : Nat) : List Char → List Char
  | [] => []
  | d :: ds =>
    match room with
    | 0 => separator :: d :: separated separator size (size - 1) ds
    | room + 1 => d :: separated separator size room ds

/-- Digits in groups, with zeros in front so that they take up at least `width` characters. -/
def grouped (separator : Option Char) (size width : Nat) (digits : List Char) : List Char :=
  match digits, separator with
  | [], _ => []
  | digits, none => List.replicate (width - digits.length) '0' ++ digits
  | digits, some separator =>
    let padded := List.replicate (digitCount size width - digits.length) '0' ++ digits
    (separated separator size size padded.reverse).reverse

/-! ## Numbers -/

/-- The parts of a number that is presented. -/
structure NumberParts where
  negative : Bool
  /-- The mark of the base. -/
  base : List Char
  digits : List Char
  /-- What follows the digits before the point. -/
  rest : List Char

/-- The parts of a number under a presentation. -/
def presentParts (p : Presentation) (parts : NumberParts) : Except TemplateFault (List Char) := do
  let total ← feasible (p.width.getD 0)
  let sign :=
    if parts.negative then ['-']
    else match p.sign with
      | some '+' => ['+']
      | some ' ' => [' ']
      | _ => []
  let lead := sign ++ parts.base
  -- zeros between sign and digits are grouped with the digits, other filling is not
  let width :=
    if p.fill = '0' && p.alignment = .inner then
      total - (lead.length + parts.rest.length)
    else 0
  let size := if p.code.any ("boxX".toList.contains ·) then 4 else 3
  .ok (p.filled lead (grouped p.separator size width parts.digits ++ parts.rest))

/-- A letter in upper case, if it is one of ASCII in lower case. -/
def upperAscii (cs : List Char) : List Char := cs.map Char.toUpper

/-! ## Integers -/

/-- The base that a notation of integers writes in, with its mark. -/
def baseOf (code : Option Char) : Nat × List Char :=
  match code with
  | some 'b' => (2, ['0', 'b'])
  | some 'o' => (8, ['0', 'o'])
  | some 'x' => (16, ['0', 'x'])
  | some 'X' => (16, ['0', 'X'])
  | _ => (10, [])

/-- The parts of an integer. -/
def integerParts (p : Presentation) (n : Int) : NumberParts :=
  let (base, mark) := baseOf p.code
  let digits := Nat.toDigits base n.natAbs
  { negative := decide (n < 0)
    base := if p.alternate then mark else []
    digits := if p.code = some 'X' then upperAscii digits else digits
    rest := [] }

/-- The parts of an integer that stands for a character. -/
def characterParts (p : Presentation) (n : Int) : Except TemplateFault NumberParts :=
  if p.sign.isSome then .error .signOnCharacter
  else if p.alternate then .error .alternateOnCharacter
  else if n < longLeast || longGreatest < n then .error .characterTooLarge
  else if n < 0 || 0x110000 ≤ n then .error .characterRange
  else .ok ⟨false, [], [], [Char.ofNat n.toNat]⟩

/-- An integer under a presentation. -/
def presentInteger (p : Presentation) (n : Int) : Except TemplateFault (List Char) :=
  if p.precision.isSome then .error .precisionOnInteger
  else if p.plainZero then .error .zeroOnInteger
  else if p.code = some 'c' then do presentParts p (← characterParts p n)
  else presentParts p (integerParts p n)

/-! ## Doubles -/

/-- The digits before the point of a number, those behind it, and the exponent, if it is written. -/
structure DoubleDigits where
  whole : List Char
  fraction : List Char
  exponent : Option Int

/-- Digits with a point behind the first of them, and an exponent. -/
def scientificDigits (digits : List Char) (place : Int) : DoubleDigits :=
  ⟨digits.take 1, digits.drop 1, some place⟩

/-- Digits around a point, the first of them in the given place. -/
def positionalDigits (digits : List Char) (place : Int) : DoubleDigits :=
  ⟨wholePart digits (place + 1), fractionPart digits (place + 1), none⟩

/-- Digits without the zeros that they end in. -/
def withoutEndZeros (digits : List Char) : List Char :=
  (digits.reverse.dropWhile (· = '0')).reverse

/-- No double has a digit other than zero behind so many places, or so many digits behind the first
that is not zero. -/
def exactDigits : Nat := 1100

/-- Digits of which as many were found as can be other than zero, and zeros for the others. -/
def withEndZeros (digits : List Char) (count : Nat) : List Char :=
  digits ++ List.replicate (count - exactDigits) '0'

/-- A magnitude with a number of places behind the point. -/
def fixedDigits (pattern places : Nat) : DoubleDigits :=
  let digits := Nat.toDigits 10 (roundedPlaces pattern (min places exactDigits))
  positionalDigits (withEndZeros digits places)
    ((digits.length : Int) - (min places exactDigits : Nat) - 1)

/-- A magnitude with a number of significant digits, and the place of the first of them. -/
def significantDigits (pattern count : Nat) : List Char × Int :=
  let (digits, place) := roundedDigits pattern (min count exactDigits)
  (withEndZeros digits count, place)

/-- A magnitude with a number of significant digits: positionally where the place of the first digit
is from the fourth behind the point to that before `limit`, else with an exponent. Zeros at the end
are dropped unless `keepZeros`. -/
def generalDigits (pattern count : Nat) (limit : Int) (keepZeros : Bool) : DoubleDigits :=
  let (kept, place) :=
    if keepZeros then significantDigits pattern count
    else
      let (digits, place) := roundedDigits pattern (min count exactDigits)
      (match withoutEndZeros digits with
        | [] => ['0']
        | kept => kept, place)
  if place < -4 || limit ≤ place then scientificDigits kept place
  else positionalDigits kept place

/-- A magnitude with as many digits as tell it from all others. -/
def shortestDigits (pattern : Nat) : DoubleDigits :=
  if pattern = 0 then positionalDigits ['0'] 0
  else
    let (significand, exponent) := shortestDecimal pattern
    let digits := Nat.toDigits 10 significand
    let place := (digits.length : Int) + exponent - 1
    if place < -4 || 16 ≤ place then scientificDigits digits place
    else positionalDigits digits place

/-- The digits of a magnitude under a presentation. -/
def doubleDigits (p : Presentation) (pattern : Nat) : DoubleDigits :=
  let precision := p.precision.getD 6
  match p.code.map Char.toLower with
  | some 'e' =>
    let (digits, place) := significantDigits pattern (precision + 1)
    scientificDigits digits place
  | some 'f' | some '%' => fixedDigits pattern precision
  | some _ =>
    let count := max precision 1
    generalDigits pattern count count p.alternate
  | none =>
    let found := match p.precision with
      | none => shortestDigits pattern
      | some precision =>
        let count := max precision 1
        generalDigits pattern count ((count : Int) - 1) p.alternate
    match found.exponent, found.fraction with
    | none, [] => { found with fraction := ['0'] }
    | _, _ => found

/-- What follows the digits before the point of a double. -/
def doubleRest (p : Presentation) (d : DoubleDigits) : List Char :=
  let point := if d.fraction.isEmpty && !p.alternate then [] else '.' :: d.fraction
  let exponent := match d.exponent with
    | some e => 'e' :: exponentText e
    | none => []
  point ++ exponent ++ if p.code = some '%' then ['%'] else []

/-- The parts of a double. -/
def doubleParts (p : Presentation) (x : Double) : NumberParts :=
  let percent := if p.code = some '%' then ['%'] else []
  match x with
  | .nan => ⟨false, [], [], ['n', 'a', 'n'] ++ percent⟩
  | .infinite negative => ⟨negative, [], [], ['i', 'n', 'f'] ++ percent⟩
  | .finite negative pattern =>
    let digits := doubleDigits p pattern
    let isZero := (digits.whole ++ digits.fraction).all (· = '0')
    ⟨negative && !(p.plainZero && isZero), [], digits.whole, doubleRest p digits⟩

/-- A double with its point moved two places, for percents. -/
def hundredfold : Double → Double
  | .finite negative pattern => .ofRatio negative (units pattern * 100) unitsPerOne
  | x => x

/-- Whether a notation writes numbers in upper case. -/
def isUpperCode (code : Option Char) : Bool := code.any ("EFG".toList.contains ·)

/-- Whether a presentation writes as many digits as its precision says, be they zeros. -/
def writesAllDigits (p : Presentation) (x : Double) : Bool :=
  x.isFinite && (p.alternate || p.code.any ("eEfF%".toList.contains ·))

/-- A double under a presentation. -/
def presentDouble (p : Presentation) (x : Double) : Except TemplateFault (List Char) := do
  let precision := p.precision.getD 0
  if precisionLimit ≤ precision then .error .precisionTooBig
  else do
    let _ ← feasible (if writesAllDigits p x then precision else 0)
    let parts := doubleParts p (if p.code = some '%' then hundredfold x else x)
    presentParts p
      (if isUpperCode p.code then { parts with rest := upperAscii parts.rest } else parts)

/-! ## Data -/

/-- The notations that integers can be written in as they are. -/
def integerCodes : List Char := "bcdoxXn".toList

/-- The notations of doubles. -/
def doubleCodes : List Char := "eEfFgGn%".toList

/-- A fault of a template as a fault. -/
def refuse {α : Type} : Except TemplateFault α → Except Fault α
  | .ok a => .ok a
  | .error f => .error (.template f)

/-- A text as a gap says. -/
def presentAsText (kindName : String) (s : String) (spec : List Char) : Except Fault String := do
  let p ← refuse (Presentation.ofChars kindName ⟨.left, some 's'⟩ spec)
  match p.code with
  | some 's' => String.ofList <$> refuse (presentText p s.toList)
  | code => .error (.template (.codeUnknown (code.getD 's') kindName))

/-- An integer as a gap says. -/
def presentAsInteger (kindName : String) (n : Int) (spec : List Char) : Except Fault String := do
  let p ← refuse (Presentation.ofChars kindName ⟨.right, some 'd'⟩ spec)
  let code := p.code.getD 'd'
  if integerCodes.contains code then do
    let cs ← refuse (presentInteger p n)
    if (baseOf p.code).1 = 10 && !isWritableInteger n then .error (.datum (.tooManyDigits none))
    else .ok (String.ofList cs)
  else if doubleCodes.contains code then
    match Double.ofInt? n with
    | some x => String.ofList <$> refuse (presentDouble p x)
    | none => .error (.datum .beyondDouble)
  else .error (.template (.codeUnknown code kindName))

/-- A double as a gap says. -/
def presentAsDouble (kindName : String) (x : Double) (spec : List Char) : Except Fault String := do
  let p ← refuse (Presentation.ofChars kindName ⟨.right, none⟩ spec)
  if p.code.all (doubleCodes.contains ·) then String.ofList <$> refuse (presentDouble p x)
  else .error (.template (.codeUnknown (p.code.getD ' ') kindName))

/-- A datum as a gap says; where a gap says nothing, its plain text. -/
def present (d : Datum) (spec : List Char) : Except Fault String :=
  if spec.isEmpty then do .ok (← d.asWritable).plain
  else match d with
    | .string s => presentAsText d.kindName s spec
    | .valueType _ | .audience _ | .senderKind _ =>
      presentAsText (Datum.string d.plain).kindName d.plain spec
    | .integer n => presentAsInteger d.kindName n spec
    | .boolean b => presentAsInteger d.kindName (if b then 1 else 0) spec
    | .double x => presentAsDouble d.kindName x spec
    | d => .error (.template (.specUnsupported d.kindName))

end CommandTree.Message
