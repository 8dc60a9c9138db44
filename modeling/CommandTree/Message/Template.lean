import CommandTree.Message.Path

/-!
# Message templates

A template is a text with gaps. A gap stands between braces and names what it is filled with, by a
key and a path into what stands under that key; it may ask for a conversion and say how the content
is presented, and what it says may have gaps in turn. Two braces in a row stand for one.

A template is read as far as it makes sense: the pieces before a mistake are filled before the
mistake is reported.

* `readName_length`, `readSpec_length`: reading a gap leaves less to read
* `pieces_char`, `pieces_opening`, `pieces_closing`: what a template without gaps consists of
-/

namespace CommandTree.Message

open Text

/-! ## Gaps -/

/-- A gap of a template. -/
structure Gap where
  /-- What the gap is filled with: a key and a path. -/
  field : List Char
  conversion : Option Char
  /-- How the content is presented. -/
  spec : List Char
  /-- Whether the presentation has gaps itself. -/
  nested : Bool
deriving DecidableEq

/-- The field that a gap begins with, the character that ends it, and the rest. Between brackets no
character ends it. -/
def readName (inside : Bool) : List Char → Except TemplateFault (List Char × Char × List Char)
  | [] => .error .unclosedField
  | c :: cs =>
    if inside then
      match readName (c != ']') cs with
      | .ok (field, last, rest) => .ok (c :: field, last, rest)
      | .error f => .error f
    else if c = '\x7b' then .error .bracesInName
    else if c = '\x7d' || c = ':' || c = '!' then .ok ([], c, cs)
    else
      match readName (c == '[') cs with
      | .ok (field, last, rest) => .ok (c :: field, last, rest)
      | .error f => .error f

/-- The presentation that a gap ends in, whether it has gaps itself, and the rest; `depth` gaps are
open in it. -/
def readSpec (depth : Nat) : List Char → Except TemplateFault (List Char × Bool × List Char)
  | [] => .error .unclosedSpec
  | c :: cs =>
    if c = '\x7b' then
      match readSpec (depth + 1) cs with
      | .ok (spec, _, rest) => .ok (c :: spec, true, rest)
      | .error f => .error f
    else if c = '\x7d' && depth = 0 then .ok ([], false, cs)
    else
      match readSpec (if c = '\x7d' then depth - 1 else depth) cs with
      | .ok (spec, nested, rest) => .ok (c :: spec, nested, rest)
      | .error f => .error f

theorem readName_length {inside : Bool} {cs field rest : List Char} {last : Char}
    (h : readName inside cs = .ok (field, last, rest)) : rest.length < cs.length := by
  induction cs generalizing inside field with
  | nil => simp [readName] at h
  | cons c cs ih =>
    simp only [readName] at h
    split at h
    · split at h
      · next heq => cases h; have := ih heq; simp only [List.length_cons]; omega
      · cases h
    · split at h
      · cases h
      · split at h
        · cases h; simp
        · split at h
          · next heq => cases h; have := ih heq; simp only [List.length_cons]; omega
          · cases h

theorem readSpec_length {depth : Nat} {cs spec rest : List Char} {nested : Bool}
    (h : readSpec depth cs = .ok (spec, nested, rest)) : rest.length < cs.length := by
  induction cs generalizing depth spec nested with
  | nil => simp [readSpec] at h
  | cons c cs ih =>
    simp only [readSpec] at h
    split at h
    · split at h
      · next heq => cases h; have := ih heq; simp only [List.length_cons]; omega
      · cases h
    · split at h
      · cases h; simp
      · split at h
        · next heq => cases h; have := ih heq; simp only [List.length_cons]; omega
        · cases h

/-- The gap with the presentation that the text begins with. -/
def withSpec (field : List Char) (conversion : Option Char) (cs : List Char) :
    Except TemplateFault (Gap × List Char) :=
  match readSpec 0 cs with
  | .ok (spec, nested, rest) => .ok (⟨field, conversion, spec, nested⟩, rest)
  | .error f => .error f

/-- The gap that the text begins with, behind its opening brace, and the rest. -/
def readGap (cs : List Char) : Except TemplateFault (Gap × List Char) :=
  match readName false cs with
  | .error f => .error f
  | .ok (field, last, rest) =>
    if last = '\x7d' then .ok (⟨field, none, [], false⟩, rest)
    else if last = ':' then withSpec field none rest
    else
      match rest with
      | [] => .error .conversionMissing
      | [c] => withSpec field (some c) []
      | c :: next :: rest =>
        if next = '\x7d' then .ok (⟨field, some c, [], false⟩, rest)
        else if next = ':' then withSpec field (some c) rest
        else .error .conversionNotClosed

theorem withSpec_length {field : List Char} {conversion : Option Char} {cs rest : List Char}
    {gap : Gap} (h : withSpec field conversion cs = .ok (gap, rest)) : rest.length < cs.length := by
  unfold withSpec at h
  split at h
  · next heq => cases h; exact readSpec_length heq
  · cases h

theorem readGap_length {cs rest : List Char} {gap : Gap} (h : readGap cs = .ok (gap, rest)) :
    rest.length < cs.length := by
  unfold readGap at h
  split at h
  · cases h
  · next heq =>
    have hname := readName_length heq
    split at h
    · cases h; exact hname
    · split at h
      · have := withSpec_length h; omega
      · split at h
        · cases h
        · have := withSpec_length h; simp at this
        · simp only [List.length_cons] at hname
          split at h
          · cases h; omega
          · split at h
            · have := withSpec_length h; omega
            · cases h

/-! ## Pieces -/

/-- A piece of a template: a character, or a gap. -/
inductive Piece where
  | char (c : Char)
  | gap (g : Gap)
deriving DecidableEq

/-- The piece that a text begins with, given its first character, and the rest. -/
def readPiece (c : Char) (cs : List Char) : Except TemplateFault (Piece × List Char) :=
  if c = '\x7d' then
    match cs with
    | [] => .error .loneClosing
    | d :: rest => if d = '\x7d' then .ok (.char d, rest) else .error .loneClosing
  else if c = '\x7b' then
    match cs with
    | [] => .error .loneOpening
    | d :: rest =>
      if d = '\x7b' then .ok (.char d, rest)
      else
        match readGap (d :: rest) with
        | .ok (gap, rest) => .ok (.gap gap, rest)
        | .error f => .error f
  else .ok (.char c, cs)

theorem readPiece_length {c : Char} {cs rest : List Char} {piece : Piece}
    (h : readPiece c cs = .ok (piece, rest)) : rest.length < (c :: cs).length := by
  simp only [List.length_cons]
  unfold readPiece at h
  split at h
  · split at h
    · cases h
    · split at h
      · cases h; simp only [List.length_cons]; omega
      · cases h
  · split at h
    · split at h
      · cases h
      · split at h
        · cases h; simp only [List.length_cons]; omega
        · split at h
          · next heq => cases h; have := readGap_length heq; omega
          · cases h
    · cases h; omega

/-- The pieces of a template up to its first mistake, and that mistake, if there is one. -/
def pieces (cs : List Char) : List Piece × Option TemplateFault :=
  match cs with
  | [] => ([], none)
  | c :: cs =>
    match h : readPiece c cs with
    | .error f => ([], some f)
    | .ok (piece, rest) =>
      have := readPiece_length h
      (piece :: (pieces rest).1, (pieces rest).2)
termination_by cs.length
decreasing_by all_goals exact readPiece_length h

theorem pieces_cons {c : Char} {cs rest : List Char} {piece : Piece}
    (h : readPiece c cs = .ok (piece, rest)) :
    pieces (c :: cs) = (piece :: (pieces rest).1, (pieces rest).2) := by
  rw [pieces]
  split
  · next heq => rw [h] at heq; cases heq
  · next heq => rw [h] at heq; cases heq; rfl

theorem pieces_char {c : Char} (h : c ≠ '\x7b') (h' : c ≠ '\x7d') (cs : List Char) :
    pieces (c :: cs) = (.char c :: (pieces cs).1, (pieces cs).2) :=
  pieces_cons (by simp [readPiece, h, h'])

theorem pieces_opening (cs : List Char) :
    pieces ('\x7b' :: '\x7b' :: cs) = (.char '\x7b' :: (pieces cs).1, (pieces cs).2) :=
  pieces_cons (by simp [readPiece])

theorem pieces_closing (cs : List Char) :
    pieces ('\x7d' :: '\x7d' :: cs) = (.char '\x7d' :: (pieces cs).1, (pieces cs).2) :=
  pieces_cons (by simp [readPiece])

/-! ## Looking things up -/

/-- What fills the gaps of a message, by key. -/
abbrev Filling := String → Datum

/-- What a field names. -/
def lookUp (filling : Filling) (field : List Char) : Except Fault Found := do
  let (key, path) := field.span fun c => c != '.' && c != '['
  let index ← refuse (readIndex key)
  if key.isEmpty || index.isSome then .error (.template .positionalField)
  else
    -- the steps before a mistake are followed first, so their faults come before it
    let (steps, mistake) := steps path
    let found ← steps.foldlM Found.follow (.datum (filling (String.ofList key)))
    match mistake with
    | none => .ok found
    | some f => .error (.template f)

/-- What a conversion makes of what was found. -/
def convert (conversion : Option Char) (found : Found) : Except Fault Found :=
  match conversion with
  | none => .ok found
  | some 'r' => (fun s => .datum (.string s)) <$> found.shown
  | some 's' => (fun s => .datum (.string s)) <$> found.plain
  | some 'a' => (fun s => .datum (.string (asciiOnly s))) <$> found.shown
  | some c => if c = noCode then .ok found else .error (.template (.conversionUnknown c))

/-! ## Filling in -/

mutual

/-- The text of a template whose gaps are filled; presentations may have gaps themselves down to the
given depth. -/
def fillWithin (filling : Filling) (depth : Nat) (cs : List Char) : Except Fault String :=
  match depth with
  | 0 => .error (.template .tooDeep)
  | depth + 1 => do
    let (parts, mistake) := pieces cs
    let texts ← parts.mapM fun
      | .char c => .ok (String.singleton c)
      | .gap g => fillGap filling depth g
    match mistake with
    | none => .ok (String.join texts)
    | some f => .error (.template f)
termination_by (depth, 0)

/-- The text that fills a gap. -/
def fillGap (filling : Filling) (depth : Nat) (g : Gap) : Except Fault String := do
  let found ← convert g.conversion (← lookUp filling g.field)
  let spec ← if g.nested then String.toList <$> fillWithin filling depth g.spec else .ok g.spec
  found.present spec
termination_by (depth, 1)

end

/-- The text of a template whose gaps are filled; only the presentations of its own gaps may have
gaps. -/
def fillIn (filling : Filling) (template : String) : Except Fault String :=
  fillWithin filling 2 template.toList

end CommandTree.Message
