import CommandTree.Message.Template

/-!
# Reading what is written in templates

A gap that names a key can be written with a conversion and with a presentation, whose braces have
to be balanced. Read from the beginning of a text, it is read as it was written, whatever follows.
In general, what has been read of a template does not depend on what follows, so a template without
a mistake can be read by itself.

* `pieces_append`: a template without a mistake, and what follows it, are read one after the other
* `readSpec_balanced`: a presentation ends at the first brace that is not its own
* `Field.pieces_written`: a field is read as the gap that it is
-/

namespace CommandTree.Message

open Text

/-! ## What follows does not matter -/

variable {cs rest more : List Char}

theorem readName_append {inside : Bool} {name : List Char} {last : Char}
    (h : readName inside cs = .ok (name, last, rest)) :
    readName inside (cs ++ more) = .ok (name, last, rest ++ more) := by
  induction cs generalizing inside name with
  | nil => cases h
  | cons c cs ih =>
    rw [List.cons_append]
    simp only [readName] at h ⊢
    split at h
    · next hinside =>
      split at h
      · next heq =>
        cases h
        rw [if_pos hinside, ih heq]
      · cases h
    · next hinside =>
      rw [if_neg hinside]
      split at h
      · cases h
      · next hopen =>
        rw [if_neg hopen]
        split at h
        · next hlast =>
          cases h
          rw [if_pos hlast]
        · next hlast =>
          split at h
          · next heq =>
            cases h
            rw [if_neg hlast, ih heq]
          · cases h

theorem readSpec_append {depth : Nat} {spec : List Char} {nested : Bool}
    (h : readSpec depth cs = .ok (spec, nested, rest)) :
    readSpec depth (cs ++ more) = .ok (spec, nested, rest ++ more) := by
  induction cs generalizing depth spec nested with
  | nil => cases h
  | cons c cs ih =>
    rw [List.cons_append]
    simp only [readSpec] at h ⊢
    split at h
    · next hopen =>
      split at h
      · next heq =>
        cases h
        rw [if_pos hopen, ih heq]
      · cases h
    · next hopen =>
      rw [if_neg hopen]
      split at h
      · next hlast =>
        cases h
        rw [if_pos hlast]
      · next hlast =>
        split at h
        · next heq =>
          cases h
          rw [if_neg hlast, ih heq]
        · cases h

theorem withSpec_append {name : List Char} {conversion : Option Char} {gap : Gap}
    (h : withSpec name conversion cs = .ok (gap, rest)) :
    withSpec name conversion (cs ++ more) = .ok (gap, rest ++ more) := by
  unfold withSpec at h ⊢
  split at h
  · next heq => cases h; rw [readSpec_append heq]
  · cases h

theorem readGap_append {gap : Gap} (h : readGap cs = .ok (gap, rest)) :
    readGap (cs ++ more) = .ok (gap, rest ++ more) := by
  unfold readGap at h ⊢
  split at h
  · cases h
  · next name last tail heq =>
    rw [readName_append heq]
    split at h
    · cases h
      simp [*]
    · split at h
      · simp only [*]
        exact withSpec_append h
      · split at h
        · cases h
        · -- a presentation does not end before it has begun
          cases h
        · split at h
          · cases h
            simp [*]
          · split at h
            · simp only [*, if_false, List.cons_append]
              exact withSpec_append h
            · cases h

theorem readPiece_append {c : Char} {piece : Piece} (h : readPiece c cs = .ok (piece, rest)) :
    readPiece c (cs ++ more) = .ok (piece, rest ++ more) := by
  unfold readPiece at h ⊢
  split at h
  · split at h
    · cases h
    · split at h
      · cases h
        simp [*]
      · cases h
  · split at h
    · split at h
      · cases h
      · split at h
        · cases h
          simp [*]
        · split at h
          · next heq =>
            cases h
            have happend := @readGap_append _ _ more _ heq
            rw [List.cons_append] at happend
            simp [*]
          · cases h
    · cases h
      simp [*]

/-- **A template without a mistake and what follows it are read one after the other.** -/
theorem pieces_append (h : (pieces cs).2 = none) :
    pieces (cs ++ more) = ((pieces cs).1 ++ (pieces more).1, (pieces more).2) := by
  induction hn : cs.length using Nat.strongRecOn generalizing cs with
  | ind n ih =>
    cases cs with
    | nil =>
      rw [show pieces [] = ([], none) by rw [pieces]]
      rfl
    | cons c cs =>
      cases hread : readPiece c cs with
      | error f =>
        rw [pieces] at h
        split at h
        · cases h
        · next heq => rw [hread] at heq; cases heq
      | ok read =>
        obtain ⟨piece, rest⟩ := read
        rw [pieces_cons hread] at h ⊢
        have hrest := ih rest.length (hn ▸ readPiece_length hread) h rfl
        rw [List.cons_append, pieces_cons (readPiece_append hread), hrest, List.cons_append]

/-! ## Keys -/

/-- Whether a character ends a key that a gap names, or does not belong into a gap at all. -/
def endsKey (c : Char) : Bool :=
  c = '\x7b' || c = '\x7d' || c = ':' || c = '!' || c = '.' || c = '['

/-- Whether a gap can name the text as a key: letters, digits and dashes can stand in it, and it is
not a number. -/
structure IsKey (key : List Char) : Prop where
  unmarked : ∀ c ∈ key, endsKey c = false
  named : ∃ c ∈ key, digitValue? c = none

/-- Whether a character can stand in a word. -/
def isWordLetter (c : Char) : Bool := c.isAlphanum || c = '_' || c = '-'

/-- A word is a key unless it is a number. -/
theorem isKey_of_word {key : List Char} (h : key.all isWordLetter = true)
    (hnumber : key.all isDigit = false) : IsKey key where
  unmarked c hc := by
    have hletter := List.all_eq_true.mp h c hc
    simp only [endsKey, Bool.or_eq_false_iff, decide_eq_false_iff_not]
    refine ⟨⟨⟨⟨⟨?_, ?_⟩, ?_⟩, ?_⟩, ?_⟩, ?_⟩ <;> rintro rfl <;> exact absurd hletter (by decide)
  named := by
    obtain ⟨c, hc, hdigit⟩ := List.all_eq_false.mp hnumber
    exact ⟨c, hc, Option.not_isSome_iff_eq_none.mp hdigit⟩

theorem readName_key {key : List Char} (h : ∀ c ∈ key, endsKey c = false) {last : Char}
    (hlast : last = '\x7d' ∨ last = ':' ∨ last = '!') :
    readName false (key ++ last :: rest) = .ok (key, last, rest) := by
  induction key with
  | nil =>
    rcases hlast with rfl | rfl | rfl <;> rfl
  | cons c key ih =>
    obtain ⟨hc, hkey⟩ := List.forall_mem_cons.mp h
    simp only [endsKey, Bool.or_eq_false_iff, decide_eq_false_iff_not] at hc
    obtain ⟨⟨⟨⟨⟨hopen, hclose⟩, hcolon⟩, hmark⟩, -⟩, hbracket⟩ := hc
    simp [readName, hopen, hclose, hcolon, hmark, beq_eq_false_iff_ne.mpr hbracket, ih hkey]

/-! ## Presentations -/

/-- How many braces are open behind a text, if `depth` are open before it; none where one is closed
that is not open. -/
def openBraces (depth : Nat) : List Char → Option Nat
  | [] => some depth
  | c :: cs =>
    if c = '\x7b' then openBraces (depth + 1) cs
    else if c = '\x7d' then
      match depth with
      | 0 => none
      | depth + 1 => openBraces depth cs
    else openBraces depth cs

/-- Whether each brace in a text has its other one. -/
def IsBalanced (cs : List Char) : Prop := openBraces 0 cs = some 0

theorem isBalanced_of_not_mem (hopen : '\x7b' ∉ cs) (hclose : '\x7d' ∉ cs) : IsBalanced cs := by
  unfold IsBalanced
  induction cs with
  | nil => rfl
  | cons c cs ih =>
    rw [List.mem_cons, not_or] at hopen hclose
    simp only [openBraces, if_neg (Ne.symm hopen.1), if_neg (Ne.symm hclose.1)]
    exact ih hopen.2 hclose.2

/-- Where no brace is opened in a balanced text, none is closed either. -/
theorem IsBalanced.close_not_mem (h : IsBalanced cs) (hopen : '\x7b' ∉ cs) : '\x7d' ∉ cs := by
  unfold IsBalanced at h
  induction cs with
  | nil => exact List.not_mem_nil
  | cons c cs ih =>
    rw [List.mem_cons, not_or] at hopen
    simp only [openBraces, if_neg (Ne.symm hopen.1)] at h
    split at h
    · cases h
    · next hclose =>
      rw [List.mem_cons, not_or]
      exact ⟨Ne.symm hclose, ih h hopen.2⟩

/-- **A presentation ends at the first brace that is not its own.** -/
theorem readSpec_balanced {depth : Nat} {spec : List Char} (h : openBraces depth spec = some 0) :
    readSpec depth (spec ++ '\x7d' :: rest) = .ok (spec, spec.contains '\x7b', rest) := by
  induction spec generalizing depth with
  | nil =>
    cases h
    rfl
  | cons c spec ih =>
    simp only [openBraces] at h
    rw [List.cons_append, readSpec]
    by_cases hopen : c = '\x7b'
    · rw [if_pos hopen] at h
      rw [if_pos hopen, ih h, hopen]
      simp
    · rw [if_neg hopen] at h
      rw [if_neg hopen, List.contains_cons, beq_eq_false_iff_ne.mpr (Ne.symm hopen),
        Bool.false_or]
      by_cases hclose : c = '\x7d'
      · rw [if_pos hclose] at h
        cases depth with
        | zero => cases h
        | succ depth =>
          simp [hclose, ih h]
      · rw [if_neg hclose] at h
        simp [hclose, ih h]

/-! ## Fields -/

/-- What a gap can ask to be made of its content: the text that it is shown as, its plain text, or
what it is shown as in ASCII alone. -/
inductive Conversion where
  | shown
  | plain
  | ascii
deriving DecidableEq

/-- The letter of a conversion. -/
def Conversion.letter : Conversion → Char
  | .shown => 'r'
  | .plain => 's'
  | .ascii => 'a'

/-- A gap that names a key and nothing below it. -/
structure Field where
  key : List Char
  conversion : Option Conversion
  spec : Option (List Char)
  isKey : IsKey key
  balanced : ∀ cs ∈ spec, IsBalanced cs

namespace Field

/-- The conversion as it is written. -/
def writtenConversion (field : Field) : List Char :=
  field.conversion.elim [] fun c => ['!', c.letter]

/-- The presentation as it is written. -/
def writtenSpec (field : Field) : List Char := field.spec.elim [] (':' :: ·)

/-- The field as it is written in a template. -/
def written (field : Field) : List Char :=
  '\x7b' :: (field.key ++ (field.writtenConversion ++ (field.writtenSpec ++ ['\x7d'])))

/-- The gap that the field is. -/
def gap (field : Field) : Gap where
  field := field.key
  conversion := field.conversion.map Conversion.letter
  spec := field.spec.getD []
  nested := (field.spec.getD []).contains '\x7b'

theorem withSpec_written {key spec : List Char} {conversion : Option Char} (h : IsBalanced spec) :
    withSpec key conversion (spec ++ '\x7d' :: rest)
      = .ok (⟨key, conversion, spec, spec.contains '\x7b'⟩, rest) := by
  rw [withSpec, readSpec_balanced h]

theorem readGap_written (field : Field) (rest : List Char) :
    readGap (field.key ++ (field.writtenConversion ++ (field.writtenSpec ++ '\x7d' :: rest)))
      = .ok (field.gap, rest) := by
  obtain ⟨key, conversion, spec, hkey, hspec⟩ := field
  cases conversion with
  | none =>
    cases spec with
    | none =>
      simp [readGap, writtenConversion, writtenSpec, gap, readName_key hkey.unmarked]
    | some spec =>
      simp [readGap, writtenConversion, writtenSpec, gap, readName_key hkey.unmarked,
        withSpec_written (hspec spec rfl)]
  | some conversion =>
    cases spec with
    | none =>
      simp [readGap, writtenConversion, writtenSpec, gap, readName_key hkey.unmarked]
    | some spec =>
      simp [readGap, writtenConversion, writtenSpec, gap, readName_key hkey.unmarked,
        withSpec_written (hspec spec rfl)]

theorem key_ne_nil (field : Field) : field.key ≠ [] := by
  obtain ⟨c, hc, -⟩ := field.isKey.named
  exact List.ne_nil_of_mem hc

theorem head_ne_brace (field : Field) {c : Char} {cs : List Char} (h : field.key = c :: cs) :
    c ≠ '\x7b' := by
  rintro rfl
  exact absurd (field.isKey.unmarked '\x7b' (h ▸ List.mem_cons_self ..)) (by decide)

/-- **A field is read as the gap that it is.** -/
theorem pieces_written (field : Field) (rest : List Char) :
    pieces (field.written ++ rest) = (.gap field.gap :: (pieces rest).1, (pieces rest).2) := by
  refine pieces_cons ?_
  have hgap := field.readGap_written rest
  cases hkey : field.key with
  | nil => exact absurd hkey field.key_ne_nil
  | cons c cs =>
    rw [hkey, List.cons_append] at hgap
    simp [readPiece, field.head_ne_brace hkey, hgap]

end Field

end CommandTree.Message
