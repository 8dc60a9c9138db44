import CommandTree.Datum.Shown
import CommandTree.Text.Styled

/-!
# Failures to parse

When an input fits no path of the grammar, the failure says what was wrong, with which input, and at
which position of it. The text of the failure shows the input just before that position.
-/

namespace CommandTree

open Text

/-- What can be wrong with an input. -/
inductive Complaint where
  /-- There is no token where one of this kind should be. -/
  | missing (kind : String)
  /-- The token is not of the kind that it should be. -/
  | malformed (kind token : String)
  | notBoolean (token : String)
  | tooLow (kind : String) (least : Datum) (found : Number)
  | tooHigh (kind : String) (greatest : Datum) (found : Number)
  | tooShort (least : Int) (found : Nat)
  | tooLong (greatest : Int) (found : Nat)
  /-- Another word stands where this one should be. -/
  | otherWord (word : String)
  /-- No command begins with the first word. -/
  | unknown
  /-- More follows than the command takes. -/
  | excess
  /-- The input ends before a command is complete. -/
  | incomplete
  /-- What a host says is wrong. -/
  | stated (message : String)

namespace Complaint

/-- The complaint in words. -/
def message : Complaint → String
  | .missing kind => "expected " ++ kind
  | .malformed kind token => "invalid " ++ kind ++ " " ++ quoted token
  | .notBoolean token => "invalid boolean, expected true or false but found " ++ quoted token
  | .tooLow kind least found =>
    kind ++ " must not be less than " ++ least.plain ++ ", found " ++ found.text
  | .tooHigh kind greatest found =>
    kind ++ " must not be more than " ++ greatest.plain ++ ", found " ++ found.text
  | .tooShort least found =>
    "string must be at least " ++ integerText least ++ " characters, found " ++ Nat.repr found
  | .tooLong greatest found =>
    "string must be at most " ++ integerText greatest ++ " characters, found " ++ Nat.repr found
  | .otherWord word => "expected literal " ++ quoted word
  | .unknown => "unknown command"
  | .excess => "incorrect argument for command"
  | .incomplete => "unknown or incomplete command"
  | .stated message => message

end Complaint

/-! ## Positions in a text -/

/-- The place among `length` items that a position means as the limit of a stretch: a negative one
counts from the end, and one outside means the nearer end. -/
def stretchLimit (length : Nat) (position : Int) : Nat :=
  if position < 0 then (length + position).toNat else min position.toNat length

/-- The stretch of a list between two positions. -/
def stretch {α : Type} (cs : List α) (start stop : Int) : List α :=
  (cs.take (stretchLimit cs.length stop)).drop (stretchLimit cs.length start)

theorem stretch_ofNat {α : Type} (cs : List α) (start stop : Nat) :
    stretch cs start stop = (cs.take stop).drop (min start cs.length) := by
  have h1 : ¬ ((start : Int) < 0) := by omega
  have h2 : ¬ ((stop : Int) < 0) := by omega
  simp only [stretch, stretchLimit, h1, h2, if_false, Int.toNat_natCast]
  congr 1
  rcases Nat.le_total stop cs.length with h | h
  · rw [Nat.min_eq_left h]
  · rw [Nat.min_eq_right h, List.take_of_length_le h, List.take_of_length_le (Nat.le_refl _)]

/-! ## Failures -/

/-- What was wrong, with which input, and where. -/
structure ParseFailure where
  complaint : Complaint
  input : Option String
  position : Option Int

namespace ParseFailure

/-- The failure without its place, in words. -/
def message (f : ParseFailure) : String := f.complaint.message

/-- The input before the position where parsing failed, up to `width` characters of it. -/
def excerpt? (f : ParseFailure) (width : Int) : Option String :=
  match f.input, f.position with
  | some input, some position =>
    let cs := input.toList
    let stop := min position cs.length
    some ((if width < stop then "..." else "")
      ++ String.ofList (stretch cs (max 0 (stop - width)) stop) ++ "<--[here]")
  | _, _ => none

/-- The width of the excerpts that failures show by themselves. -/
def excerptWidth : Int := 10

/-- The failure in words. -/
def text (f : ParseFailure) : String :=
  match f.excerpt? excerptWidth, f.position with
  | some excerpt, some position =>
    f.message ++ " at position " ++ integerText position ++ ": " ++ excerpt
  | _, _ => f.message

/-- A message and an excerpt, where there is one, as a styled text. -/
def styledWith (w : Terminal) (message : String) (excerpt : Option String) : Styled :=
  let head := Styled.ofText w message "bold #FF4DA6"
  match excerpt with
  | some excerpt => (head.append w " → " "#9CE19C dim").append w excerpt "italic #C8C8D0"
  | none => head

/-- The failure as a styled text. -/
def styled (w : Terminal) (f : ParseFailure) : Styled :=
  styledWith w f.message (f.excerpt? excerptWidth)

end ParseFailure

end CommandTree
