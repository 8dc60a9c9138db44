import CommandTree.Datum.Measured

/-!
# Failures as hosts state them

A host can state a failure to parse by itself. The input and the position that it states may be
anything, and they are looked at only when the failure is told: if both are there, the input has to
be something that can be cut, and the position an integer within it or a number behind it.

* `excerpt?_of_text`, `text_of_text`: with a text and an integer, the failure is told as one that
  the library finds itself
-/

namespace CommandTree

open Text

/-- A failure to parse as a host states it. -/
structure StatedFailure where
  message : String
  input : Datum
  position : Datum

namespace StatedFailure

/-- A step that may find the input or the position to be of no use. -/
def usable {α : Type} : Except DatumFault α → Except Fault α
  | .ok a => .ok a
  | .error f => .error (.datum f)

/-- The number at which the stretch of the input ends that is shown: the position, or the size of
the input if that is less. -/
def stop (size : Nat) (position : Datum) : Except DatumFault Number := do
  let stated ← position.comparedWith "<" (.integer size)
  .ok (if (Number.integer size).lt stated then .integer size else stated)

/-- The number that is that many characters before another one, but not before the start. -/
def start (width : Int) : Number → Int
  | .integer stop => max 0 (stop - width)
  | .double _ => 0

/-- The input before the position, up to `width` characters of it; nothing where one of the two is
not stated. -/
def excerpt? (f : StatedFailure) (width : Int) : Except Fault (Option String) :=
  match f.input.orElse .null, f.position.orElse .null with
  | .null, _ | _, .null => .ok none
  | input, position => do
    let size ← usable input.size
    let stop ← usable (stop size position)
    let part ← usable (input.cut (start width stop) stop)
    .ok (some ((if (Number.integer width).lt stop then "..." else "") ++ part.plain ++ "<--[here]"))

/-- The failure in words. -/
def text (f : StatedFailure) : Except Fault String := do
  match ← f.excerpt? ParseFailure.excerptWidth, f.position.asNumber? with
  | some excerpt, some position => do
    let place ← usable position.whole
    .ok (f.message ++ " at position " ++ integerText place ++ ": " ++ excerpt)
  | _, _ => .ok f.message

/-- The failure as a styled text. -/
def styled (w : Terminal) (f : StatedFailure) : Except Fault Styled := do
  .ok (ParseFailure.styledWith w f.message (← f.excerpt? ParseFailure.excerptWidth))

theorem stop_integer (size : Nat) (n : Int) :
    stop size (.integer n) = .ok (.integer (min n size)) := by
  simp only [stop, Datum.comparedWith_integer, bind, Except.bind, Number.lt_integer]
  by_cases h : (size : Int) < n
  · simp [h, Int.min_eq_right (Int.le_of_lt h)]
  · simp [h, Int.min_eq_left (Int.not_lt.1 h)]

theorem excerpt?_of_text (message s : String) (n width : Int) :
    excerpt? ⟨message, .string s, .integer n⟩ width
      = .ok (ParseFailure.excerpt? ⟨.stated message, some s, some n⟩ width) := by
  simp only [excerpt?, Datum.orElse, usable, Datum.size_string, stop_integer,
    start, Datum.cut_string, ParseFailure.excerpt?, Number.lt_integer, bind, Except.bind,
    Datum.plain_string, decide_eq_true_eq]

theorem text_of_text (message s : String) (n : Int) :
    text ⟨message, .string s, .integer n⟩
      = .ok (ParseFailure.text ⟨.stated message, some s, some n⟩) := by
  simp only [text, excerpt?_of_text, bind, Except.bind, Datum.asNumber?, Number.whole, usable,
    ParseFailure.text]
  rfl

end StatedFailure

end CommandTree
