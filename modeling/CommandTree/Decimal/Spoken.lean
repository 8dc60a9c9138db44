import CommandTree.Decimal.Numeral
import CommandTree.Text.Blank
import CommandTree.Text.Lowercase

/-!
# Free forms of decimals

Where a host has put a text in the place of a double, the text is read freely: blanks around it are
dropped, single underscores between digits are skipped, and infinity and what is no number may be
written in words.

* `withoutUnderscores_of_not_mem`: a text without underscores is left as it is
-/

namespace CommandTree

open Text

/-- Whether the character is dropped around a decimal: every blank is, but for the separators among
the control characters. -/
def isPadding (c : Char) : Bool := isBlank c && !covers [(0x1C, 0x1F)] c.toNat

/-- The text without the underscores between its digits; `after` tells whether a digit stands before
the text. -/
def withoutUnderscores (after : Bool) : List Char → Option (List Char)
  | [] => some []
  | '_' :: c :: cs =>
    if after && isDigit c then (withoutUnderscores true cs).map (c :: ·) else none
  | '_' :: [] => none
  | c :: cs => (withoutUnderscores (isDigit c) cs).map (c :: ·)

/-- The double that a text in a free form writes. -/
def spokenDouble? (s : String) : Option Double :=
  let cs := trimBoth isPadding s.toList
  let (negative, unsigned) := splitSign cs
  let word := String.ofList (lower unsigned)
  if word = "inf" || word = "infinity" then some (.infinite negative)
  else if word = "nan" then some .nan
  else do (← DecimalNumeral.ofChars? (← withoutUnderscores false cs)).value

theorem withoutUnderscores_of_not_mem {cs : List Char} (h : '_' ∉ cs) (after : Bool) :
    withoutUnderscores after cs = some cs := by
  induction cs generalizing after with
  | nil => rfl
  | cons c cs ih =>
    simp only [List.mem_cons, not_or] at h
    rw [withoutUnderscores, ih h.2, Option.map_some]
    · rintro _ _ rfl; exact absurd rfl h.1
    · rintro rfl; exact absurd rfl h.1

end CommandTree
