import CommandTree.Fault

/-!
# Cursors

A cursor is a position in a text, from which characters, words and all the rest can be read. A host
may put a cursor anywhere: a negative position counts from the end, and behind the end there is
nothing to read.

* `readWord_within`: inside the text, a word is the longest text without a space
-/

namespace CommandTree

/-- Whether the character is part of a word. -/
def isWordChar (c : Char) : Bool := c != ' '

/-- A position in a text. -/
structure Cursor where
  text : String
  position : Int
deriving DecidableEq

namespace Cursor

/-- The number of characters of the text. -/
def length (c : Cursor) : Nat := c.text.toList.length

/-- Whether that many characters can be read. -/
def canRead (c : Cursor) (count : Int) : Bool := decide (c.position + count ≤ c.length)

/-- The characters ahead; from a negative position on, the text is read through to its end and then
again from its start. None if the position lies before the text. -/
def ahead? (c : Cursor) : Option (List Char) :=
  let cs := c.text.toList
  if 0 ≤ c.position then some (cs.drop c.position.toNat)
  else if c.position < -(cs.length : Int) then none
  else some (cs.drop (cs.length + c.position).toNat ++ cs)

/-- The next character. -/
def peek (c : Cursor) : Except Fault Char :=
  match c.ahead? with
  | some (next :: _) => .ok next
  | _ => .error (.datum .outOfText)

/-- The cursor moved by one character. -/
def skip (c : Cursor) : Cursor := { c with position := c.position + 1 }

/-- The text from a position up to the cursor. -/
def since (c : Cursor) (start : Int) : String :=
  String.ofList (stretch c.text.toList start c.position)

/-- The word ahead, which may be empty, and the cursor behind it. -/
def readWord (c : Cursor) : Except Fault (String × Cursor) :=
  match c.ahead? with
  | none => .error (.datum .outOfText)
  | some cs =>
    let behind : Cursor := { c with position := c.position + (cs.takeWhile isWordChar).length }
    .ok (behind.since c.position, behind)

/-- The cursor at the end of the text. -/
def atEnd (c : Cursor) : Cursor := { c with position := c.length }

/-- All that is ahead, and the cursor at the end. -/
def readRest (c : Cursor) : String × Cursor := (c.atEnd.since c.position, c.atEnd)

/-- The failure of a complaint about the text, at a position or at none. -/
def failureAt (c : Cursor) (complaint : Complaint) (position : Option Int) : ParseFailure :=
  ⟨complaint, some c.text, position⟩

/-- The failure of a complaint at the cursor. -/
def failure (c : Cursor) (complaint : Complaint) : ParseFailure :=
  c.failureAt complaint (some c.position)

theorem readWord_within (s : String) {n : Nat} (h : n ≤ s.toList.length) :
    (⟨s, n⟩ : Cursor).readWord
      = .ok (String.ofList ((s.toList.drop n).takeWhile isWordChar),
          ⟨s, (n + ((s.toList.drop n).takeWhile isWordChar).length : Nat)⟩) := by
  have hahead : (⟨s, n⟩ : Cursor).ahead? = some (s.toList.drop n) := by
    simp [ahead?]
  have hstretch : stretch s.toList n (n + ((s.toList.drop n).takeWhile isWordChar).length : Nat)
      = (s.toList.drop n).takeWhile isWordChar := by
    rw [stretch_ofNat, Nat.min_eq_left h, List.drop_take]
    rw [show n + ((s.toList.drop n).takeWhile isWordChar).length - n
      = ((s.toList.drop n).takeWhile isWordChar).length by omega]
    exact List.prefix_iff_eq_take.1 (List.takeWhile_prefix isWordChar) |>.symm
  simp only [readWord, hahead, since]
  rw [← Int.natCast_add, hstretch]

end Cursor

end CommandTree
