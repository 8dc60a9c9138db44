import CommandTree.Text.CaseTable
import CommandTree.Text.Ranges

/-!
# Lower case

Names are compared in lower case. The map works on whole texts, because two letters do not map to
one letter each: a capital dotted I becomes two characters, and a capital sigma has a form of its
own at the end of a word.

* `lowercase_ascii`: on ASCII text the map is the map of its letters, one by one
-/

namespace CommandTree.Text

/-- The lower case of a letter that has one of a single character, and any other character
itself. -/
def lowerChar (c : Char) : Char :=
  match lowercaseRuns.find? fun run =>
      run.1 ≤ c.toNat && c.toNat ≤ run.2.1 && (c.toNat - run.1) % run.2.2.1 == 0 with
  | some run => Char.ofNat (run.2.2.2 + (c.toNat - run.1))
  | none => c

/-- Whether the nearest character that is not skipped is a letter with case. -/
def meetsCased : List Char → Bool
  | [] => false
  | c :: cs =>
    if covers caseIgnorableRanges c.toNat then meetsCased cs else covers casedRanges c.toNat

/-- The lower case of one character, between the text before it, read backwards, and that after. -/
def lowerAt (before : List Char) (c : Char) (after : List Char) : List Char :=
  if c.toNat < 0x80 then [lowerChar c]
  else if c.toNat = 0x130 then [Char.ofNat 0x69, Char.ofNat 0x307]
  -- a capital sigma is final behind a letter when no letter follows
  else if c.toNat = 0x3A3 then
    [if meetsCased before && !meetsCased after then Char.ofNat 0x3C2 else Char.ofNat 0x3C3]
  else [lowerChar c]

/-- The lower case of a text, given the text before it, read backwards. -/
def lowerAfter (before : List Char) : List Char → List Char
  | [] => []
  | c :: cs => lowerAt before c cs ++ lowerAfter (c :: before) cs

/-- The lower case of a text. -/
def lower (cs : List Char) : List Char := lowerAfter [] cs

/-- The lower case of a text. -/
def lowercase (s : String) : String := String.ofList (lower s.toList)

theorem lowerAfter_ascii {cs : List Char} (h : ∀ c ∈ cs, c.toNat < 0x80) (before : List Char) :
    lowerAfter before cs = cs.map lowerChar := by
  induction cs generalizing before with
  | nil => rfl
  | cons c cs ih =>
    have hc : c.toNat < 0x80 := h c (by simp)
    simp only [lowerAfter, lowerAt, hc, if_true, List.map_cons, List.singleton_append]
    rw [ih fun x hx => h x (List.mem_cons_of_mem _ hx)]

theorem lowercase_ascii {s : String} (h : ∀ c ∈ s.toList, c.toNat < 0x80) :
    lowercase s = String.ofList (s.toList.map lowerChar) := by
  rw [lowercase, lower, lowerAfter_ascii h]

/-- Two texts that differ in the case of letters only. -/
def sameWord (s t : String) : Bool := lowercase s == lowercase t

end CommandTree.Text
