import CommandTree.Text.Ranges

/-!
# Blank characters

The characters that separate words for a reader: the blanks and line ends of every script, and the
separators among the control characters. A name may hold none of them, and a text is trimmed of
them at both ends.

* `trim_trim`: trimming twice is trimming once
-/

namespace CommandTree.Text

/-- The code points of the blank characters. -/
def blankRanges : List (Nat × Nat) :=
  [(0x9, 0xD), (0x1C, 0x20), (0x85, 0x85), (0xA0, 0xA0), (0x1680, 0x1680), (0x2000, 0x200A),
   (0x2028, 0x2029), (0x202F, 0x202F), (0x205F, 0x205F), (0x3000, 0x3000)]

/-- Whether the character is blank. -/
def isBlank (c : Char) : Bool := covers blankRanges c.toNat

theorem isBlank_space : isBlank ' ' = true := by decide

/-! ## Trimming -/

/-- The text without the characters of a class that it ends in. -/
def trimEnd (drop : Char → Bool) : List Char → List Char
  | [] => []
  | c :: cs =>
    match trimEnd drop cs with
    | [] => if drop c then [] else [c]
    | rest => c :: rest

/-- The text without the characters of a class at its two ends. -/
def trimBoth (drop : Char → Bool) (cs : List Char) : List Char := trimEnd drop (cs.dropWhile drop)

/-- The text without the blanks at its two ends. -/
def trim (cs : List Char) : List Char := trimBoth isBlank cs

theorem trimEnd_trimEnd (drop : Char → Bool) (cs : List Char) :
    trimEnd drop (trimEnd drop cs) = trimEnd drop cs := by
  induction cs with
  | nil => rfl
  | cons c cs ih =>
    cases h : trimEnd drop cs with
    | nil =>
      by_cases hc : drop c = true
      · simp [trimEnd, h, hc]
      · simp [trimEnd, h, hc]
    | cons d ds =>
      rw [h] at ih
      have hc : trimEnd drop (c :: cs) = c :: d :: ds := by simp only [trimEnd, h]
      rw [hc, trimEnd, ih]

theorem trimEnd_head {drop : Char → Bool} {c : Char} {cs ds : List Char}
    (h : trimEnd drop cs = c :: ds) : ∃ rest, cs = c :: rest := by
  cases cs with
  | nil => simp [trimEnd] at h
  | cons x xs =>
    cases hx : trimEnd drop xs with
    | nil =>
      by_cases hb : drop x = true
      · simp [trimEnd, hx, hb] at h
      · simp [trimEnd, hx, hb] at h
        exact ⟨xs, by rw [h.1]⟩
    | cons y ys =>
      simp [trimEnd, hx] at h
      exact ⟨xs, by rw [h.1]⟩

theorem trimBoth_trimBoth (drop : Char → Bool) (cs : List Char) :
    trimBoth drop (trimBoth drop cs) = trimBoth drop cs := by
  unfold trimBoth
  cases h : trimEnd drop (cs.dropWhile drop) with
  | nil => rfl
  | cons c ds =>
    obtain ⟨rest, hrest⟩ := trimEnd_head h
    have hc : drop c = false := by
      have hne : cs.dropWhile drop ≠ [] := by simp [hrest]
      have := List.head_dropWhile_not drop hne
      simpa [hrest] using this
    have hd : (c :: ds).dropWhile drop = c :: ds := by simp [List.dropWhile, hc]
    rw [hd, ← h, trimEnd_trimEnd]

theorem trim_trim (cs : List Char) : trim (trim cs) = trim cs := trimBoth_trimBoth isBlank cs

/-- The text without the blanks at its two ends. -/
def trimmed (s : String) : String := String.ofList (trim s.toList)

end CommandTree.Text
