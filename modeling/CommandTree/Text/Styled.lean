/-!
# Styled texts

A styled text is a plain text with a style of its own and spans that have styles of their own. Which
characters are left out of what is written to it is for the terminal to say: they are controls, such
as would ring, move or erase.

* `clean_clean`: cleaning twice is cleaning once
* `clean_of_printed`: only controls are ever left out
-/

namespace CommandTree.Text

/-- What a terminal does not take as a part of a text. -/
structure Terminal where
  /-- Whether a character is left out. -/
  drops : Char → Bool
  /-- Only controls are left out. -/
  control : ∀ c, drops c = true → c.toNat < 32

namespace Terminal

/-- The usual terminal leaves out bell, backspace, vertical tab, form feed and carriage return. -/
def usual : Terminal where
  drops c := [7, 8, 11, 12, 13].contains c.toNat
  control c h := by
    have hall : ∀ n ∈ [7, 8, 11, 12, 13], n < 32 := by decide
    exact hall _ (List.contains_iff_mem.mp h)

variable {w : Terminal} {cs : List Char}

/-- The text without what the terminal leaves out. -/
def clean (w : Terminal) (cs : List Char) : List Char := cs.filter fun c => !w.drops c

/-- The text without what the terminal leaves out. -/
def cleaned (w : Terminal) (s : String) : String := String.ofList (w.clean s.toList)

theorem clean_append (left right : List Char) :
    w.clean (left ++ right) = w.clean left ++ w.clean right :=
  List.filter_append ..

theorem clean_clean : w.clean (w.clean cs) = w.clean cs := by
  simp [clean, List.filter_filter]

theorem not_drops {c : Char} (h : 32 ≤ c.toNat) : w.drops c = false := by
  rw [Bool.eq_false_iff]
  exact fun hdrops => absurd (w.control c hdrops) (Nat.not_lt.mpr h)

theorem mem_clean_iff {c : Char} (h : 32 ≤ c.toNat) : c ∈ w.clean cs ↔ c ∈ cs := by
  simp [clean, not_drops h]

theorem clean_of_printed (h : ∀ c ∈ cs, 32 ≤ c.toNat) : w.clean cs = cs :=
  List.filter_eq_self.mpr fun c hc => by rw [not_drops (h c hc)]; rfl

theorem clean_singleton {c : Char} (h : 32 ≤ c.toNat) : w.clean [c] = [c] :=
  clean_of_printed (List.forall_mem_singleton.mpr h)

theorem cleaned_append (s t : String) : w.cleaned (s ++ t) = w.cleaned s ++ w.cleaned t := by
  rw [cleaned, String.toList_append, clean_append, String.ofList_append]
  rfl

end Terminal

/-- A stretch of a text with a style: from its start up to its end. -/
structure Span where
  start : Nat
  stop : Nat
  style : String
deriving DecidableEq

/-- A text with a style, and spans with styles of their own. -/
structure Styled where
  plain : String
  style : String
  spans : List Span
deriving DecidableEq

namespace Styled

/-- A text in one style, for a terminal. -/
def ofText (w : Terminal) (s style : String) : Styled := ⟨w.cleaned s, style, []⟩

/-- The text with more at the end, in a style of its own unless that is empty. -/
def append (w : Terminal) (t : Styled) (s style : String) : Styled :=
  if s.isEmpty then t
  else
    let start := t.plain.length
    let more := w.cleaned s
    { t with
      plain := t.plain ++ more
      spans := if style.isEmpty then t.spans
        else t.spans ++ [⟨start, start + more.length, style⟩] }

end Styled

end CommandTree.Text
