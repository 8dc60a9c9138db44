import CommandTree.Text.PrintableTable
import CommandTree.Text.Ranges

/-!
# Quoted texts

A text is shown between quotes, with an escape for each character that cannot be shown. Single
quotes are used, unless the text holds one and no double quote.

* `asciiOnly_ascii`: a text in ASCII is left as it is
-/

namespace CommandTree.Text

/-- Whether the character is shown as it is. -/
def isPrintable (c : Char) : Bool :=
  if c.toNat < 0x7F then decide (0x20 ≤ c.toNat) else !covers unprintableRanges c.toNat

/-- The quote that a text is put between. -/
def quoteOf (cs : List Char) : Char :=
  if cs.contains '\'' && !cs.contains '"' then '"' else '\''

/-- A number in base sixteen, with zeros in front up to the given width. -/
def hexPadded (width n : Nat) : List Char :=
  let digits := Nat.toDigits 16 n
  List.replicate (width - digits.length) '0' ++ digits

/-- The escape of a character by its code point, in the shortest of three widths. -/
def pointEscape (c : Char) : List Char :=
  if c.toNat < 0x100 then '\\' :: 'x' :: hexPadded 2 c.toNat
  else if c.toNat < 0x10000 then '\\' :: 'u' :: hexPadded 4 c.toNat
  else '\\' :: 'U' :: hexPadded 8 c.toNat

/-- A character between two quotes. -/
def escaped (quote c : Char) : List Char :=
  if c = quote || c = '\\' then ['\\', c]
  else if c = '\n' then ['\\', 'n']
  else if c = '\r' then ['\\', 'r']
  else if c = '\t' then ['\\', 't']
  else if isPrintable c then [c]
  else pointEscape c

/-- The text between quotes. -/
def quoted (s : String) : String :=
  let quote := quoteOf s.toList
  String.ofList (quote :: s.toList.flatMap (escaped quote) ++ [quote])

/-- The text with an escape for each character that is not ASCII. -/
def asciiOnly (s : String) : String :=
  String.ofList (s.toList.flatMap fun c => if c.toNat < 0x80 then [c] else pointEscape c)

theorem asciiOnly_ascii {s : String} (h : ∀ c ∈ s.toList, c.toNat < 0x80) : asciiOnly s = s := by
  have key : ∀ cs : List Char, (∀ c ∈ cs, c.toNat < 0x80) →
      cs.flatMap (fun c => if c.toNat < 0x80 then [c] else pointEscape c) = cs := by
    intro cs hcs
    induction cs with
    | nil => rfl
    | cons c cs ih =>
      have hc : c.toNat < 0x80 := hcs c (by simp)
      simp only [List.flatMap_cons, hc, if_true, List.singleton_append]
      rw [ih fun x hx => hcs x (List.mem_cons_of_mem _ hx)]
  rw [asciiOnly, key _ h, String.ofList_toList]

end CommandTree.Text
