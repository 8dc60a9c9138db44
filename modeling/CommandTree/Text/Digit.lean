import CommandTree.Text.Ranges

/-!
# Decimal digits

The decimal digits of every script. A script keeps its ten digits together, from zero to nine, so
the table, that of Unicode 15.1, holds one code point per script: that of its zero.

* `digitValue?_lt`: the value of a digit is below ten
* `digitValue?_digitChar`: the ASCII digit of a value has that value
-/

namespace CommandTree.Text

/-- The code points of the zeros. -/
def digitZeros : List Nat :=
  [0x30, 0x660, 0x6F0, 0x7C0, 0x966, 0x9E6, 0xA66, 0xAE6, 0xB66, 0xBE6, 0xC66, 0xCE6, 0xD66, 0xDE6,
   0xE50, 0xED0, 0xF20, 0x1040, 0x1090, 0x17E0, 0x1810, 0x1946, 0x19D0, 0x1A80, 0x1A90, 0x1B50,
   0x1BB0, 0x1C40, 0x1C50, 0xA620, 0xA8D0, 0xA900, 0xA9D0, 0xA9F0, 0xAA50, 0xABF0, 0xFF10, 0x104A0,
   0x10D30, 0x11066, 0x110F0, 0x11136, 0x111D0, 0x112F0, 0x11450, 0x114D0, 0x11650, 0x116C0,
   0x11730, 0x118E0, 0x11950, 0x11C50, 0x11D50, 0x11DA0, 0x11F50, 0x16A60, 0x16AC0, 0x16B50,
   0x1D7CE, 0x1D7D8, 0x1D7E2, 0x1D7EC, 0x1D7F6, 0x1E140, 0x1E2F0, 0x1E4F0, 0x1E950, 0x1FBF0]

/-- The value of a decimal digit of any script. -/
def digitValue? (c : Char) : Option Nat :=
  (digitZeros.find? fun first => first ≤ c.toNat && c.toNat ≤ first + 9).map (c.toNat - ·)

/-- Whether the character is a decimal digit of some script. -/
def isDigit (c : Char) : Bool := (digitValue? c).isSome

/-- The ASCII digit of a value below ten. -/
def digitChar (value : Nat) : Char := Char.ofNat (0x30 + value)

theorem digitValue?_lt {c : Char} {value : Nat} (h : digitValue? c = some value) : value < 10 := by
  obtain ⟨first, hfirst, rfl⟩ := Option.map_eq_some_iff.1 h
  have := List.find?_some hfirst
  simp at this
  omega

theorem digitValue?_digitChar {value : Nat} (h : value < 10) :
    digitValue? (digitChar value) = some value := by
  have hall : ∀ v ∈ List.range 10, digitValue? (digitChar v) = some v := by decide
  exact hall value (List.mem_range.mpr h)

/-- A text in which every character is a digit, as the number that it writes. -/
def digitsValue (digits : List Nat) : Nat := digits.foldl (fun n d => 10 * n + d) 0

/-- The number that is written with a one and `n` zeros. -/
def powerOfTen (n : Nat) : Nat := Nat.pow 10 n

theorem powerOfTen_add (a b : Nat) : powerOfTen (a + b) = powerOfTen a * powerOfTen b :=
  Nat.pow_add 10 a b

theorem powerOfTen_pos (a : Nat) : 0 < powerOfTen a := Nat.pow_pos (by decide)

theorem powerOfTen_le {a b : Nat} (h : a ≤ b) : powerOfTen a ≤ powerOfTen b :=
  Nat.pow_le_pow_right (by decide) h

/-- The most digits that an integer may have to be read or written; zeros in front count. -/
def digitLimit : Nat := 4300

end CommandTree.Text
