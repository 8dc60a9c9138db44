import CommandTree.Cursor
import CommandTree.Name
import Mathlib.Data.List.TakeWhile

/-!
# Words and the texts that they are joined to

A word is a text without a space. Texts that are joined by single spaces can be taken apart again
from the front, word by word.

* `firstWord_append_space`, `firstWord_of_not_mem`: the first word ends at the first space
* `firstWord_append_rest`: behind the first word there is nothing, or a space
* `ne_empty_of_sameWord`: what is the same as a name is not empty
* `joined_cons`, `joined_cons_spaced`: texts are joined by one space each
-/

namespace CommandTree

/-- The characters of a text up to its first space. -/
def firstWord (cs : List Char) : List Char := cs.takeWhile isWordChar

theorem isWordChar_of_not_mem {cs : List Char} (h : ' ' ∉ cs) : ∀ c ∈ cs, isWordChar c = true := by
  intro c hc
  have hne : c ≠ ' ' := fun he => h (he ▸ hc)
  simpa [isWordChar] using hne

theorem firstWord_of_not_mem {cs : List Char} (h : ' ' ∉ cs) : firstWord cs = cs :=
  List.takeWhile_eq_self_iff.mpr (isWordChar_of_not_mem h)

theorem firstWord_append_space {word : List Char} (h : ' ' ∉ word) (rest : List Char) :
    firstWord (word ++ ' ' :: rest) = word := by
  rw [firstWord, List.takeWhile_append_of_pos (isWordChar_of_not_mem h),
    List.takeWhile_cons_of_neg (by decide), List.append_nil]

theorem space_not_mem_firstWord (cs : List Char) : ' ' ∉ firstWord cs := by
  intro h
  have hw : isWordChar ' ' = true := List.mem_takeWhile_imp h
  exact absurd hw (by decide)

/-- A text is its first word, and behind that nothing or a space and the rest. -/
theorem firstWord_split (cs : List Char) :
    cs = firstWord cs ∨ ∃ rest, cs = firstWord cs ++ ' ' :: rest := by
  have hsplit : firstWord cs ++ cs.dropWhile isWordChar = cs := List.takeWhile_append_dropWhile
  cases hd : cs.dropWhile isWordChar with
  | nil =>
    rw [hd, List.append_nil] at hsplit
    exact Or.inl hsplit.symm
  | cons c rest =>
    have hc : isWordChar c = false := by
      have hne : cs.dropWhile isWordChar ≠ [] := by simp [hd]
      have hhead := List.head_dropWhile_not isWordChar hne
      simpa [hd] using hhead
    have hspace : c = ' ' := by simpa [isWordChar] using hc
    rw [hd, hspace] at hsplit
    exact Or.inr ⟨rest, hsplit.symm⟩

theorem firstWord_append_rest (cs : List Char) :
    ∃ rest, cs = firstWord cs ++ rest ∧ (rest = [] ∨ ∃ tail, rest = ' ' :: tail) := by
  rcases firstWord_split cs with h | ⟨tail, h⟩
  · exact ⟨[], by rw [List.append_nil]; exact h, Or.inl rfl⟩
  · exact ⟨' ' :: tail, h, Or.inr ⟨tail, rfl⟩⟩

theorem lower_ne_nil {cs : List Char} (h : cs ≠ []) : Text.lower cs ≠ [] := by
  cases cs with
  | nil => exact absurd rfl h
  | cons c cs =>
    have hat : Text.lowerAt [] c cs ≠ [] := by
      unfold Text.lowerAt
      split
      · simp
      · split
        · simp
        · split <;> simp
    rw [Text.lower, Text.lowerAfter]
    exact List.append_ne_nil_of_left_ne_nil hat _

/-- A word that is the same as a name is not empty. -/
theorem ne_empty_of_sameWord {word : String} {name : Name}
    (h : Text.sameWord word name.text = true) : word ≠ "" := by
  rintro rfl
  have hlower : Text.lowercase name.text = "" := (eq_of_beq h).symm
  rw [Text.lowercase] at hlower
  have hnil := congrArg String.toList hlower
  rw [String.toList_ofList] at hnil
  exact lower_ne_nil name.ne_nil hnil

/-! ## Joining -/

/-- The characters of texts that are joined by single spaces. -/
def joined (texts : List String) : List Char := (" ".intercalate texts).toList

@[simp] theorem joined_singleton (t : String) : joined [t] = t.toList := by
  simp [joined]

theorem joined_cons {t : String} {rest : List String} (h : rest ≠ []) :
    joined (t :: rest) = t.toList ++ ' ' :: joined rest := by
  simp [joined, String.intercalate_cons_of_ne_nil h]

/-- The first word of joined texts is the first word of the first one. -/
theorem firstWord_joined (t : String) (rest : List String) :
    firstWord (joined (t :: rest)) = firstWord t.toList := by
  cases rest with
  | nil => rw [joined_singleton]
  | cons u rest =>
    rw [joined_cons (by simp)]
    rcases firstWord_split t.toList with h | ⟨tail, h⟩
    · have hspace : ' ' ∉ t.toList := h ▸ space_not_mem_firstWord t.toList
      rw [firstWord_append_space hspace, firstWord_of_not_mem hspace]
    · rw [h, List.append_assoc, List.cons_append,
        firstWord_append_space (space_not_mem_firstWord _),
        firstWord_append_space (space_not_mem_firstWord _)]

/-- The characters of texts, each behind a space. -/
def spaced (texts : List String) : List Char := texts.flatMap fun t => ' ' :: t.toList

@[simp] theorem spaced_nil : spaced [] = [] := rfl

@[simp] theorem spaced_cons (t : String) (rest : List String) :
    spaced (t :: rest) = ' ' :: (t.toList ++ spaced rest) := by
  simp [spaced]

theorem joined_cons_spaced (t : String) (rest : List String) :
    joined (t :: rest) = t.toList ++ spaced rest := by
  induction rest generalizing t with
  | nil => simp
  | cons u rest ih => rw [joined_cons (by simp), ih, spaced_cons]

theorem spaced_cases (texts : List String) :
    spaced texts = [] ∨ ∃ rest, spaced texts = ' ' :: rest := by
  cases texts with
  | nil => exact Or.inl rfl
  | cons t rest => exact Or.inr ⟨_, spaced_cons t rest⟩

/-- The first word of a text without a space that others follow is the text. -/
theorem firstWord_append_spaced {cs : List Char} (h : ' ' ∉ cs) (rest : List String) :
    firstWord (cs ++ spaced rest) = cs := by
  rcases spaced_cases rest with hnil | ⟨tail, hcons⟩
  · rw [hnil, List.append_nil, firstWord_of_not_mem h]
  · rw [hcons, firstWord_append_space h]

end CommandTree
