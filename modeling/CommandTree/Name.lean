import CommandTree.Text.Blank
import CommandTree.Text.Lowercase

/-!
# Names

Nodes, parameters, aliases and the words of a grammar are named by single tokens: texts that are not
empty and hold no blank. Names are the same when they differ in the case of letters only, so a name
is filed under its *key*, its lower case.

* `Name.ne_nil`, `Name.not_mem_space`: a name is not empty and holds no space
-/

namespace CommandTree

open Text

/-- Whether a text is a single token. -/
def isToken (s : String) : Bool := !s.isEmpty && s.toList.all fun c => !isBlank c

/-- A single token. -/
structure Name where
  text : String
  isToken : isToken text = true
deriving DecidableEq

namespace Name

/-- The name that a text is, if it is a single token. -/
def ofString? (s : String) : Option Name :=
  if h : CommandTree.isToken s = true then some ⟨s, h⟩ else none

/-- What a name is filed under: its lower case. -/
def key (name : Name) : String := lowercase name.text

theorem text_of_ofString? {s : String} {name : Name} (h : ofString? s = some name) :
    name.text = s := by
  unfold ofString? at h
  split at h
  · cases h; rfl
  · cases h

theorem ofString?_text (name : Name) : ofString? name.text = some name := by
  simp [ofString?, name.isToken]

theorem ne_nil (name : Name) : name.text.toList ≠ [] := by
  have h := name.isToken
  intro hnil
  have : name.text = "" := String.toList_eq_nil_iff.1 hnil
  rw [this] at h
  simp [CommandTree.isToken] at h

theorem not_mem_space (name : Name) : ' ' ∉ name.text.toList := by
  have h := name.isToken
  intro hmem
  simp only [CommandTree.isToken, Bool.and_eq_true, List.all_eq_true] at h
  have := h.2 ' ' hmem
  simp [isBlank_space] at this

end Name

end CommandTree
