import CommandTree.Proofs.Text.Words

/-!
# Reading a text word by word

A word is read up to the next space or to the end of the text, and may be empty. If one character is
skipped behind each word, the words of a whole text are read one after the other. All that is lost
on the way are the separators, one behind each word, so the words can be joined to the text again.

* `readWord_stops`: a word is the longest stretch without a space, and is cut out of the text
* `exists_readWords`: what is read from a place on can be joined to what lies ahead there
* `readWords_rejoin`: both, for a whole text
-/

namespace CommandTree

namespace Cursor

/-! ## One word -/

/-- Whether the stretch between two places of a text is the longest one from the first place on that
holds no space. -/
structure IsWordAt (cs : List Char) (n m : Nat) : Prop where
  start_le : n ≤ m
  le_length : m ≤ cs.length
  no_space : ' ' ∉ (cs.take m).drop n
  longest : ∀ k, n ≤ k → k ≤ cs.length → ' ' ∉ (cs.take k).drop n → k ≤ m
  stop : m = cs.length ∨ cs[m]? = some ' '

/-- What lies ahead begins with a word, behind which there is nothing or a space. -/
theorem exists_firstWord (cs : List Char) :
    ∃ word rest, cs = word ++ rest ∧ firstWord cs = word ∧ ' ' ∉ word ∧
      (rest = [] ∨ ∃ tail, rest = ' ' :: tail) := by
  obtain ⟨rest, hsplit, hrest⟩ := firstWord_append_rest cs
  exact ⟨firstWord cs, rest, hsplit, rfl, space_not_mem_firstWord cs, hrest⟩

/-- A stretch without a space that ends at a space or with the text is the longest one. -/
theorem isWordAt_of_split {cs word rest : List Char} {n : Nat} (h : n ≤ cs.length)
    (hsplit : cs.drop n = word ++ rest) (hword : ' ' ∉ word)
    (hrest : rest = [] ∨ ∃ tail, rest = ' ' :: tail) : IsWordAt cs n (n + word.length) := by
  have hlen := congrArg List.length hsplit
  rw [List.length_drop, List.length_append] at hlen
  have hstop : n + word.length = cs.length ∨ cs[n + word.length]? = some ' ' := by
    rcases hrest with rfl | ⟨tail, rfl⟩
    · rw [List.length_nil] at hlen
      exact Or.inl (by omega)
    · refine Or.inr ?_
      rw [← List.getElem?_drop, hsplit, List.getElem?_append_right (Nat.le_refl _), Nat.sub_self,
        List.getElem?_cons_zero]
  refine ⟨Nat.le_add_right .., by omega, ?_, fun k _ hk hno => ?_, hstop⟩
  · rw [List.drop_take, Nat.add_sub_cancel_left, hsplit, List.take_left]
    exact hword
  · -- a longer stretch would hold the space at which this one ends
    by_contra hlt
    refine hno (List.mem_iff_getElem?.mpr ⟨word.length, ?_⟩)
    rw [List.getElem?_drop, List.getElem?_take_of_lt (by omega)]
    exact hstop.resolve_left (by omega)

/-- **A word is the longest stretch without a space, and is cut out of the text.** -/
theorem readWord_stops (s : String) {n : Nat} (h : n ≤ s.toList.length) :
    ∃ m, IsWordAt s.toList n m ∧
      (⟨s, n⟩ : Cursor).readWord = .ok (String.ofList ((s.toList.take m).drop n), ⟨s, m⟩) := by
  obtain ⟨word, rest, hsplit, hfirst, hword, hrest⟩ := exists_firstWord (s.toList.drop n)
  refine ⟨_, isWordAt_of_split h hsplit hword hrest, ?_⟩
  rw [readWord_within s h, ← firstWord, hfirst, List.drop_take, Nat.add_sub_cancel_left, hsplit,
    List.take_left]

/-! ## Word after word -/

/-- The number of characters that can be read. -/
def left (c : Cursor) : Nat := (c.length - c.position).toNat

/-- A cursor does not go back over a word, and stays in its text, so behind the word and one more
character less can be read. -/
theorem left_skip_lt {c behind : Cursor} {word : String} (hread : c.canRead 1 = true)
    (h : c.readWord = .ok (word, behind)) : behind.skip.left < c.left := by
  have hcan : c.position + 1 ≤ c.length := of_decide_eq_true hread
  unfold readWord at h
  split at h
  · cases h
  · cases h
    simp only [left, skip, length] at hcan ⊢
    omega

/-- The words that are read one after the other while there is anything to read. Behind each word
one character is skipped. -/
def readWords (c : Cursor) : Except Fault (List String) :=
  if hread : c.canRead 1 = true then
    match h : c.readWord with
    | .error f => .error f
    | .ok (word, behind) =>
      have := left_skip_lt hread h
      behind.skip.readWords.map (word :: ·)
  else .ok []
termination_by c.left

/-- Words that were read one after the other, and one more if the text ends in a separator: nothing
lies behind that, so no word is read there. -/
def completed (words : List String) (cs : List Char) : List String :=
  if cs.getLast? = some ' ' then words ++ [""] else words

theorem readWords_of_end (s : String) {n : Nat} (h : s.toList.length ≤ n) :
    (⟨s, n⟩ : Cursor).readWords = .ok [] := by
  have hno : ¬ (⟨s, n⟩ : Cursor).canRead 1 = true := by
    rw [canRead, decide_eq_true_eq]
    change ¬ ((n : Int) + 1 ≤ s.toList.length)
    omega
  rw [readWords, dif_neg hno]

/-- Where there is something to read, a word is read, and then what lies behind one more
character. -/
theorem readWords_within (s : String) {n : Nat} (h : n < s.toList.length) :
    (⟨s, n⟩ : Cursor).readWords
      = (⟨s, (n + (firstWord (s.toList.drop n)).length + 1 : Nat)⟩ : Cursor).readWords.map
          (String.ofList (firstWord (s.toList.drop n)) :: ·) := by
  have hcan : (⟨s, n⟩ : Cursor).canRead 1 = true := decide_eq_true (Int.ofNat_le.mpr h)
  rw [readWords, dif_pos hcan]
  split
  · next f heq =>
    rw [readWord_within s (Nat.le_of_lt h)] at heq
    cases heq
  · next word behind heq =>
    rw [readWord_within s (Nat.le_of_lt h)] at heq
    cases heq
    rfl

theorem joined_completed_singleton {word : List Char} (h : ' ' ∉ word) :
    joined (completed [String.ofList word] word) = word := by
  have hlast : word.getLast? ≠ some ' ' := fun hl => h (List.mem_of_getLast? hl)
  rw [completed, if_neg hlast, joined_singleton, String.toList_ofList]

/-- A word, a separator, and what the words behind it are joined to. -/
theorem joined_completed_cons {word tail : List Char} {words : List String}
    (hjoin : joined (completed words tail) = tail) (hempty : tail = [] → words = []) :
    joined (completed (String.ofList word :: words) (word ++ ' ' :: tail))
      = word ++ ' ' :: tail := by
  rcases List.eq_nil_or_concat tail with rfl | ⟨front, last, rfl⟩
  · rw [hempty rfl, completed, if_pos (by simp), List.singleton_append, joined_cons (by simp),
      String.toList_ofList]
    rfl
  · have hlast : (word ++ ' ' :: front.concat last).getLast? = (front.concat last).getLast? := by
      rw [List.concat_eq_append, ← List.cons_append, ← List.append_assoc, List.getLast?_concat,
        List.getLast?_concat]
    have hne : completed words (front.concat last) ≠ [] := by
      intro hnil
      rw [hnil] at hjoin
      simp [joined] at hjoin
    have hcons : completed (String.ofList word :: words) (word ++ ' ' :: front.concat last)
        = String.ofList word :: completed words (front.concat last) := by
      rw [completed, completed, hlast]
      split <;> rfl
    rw [hcons, joined_cons hne, hjoin, String.toList_ofList]

/-- What lies behind a word and a separator. -/
theorem drop_of_split {cs word tail : List Char} {n : Nat}
    (hsplit : cs.drop n = word ++ ' ' :: tail) :
    cs.drop (n + word.length + 1) = tail ∧ n + word.length + 1 ≤ cs.length := by
  have hlen := congrArg List.length hsplit
  rw [List.length_drop, List.length_append, List.length_cons] at hlen
  refine ⟨?_, by omega⟩
  rw [Nat.add_assoc, ← List.drop_drop, hsplit, ← List.drop_drop, List.drop_left, List.drop_one,
    List.tail_cons]

/-- **What is read from a place on can be joined to what lies ahead there.** -/
theorem exists_readWords (s : String) {n : Nat} (h : n ≤ s.toList.length) :
    ∃ words, (⟨s, n⟩ : Cursor).readWords = .ok words ∧ (∀ w ∈ words, ' ' ∉ w.toList) ∧
      joined (completed words (s.toList.drop n)) = s.toList.drop n := by
  -- each word leaves less ahead, since the character behind it is skipped
  induction hlen : s.toList.length - n using Nat.strongRecOn generalizing n with
  | ind len ih =>
    rcases Nat.eq_or_lt_of_le h with rfl | hlt
    · refine ⟨[], readWords_of_end s (Nat.le_refl _), fun w hw => (by cases hw), ?_⟩
      rw [List.drop_length]
      rfl
    · obtain ⟨word, rest, hsplit, hfirst, hword, hrest⟩ := exists_firstWord (s.toList.drop n)
      have hstep := readWords_within s hlt
      rw [hfirst] at hstep
      rcases hrest with rfl | ⟨tail, rfl⟩
      · -- the last word, behind which there is no separator
        rw [List.append_nil] at hsplit
        have hend : s.toList.length ≤ n + word.length + 1 := by
          rw [← hsplit, List.length_drop]
          omega
        rw [readWords_of_end s hend] at hstep
        refine ⟨[String.ofList word], hstep, by simpa using hword, ?_⟩
        rw [hsplit]
        exact joined_completed_singleton hword
      · obtain ⟨hdrop, hnext⟩ := drop_of_split hsplit
        obtain ⟨words, hwords, hspace, hjoin⟩ := ih _ (by omega) hnext rfl
        rw [hwords] at hstep
        rw [hdrop] at hjoin
        refine ⟨String.ofList word :: words, hstep, ?_, ?_⟩
        · rw [List.forall_mem_cons, String.toList_ofList]
          exact ⟨hword, hspace⟩
        · rw [hsplit]
          refine joined_completed_cons hjoin fun htail => ?_
          rw [readWords_of_end s (List.drop_eq_nil_iff.mp (hdrop.trans htail))] at hwords
          cases hwords
          rfl

/--
**Reading words loses nothing.** From any place of a text the longest stretch without a space is
read, which may be empty: the cursor stops behind it, at a space or at the end, and the word is the
text between the two places. The words of a whole text, read one after the other with one character
skipped behind each, are joined to the text by single spaces, where one empty word more is counted
if the text ends in a space.
-/
theorem readWords_rejoin (s : String) :
    (∀ n : Nat, n ≤ s.toList.length → ∃ m : Nat, IsWordAt s.toList n m ∧
      (⟨s, n⟩ : Cursor).readWord = .ok (String.ofList ((s.toList.take m).drop n), ⟨s, m⟩)) ∧
    ∃ words, (⟨s, 0⟩ : Cursor).readWords = .ok words ∧ (∀ w ∈ words, ' ' ∉ w.toList) ∧
      " ".intercalate (completed words s.toList) = s := by
  refine ⟨fun n h => readWord_stops s h, ?_⟩
  obtain ⟨words, hwords, hspace, hjoin⟩ := exists_readWords s (Nat.zero_le _)
  exact ⟨words, hwords, hspace, String.toList_inj.mp hjoin⟩

/-- A space at the start has an empty word before it, and so has one behind another. -/
example : (⟨" a  b ", 0⟩ : Cursor).readWords.toOption = some ["", "a", "", "b"] := by decide +kernel

end Cursor

end CommandTree
