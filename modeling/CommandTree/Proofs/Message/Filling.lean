import CommandTree.Proofs.Decimal.Written
import CommandTree.Proofs.Message.Reading
import Mathlib.Data.List.TakeDrop
import Mathlib.Data.List.TakeWhile

/-!
# Filling templates part by part

A template without a mistake is filled by itself: what follows it is filled after it, and comes
behind it. A gap that names a key is filled with what stands under the key; that the key begins with
a number is no matter, unless the number is too large to be read.

* `fillWithin_append_eq_ok_iff`: a template and what follows it are filled one after the other
* `lookUp_key`: what stands under a key is found if the number in front of the key can be read
* `fillWithin_braceless`: a text without braces is left as it is
-/

namespace CommandTree.Message

open Text

variable {filling : Filling} {depth : Nat} {cs more : List Char}

/-! ## Templates -/

/-- The text that a piece becomes. -/
def fillPiece (filling : Filling) (depth : Nat) : Piece → Except Fault String
  | .char c => .ok (String.singleton c)
  | .gap g => fillGap filling depth g

theorem fillWithin_succ (filling : Filling) (depth : Nat) (cs : List Char) :
    fillWithin filling (depth + 1) cs = (do
      let texts ← (pieces cs).1.mapM (fillPiece filling depth)
      match (pieces cs).2 with
      | none => .ok (String.join texts)
      | some f => .error (.template f)) := by
  rw [fillWithin]
  rfl

theorem fillWithin_of_pieces {piece : Piece} (h : pieces cs = ([piece], none)) :
    fillWithin filling (depth + 1) cs = fillPiece filling depth piece := by
  rw [fillWithin_succ, h, List.mapM_cons]
  cases fillPiece filling depth piece with
  | error f => rfl
  | ok text => exact congrArg Except.ok String.empty_append

theorem fillWithin_append (h : (pieces cs).2 = none) :
    fillWithin filling (depth + 1) (cs ++ more) = (do
      let lead ← fillWithin filling (depth + 1) cs
      let tail ← fillWithin filling (depth + 1) more
      .ok (lead ++ tail)) := by
  rw [fillWithin_succ, fillWithin_succ, fillWithin_succ, pieces_append h, h, List.mapM_append]
  cases (pieces cs).1.mapM (fillPiece filling depth) with
  | error f => rfl
  | ok lead =>
    cases (pieces more).1.mapM (fillPiece filling depth) with
    | error f => rfl
    | ok tail =>
      show (match (pieces more).2 with
        | none => Except.ok (String.join (lead ++ tail))
        | some f => Except.error (Fault.template f)) = _
      cases (pieces more).2 with
      | some f => rfl
      | none => exact congrArg Except.ok String.join_append

/-- **A template and what follows it are filled one after the other.** -/
theorem fillWithin_append_eq_ok_iff (h : (pieces cs).2 = none) {text : String} :
    fillWithin filling (depth + 1) (cs ++ more) = .ok text ↔
      ∃ lead tail, fillWithin filling (depth + 1) cs = .ok lead ∧
        fillWithin filling (depth + 1) more = .ok tail ∧ text = lead ++ tail := by
  rw [fillWithin_append h]
  constructor
  · intro hfill
    obtain ⟨lead, hlead, hrest⟩ := exists_of_bind_eq_ok hfill
    obtain ⟨tail, htail, htext⟩ := exists_of_bind_eq_ok hrest
    cases htext
    exact ⟨lead, tail, hlead, htail, rfl⟩
  · rintro ⟨lead, tail, hlead, htail, rfl⟩
    rw [hlead, htail]
    rfl

theorem fillWithin_nil : fillWithin filling (depth + 1) [] = .ok "" := by
  rw [fillWithin_succ, show pieces [] = ([], none) by rw [pieces]]
  rfl

/-- A text without braces is left as it is. -/
theorem fillWithin_braceless (hopen : '\x7b' ∉ cs) (hclose : '\x7d' ∉ cs) :
    fillWithin filling (depth + 1) cs = .ok (String.ofList cs) := by
  induction cs with
  | nil => exact fillWithin_nil
  | cons c cs ih =>
    rw [List.mem_cons, not_or] at hopen hclose
    have hpiece : pieces [c] = ([.char c], none) := by
      rw [pieces_char (Ne.symm hopen.1) (Ne.symm hclose.1), pieces]
    rw [show c :: cs = [c] ++ cs from rfl,
      fillWithin_append_eq_ok_iff (congrArg Prod.snd hpiece)]
    exact ⟨_, _, fillWithin_of_pieces hpiece, ih hopen.2 hclose.2, String.ofList_cons⟩

/-! ## Keys -/

/-- Whether the number that a key begins with can be read. -/
def IsReadableKey (key : List Char) : Prop := digitsValue (spanDigits key).1 < numberLimit

instance (key : List Char) : Decidable (IsReadableKey key) := Nat.decLt _ _

theorem le_foldl_digits (digits : List Nat) (n : Nat) :
    n ≤ digits.foldl (fun n d => 10 * n + d) n := by
  induction digits generalizing n with
  | nil => exact Nat.le_refl n
  | cons d digits ih =>
    have hstep := ih (10 * n + d)
    rw [List.foldl_cons]
    omega

theorem readIndexFrom_key {before : Nat} (hbefore : before < numberLimit)
    (h : ∃ c ∈ cs, digitValue? c = none) :
    readIndexFrom before cs
      = if (spanDigits cs).1.foldl (fun n d => 10 * n + d) before < numberLimit then .ok none
        else .error .tooManyDigits := by
  induction cs generalizing before with
  | nil =>
    obtain ⟨c, hc, -⟩ := h
    cases hc
  | cons c cs ih =>
    rw [readIndexFrom, spanDigits]
    cases hdigit : digitValue? c with
    | none => exact (if_pos hbefore).symm
    | some d =>
      dsimp only
      rw [List.foldl_cons]
      by_cases hlimit : numberLimit ≤ 10 * before + d
      · have hmore := le_foldl_digits (spanDigits cs).1 (10 * before + d)
        rw [if_pos hlimit, if_neg (by omega)]
      · have hnamed : ∃ c' ∈ cs, digitValue? c' = none := by
          obtain ⟨c', hc', hnone⟩ := h
          rcases List.mem_cons.mp hc' with rfl | hmem
          · rw [hdigit] at hnone
            cases hnone
          · exact ⟨c', hmem, hnone⟩
        rw [if_neg hlimit]
        exact ih (by omega) hnamed

/-- A key is no place, whatever number it begins with. -/
theorem readIndex_key {key : List Char} (h : IsKey key) :
    readIndex key = if IsReadableKey key then .ok none else .error .tooManyDigits := by
  obtain ⟨c, hc, -⟩ := h.named
  rw [readIndex, if_neg (by simpa using List.ne_nil_of_mem hc),
    readIndexFrom_key (by decide) h.named]
  rfl

/-- **What stands under a key is found, if the number in front of the key can be read.** -/
theorem lookUp_key {key : List Char} (h : IsKey key) :
    lookUp filling key
      = if IsReadableKey key then .ok (.datum (filling (String.ofList key)))
        else .error (.template .tooManyDigits) := by
  have hspan : (key.span fun c => c != '.' && c != '[') = (key, []) := by
    have hall : ∀ c ∈ key, (c != '.' && c != '[') = true := by
      intro c hc
      have hunmarked := h.unmarked c hc
      simp only [endsKey, Bool.or_eq_false_iff, decide_eq_false_iff_not] at hunmarked
      simp [hunmarked.1.2, hunmarked.2]
    rw [List.span_eq_takeWhile_dropWhile, List.takeWhile_eq_self_iff.mpr hall,
      List.dropWhile_eq_nil_iff.mpr hall]
  obtain ⟨c, hc, -⟩ := h.named
  have hne : key.isEmpty = false := by simpa using List.ne_nil_of_mem hc
  rw [lookUp, hspan]
  dsimp only
  rw [readIndex_key h]
  by_cases hreadable : IsReadableKey key
  · rw [if_pos hreadable, if_pos hreadable]
    simp [refuse, hne, steps, stepsWithin, bind, Except.bind, pure, Except.pure]
  · rw [if_neg hreadable, if_neg hreadable]
    rfl

/-! ## Fields -/

theorem Field.pieces_alone (field : Field) : pieces field.written = ([.gap field.gap], none) := by
  have happend := field.pieces_written []
  rwa [List.append_nil, pieces] at happend

theorem Field.fillWithin_written (field : Field) :
    fillWithin filling (depth + 1) field.written = fillGap filling depth field.gap :=
  fillWithin_of_pieces field.pieces_alone

end CommandTree.Message
