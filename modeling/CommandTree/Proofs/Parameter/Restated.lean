import CommandTree.Proofs.Parameter.Agreement
import CommandTree.Proofs.Parameter.Fields

/-!
# Replacing fields by what they are

A replacement that gives fields of a parameter what they already hold leaves the parameter as it is,
with one exception. Giving the type, even the same one, drops the limits that are not given with it:
they are then what they are where nothing is given. So the parameter stays the same exactly if those
limits were that already.

* `Parameter.replace_entries`: what such a replacement leads to
* `Parameter.replace_entries_same_iff`: when it changes nothing
-/

namespace CommandTree.Parameter

variable {p : Parameter} {fs : List Field}

/-- Whether a limit is kept when some fields are given again: it is given, or the type is not. -/
def keptBy (fs : List Field) (l : LimitName) : Bool := Field.limit l ∈ fs || Field.type ∉ fs

theorem widened_keptBy_nil (p : Parameter) : p.widened (keptBy []) = p := by
  obtain ⟨label, name, domain, optional, sound⟩ := p
  cases domain <;> rfl

theorem any_entries_type (p : Parameter) (fs : List Field) :
    ((fs.map p.entry).any fun entry => entry.1 = "type") = decide (Field.type ∈ fs) := by
  rw [List.any_map, Bool.eq_iff_iff, List.any_eq_true, decide_eq_true_eq]
  constructor
  · rintro ⟨f, hf, hword⟩
    have htype : f = .type := Field.word_inj (of_decide_eq_true hword)
    exact htype ▸ hf
  · exact fun h => ⟨.type, h, rfl⟩

/-- What is given again, over what is carried, is a choice of the parameter's own fields. -/
theorem restated_eq_own (h : ∀ l, Field.limit l ∈ fs → p.type.hasLimit l = true) (f : Field) :
    (said (fs.map p.entry) f).or (said (p.carried (decide (Field.type ∈ fs))) f)
      = p.own (keptBy fs) f := by
  rw [said_map_entry, carried_eq_map, said_map_entry]
  simp only [mem_carriedFields_iff]
  cases f with
  | name | type | greedy | optional =>
    simp only [carries, own, if_true]
    split <;> rfl
  | limit l =>
    by_cases hmem : Field.limit l ∈ fs
    · simp [own, keptBy, hmem, h l hmem, field]
    · by_cases htype : Field.type ∈ fs <;>
        simp [own, keptBy, hmem, htype, carries, field]

/-- Giving fields again leads to the parameter with the limits widened that are not kept. -/
theorem replace_entries (h : ∀ l, Field.limit l ∈ fs → p.type.hasLimit l = true) :
    p.replace false (fs.map p.entry) = .ok (p.widened (keptBy fs)) := by
  have hwords : ∀ entry ∈ fs.map p.entry, ∃ f : Field, entry.1 = f.word := by
    intro entry hentry
    obtain ⟨f, -, rfl⟩ := List.mem_map.mp hentry
    exact ⟨f, rfl⟩
  rw [replace_eq p hwords, any_entries_type]
  have hown := funext (restated_eq_own h)
  rw [hown]
  exact p.declareChosen_own (keptBy fs)

/--
**Giving fields of a parameter again changes nothing, unless the type is among them.** With the
type, a limit that is not given becomes what it usually is; so nothing changes exactly if all of
these are that already.
-/
theorem replace_entries_same_iff (p : Parameter) {fs : List Field}
    (h : ∀ l, Field.limit l ∈ fs → p.type.hasLimit l = true) :
    ∃ q, p.replace false (fs.map p.entry) = .ok q ∧
      (∀ f, (∀ l, f ≠ .limit l) → q.field f = p.field f) ∧
      (∀ l, q.limit l = if Field.limit l ∈ fs ∨ Field.type ∉ fs then p.limit l
        else p.type.usualLimit l) ∧
      ((∀ f, q.field f = p.field f) ↔
        (Field.type ∈ fs → ∀ l, p.type.hasLimit l = true → Field.limit l ∉ fs →
          p.limit l = p.type.usualLimit l)) := by
  have hlimit : ∀ l, (p.widened (keptBy fs)).limit l
      = if Field.limit l ∈ fs ∨ Field.type ∉ fs then p.limit l else p.type.usualLimit l := by
    intro l
    rw [limit_widened]
    simp [keptBy]
  refine ⟨_, replace_entries h, fun f hf => p.field_widened _ hf, hlimit, ?_⟩
  constructor
  · intro hsame htype l hhas hmem
    have hl := hlimit l
    rw [if_neg (by simp [hmem, htype])] at hl
    exact (hsame (.limit l)).symm.trans hl
  · intro husual f
    cases f with
    | name | type | greedy | optional => exact p.field_widened _ nofun
    | limit l =>
      refine (hlimit l).trans ?_
      split
      · rfl
      · next hdropped =>
        obtain ⟨hmem, htype⟩ := not_or.mp hdropped
        cases hhas : p.type.hasLimit l with
        | false => exact (limit_of_not_hasLimit hhas).symm
        | true => exact (husual (Classical.not_not.mp htype) l hhas hmem).symm

/-- An amount is the same when its type is given again together with its limits. -/
theorem replace_entries_same_amount :
    (∀ l, Field.limit l ∈ [Field.type, .limit .least, .limit .greatest] →
        amountParameter.type.hasLimit l = true) ∧
      ∃ q, amountParameter.replace false
          ([Field.type, .limit .least, .limit .greatest].map amountParameter.entry) = .ok q ∧
        ∀ f, q.field f = amountParameter.field f := by
  have hhas : ∀ l, Field.limit l ∈ [Field.type, .limit .least, .limit .greatest] →
      amountParameter.type.hasLimit l = true := by
    intro l hl
    cases l with
    | least | greatest => rfl
    | minLength | maxLength => exact absurd hl (by decide)
  obtain ⟨q, hq, -, -, hsame⟩ := replace_entries_same_iff amountParameter hhas
  refine ⟨hhas, q, hq, hsame.mpr fun _ l hl hmem => ?_⟩
  cases l with
  | least | greatest => exact absurd (by decide) hmem
  | minLength | maxLength => cases hl

/-- An amount loses its limits when its type is given again, though the type stays the same. -/
theorem retyped_amount_differs :
    ∃ q, amountParameter.replace false ([Field.type].map amountParameter.entry) = .ok q ∧
      q.type = amountParameter.type ∧ q.least ≠ amountParameter.least ∧
      ¬ ∀ f, q.field f = amountParameter.field f := by
  have hleast : (amountParameter.widened (keptBy [.type])).least ≠ amountParameter.least := by
    intro h
    cases h
  exact ⟨_, replace_entries (by simp), rfl, hleast, fun hsame => hleast (hsame (.limit .least))⟩

end CommandTree.Parameter
