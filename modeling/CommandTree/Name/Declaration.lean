import CommandTree.Fault

/-!
# Declaring names

A name that a host hands in is refused when it is no text, and when it is a text that is no single
token.

* `Name.declare_eq_ok_iff`: exactly the names are accepted, as they are written
* `Name.declare_text`: a name can be declared again
-/

namespace CommandTree

namespace Name

/-- The name that a host hands in; `role` is the word for what it names. -/
def declare (role : String) (d : Datum) : Except Fault Name :=
  match d with
  | .string s =>
    match ofString? s with
    | some name => .ok name
    | none => .error (.name (.notToken role s))
  | _ => .error (.name (.notText role))

theorem declare_eq_ok_iff {role : String} {d : Datum} {name : Name} :
    declare role d = .ok name ↔ d = .string name.text := by
  constructor
  · intro h
    unfold declare at h
    split at h
    · next s =>
      split at h
      · next hs => cases h; rw [text_of_ofString? hs]
      · cases h
    · cases h
  · rintro rfl
    simp [declare, ofString?_text]

theorem declare_text (role : String) (name : Name) : declare role (.string name.text) = .ok name :=
  declare_eq_ok_iff.2 rfl

end Name

end CommandTree
