import CommandTree.Parameter.Declaration

/-!
# Replacing options of a parameter

A parameter does not change. Replacing some of its options declares another one, from its name and
its options with the new ones put over them. Limits are carried over only where they still mean
something: those of numbers stay with a number, those of length with a string, and neither
survives a type that is given anew.
-/

namespace CommandTree.Parameter

/-- The word under which the name of a parameter is replaced. -/
def nameWord : String := "name"

/-- The word under which the parameter itself is handed to its operations. -/
def receiverWord : String := "self"

/-- The name and the options of the parameter, by their words; with a new type, without limits. -/
def carried (p : Parameter) (retyped : Bool) : List (String × Datum) :=
  [(nameWord, .string p.name.text), ("type", .valueType p.type)]
    ++ (if p.type.isNumeric && !retyped then
      [(LimitName.least.word, p.least), (LimitName.greatest.word, p.greatest)] else [])
    ++ (if p.type = .string && !retyped then
      [(LimitName.minLength.word, p.minLength), (LimitName.maxLength.word, p.maxLength)] else [])
    ++ [("greedy", .boolean p.greedy), ("optional", .boolean p.optional)]

/-- The name and the options of the parameter, with others put over them. -/
def overridden (p : Parameter) (overrides : List (String × Datum)) : Catalog Datum :=
  let retyped := overrides.any fun entry => entry.1 = "type"
  Catalog.ofList (p.carried retyped ++ overrides)

/-- The parameter that results when options of this one are replaced. Only options that are named
can be replaced; `unnamed` tells whether others were given. -/
def replace (p : Parameter) (unnamed : Bool) (overrides : List (String × Datum)) :
    Except Fault Parameter :=
  if overrides.any fun entry => entry.1 = receiverWord then
    .error (.parameter .receiverRepeated)
  else if unnamed then .error (.parameter .positional)
  else
    let all := p.overridden overrides
    declareWith p.label ((all.get? nameWord).getD .unset)
      (all.entries.filter fun entry => entry.1 ≠ nameWord)

end CommandTree.Parameter
