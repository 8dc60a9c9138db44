import CommandTree.Parameter.Declaration

/-!
# Building parameters step by step

A builder holds a name and the options set so far. Nothing but the name is checked before the
parameter is built, so options can be set in any order. A builder does not change: a step gives
another one, and the first can be used again.

* `step_told`: a step that is told one thing sets its option to that
-/

namespace CommandTree.Parameter

/-- A name and options for a parameter; `label` is the word for the parameter in messages. -/
structure Builder where
  label : String
  name : Name
  options : Catalog Datum

namespace Builder

/-- The builder of a name, without options. -/
def start (label : String) (name : Datum) : Except Fault Builder := do
  let name ← Name.declare defaultLabel name
  .ok ⟨label, name, .empty⟩

/-- The builder with the option of the given word set. -/
def set (b : Builder) (word : String) (d : Datum) : Builder :=
  { b with options := b.options.put word d }

/-- The options that a step sets, with what it sets them to where it is told nothing; most steps
have to be told. -/
def options? (word : String) : Option (Option Datum) :=
  [("type", none), ("min", none), ("max", none), ("min_len", none), ("max_len", none),
   ("greedy", some (.boolean true)), ("optional", some (.boolean true))].lookup word

/-- The builder after the step of the given word, which is told at most one thing. -/
def step (b : Builder) (word : String) (told : List Datum) : Except Fault Builder :=
  let operation := "ArgumentBuilder." ++ word
  match options? word, told with
  | none, _ => .error (.datum (.noAttribute "ArgumentBuilder" word))
  | some _, [d] | some (some d), [] => .ok (b.set word d)
  | some none, [] => .error (.use (.argumentMissing operation word))
  | some usual, told =>
    let least := if usual.isSome then 1 else 2
    .error (.use (.argumentsExceeded operation least 2 (told.length + 1)))

/-- The parameter of the name and the options. -/
def build (b : Builder) : Except Fault Parameter :=
  declareWith b.label (.string b.name.text) b.options.entries

theorem step_told {word : String} {usual : Option Datum} (h : options? word = some usual)
    (b : Builder) (d : Datum) : b.step word [d] = .ok (b.set word d) := by
  cases usual <;> simp [step, h]

/-- The builder as it is shown. -/
def shown (b : Builder) : String :=
  "argument-builder(" ++ Text.quoted b.name.text
    ++ String.join (b.options.entries.map fun entry => ", " ++ entry.1 ++ "=" ++ entry.2.shown)
    ++ ")"

end Builder

end CommandTree.Parameter
