import CommandTree.Fault

/-!
# Functions under other names

A function can be given another name, at once or later: called with a function and a name, the
function itself gets the name; called with a name alone, the result is a function that gives that
name to the one it is applied to.
-/

namespace CommandTree

/-- What renaming makes: a function with its new name, or one that gives a name to others. -/
inductive Renaming where
  | named (name : String)
  | giving (name : String)
deriving DecidableEq

namespace Renaming

/-- The name of the functions that give names to others. -/
def giverName : String := "rename"

/-- The name that a function has after it was given one. -/
def renamed (function : Datum) (name : String) : Except Fault String :=
  match function with
  | .function _ => .ok name
  | .builtin _ => .error (.renaming .notRenamable)
  | _ => .error (.renaming .notCallable)

/-- What is made of a function and a name, or of a name alone. -/
def of (parts : List Datum) : Except Fault Renaming :=
  match parts with
  | [function, name] =>
    if !function.isCallable then .error (.renaming .notCallable)
    else match name with
      | .string name => .named <$> renamed function name
      | _ => .error (.renaming .nameNotText)
  | [.string name] => .ok (.giving name)
  | [_] => .error (.renaming .onlyNameNotText)
  | parts => .error (.renaming (.count parts.length))

/-- The name of what was made. -/
def name : Renaming → String
  | .named name => name
  | .giving _ => giverName

/-- The name of what results when what was made is applied. A function that was named gives nothing,
and nothing has no name. -/
def apply (r : Renaming) (function : Datum) : Except Fault String :=
  match r with
  | .named _ => .error (.datum (.noAttribute Datum.null.kindName "__name__"))
  | .giving name =>
    if function.isCallable then renamed function name
    else .error (.renaming .appliedToNonCallable)

end Renaming

end CommandTree
