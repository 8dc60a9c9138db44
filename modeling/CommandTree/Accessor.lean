import CommandTree.Datum.Items

/-!
# Read-only accessors

An accessor hands out what a thing keeps for itself, under a name of its own. Collections are handed
out as copies that do not change, and nothing can be set through an accessor.

* `get_get`: what was handed out can be handed out again
-/

namespace CommandTree

/-- Access to something that is kept, by the name that it is handed out under. -/
structure Accessor where
  name : String
deriving DecidableEq

namespace Accessor

/-- The accessor of a name. -/
def declare (name : Datum) : Except Fault Accessor :=
  match name with
  | .string name => .ok ⟨name⟩
  | _ => .error (.renaming .accessorNotText)

/-- What is handed out of what is kept. -/
def get (_ : Accessor) (kept : Datum) : Datum := kept.frozen

/-- Why nothing can be set. -/
def set (a : Accessor) (_ : Datum) : Except Fault Unit := .error (.renaming (.readOnly a.name))

theorem get_get (a : Accessor) (kept : Datum) : a.get (a.get kept) = a.get kept :=
  Datum.frozen_frozen kept

end Accessor

end CommandTree
