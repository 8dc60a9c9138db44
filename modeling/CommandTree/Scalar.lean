import CommandTree.Datum.Basic
import CommandTree.Text.Lowercase

/-!
# Scalars

A scalar is what a token of an input is read as: a text, an integer, a double or a truth value.

* `toDatum_inj`: different scalars are different data
-/

namespace CommandTree

open Text

/-- What a token is read as. -/
inductive Scalar where
  | text (s : String)
  | integer (n : Int)
  | double (x : Double)
  | boolean (b : Bool)
deriving DecidableEq

/-- The truth value that a text writes, in letters of any case. -/
def truthValue? (s : String) : Option Bool :=
  if lowercase s = "true" then some true
  else if lowercase s = "false" then some false
  else none

namespace Scalar

/-- The scalar as a datum. -/
def toDatum : Scalar → Datum
  | .text s => .string s
  | .integer n => .integer n
  | .double x => .double x
  | .boolean b => .boolean b

/-- The scalar as a number, if it is one. -/
def number? : Scalar → Option Number
  | .integer n => some (.integer n)
  | .double x => some (.double x)
  | .text _ | .boolean _ => none

theorem toDatum_inj {a b : Scalar} (h : a.toDatum = b.toDatum) : a = b := by
  cases a <;> cases b <;> simp_all [toDatum]

end Scalar

end CommandTree
