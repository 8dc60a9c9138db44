import CommandTree.Grammar.Basic

/-!
# Searching a grammar

An input is read token by token, from the start of a grammar down. Where the next word is a word of
the grammar, only that is followed; elsewhere every slot is tried. Of all attempts the best one
counts: one that ends with the input at a branch with a callback, or else the one that has come
farthest, and among equals the first.

The search ends because each token leaves less to read; it does not matter whether the branches form
circles.

* `succeeds_better`: the better of two attempts succeeds if either of them does
* `walk_of_eligible_nil`: where nothing is tried, the search stops where it is
-/

namespace CommandTree

open Text

/-- An argument as it was read: the token, and what it was read as. -/
structure ParsedArgument where
  raw : String
  value : Scalar
deriving DecidableEq

namespace ParsedArgument

/-- The argument as it is shown. -/
def shown (a : ParsedArgument) : String :=
  "ParsedArgument(raw=" ++ quoted a.raw ++ ", value=" ++ a.value.toDatum.shown ++ ")"

end ParsedArgument

/-- A place in an input: how many characters lie before it, and what lies ahead. -/
structure Spot where
  offset : Nat
  ahead : List Char
deriving DecidableEq

/-- The place behind a number of characters. -/
def Spot.after (s : Spot) (count : Nat) : Spot := ⟨s.offset + count, s.ahead.drop count⟩

/-- What has been read so far: the arguments by name, and the branches. -/
structure Trail where
  arguments : Catalog ParsedArgument
  branches : List BranchId

/-- Nothing has been read so far. -/
def Trail.empty : Trail := ⟨.empty, []⟩

/-- What an attempt has come to. -/
structure Attempt where
  spot : Spot
  trail : Trail
  /-- Why the attempt went no further, if it was because of a token. -/
  complaint : Option Complaint

namespace Grammar

/-- Whether an attempt has reached the end of the input at a branch with a callback. -/
def succeeds (g : Grammar) (a : Attempt) : Bool :=
  a.complaint.isNone && a.spot.ahead.isEmpty
    && (a.trail.branches.getLast?.bind g.callbackOf).isSome

/-- Whether the second attempt is better than the first: it succeeds and the other does not, or they
are equal in that and it has come farther. -/
def isBetter (g : Grammar) (a b : Attempt) : Bool :=
  if g.succeeds a = g.succeeds b then decide (a.spot.offset < b.spot.offset) else g.succeeds b

/-- The better of two attempts, the first if neither is. -/
def better (g : Grammar) (a b : Attempt) : Attempt := if g.isBetter a b then b else a

theorem succeeds_better (g : Grammar) (a b : Attempt) :
    g.succeeds (g.better a b) = (g.succeeds a || g.succeeds b) := by
  unfold better isBetter
  cases ha : g.succeeds a <;> cases hb : g.succeeds b <;> simp [ha, hb] <;> split <;> simp [ha, hb]

/-- The best of the attempts, the first of equals. -/
def best? (g : Grammar) : List Attempt → Option Attempt
  | [] => none
  | a :: rest => some (rest.foldl g.better a)

/-- The branches under a branch that are tried where the given word is next. -/
def eligible (g : Grammar) (id : BranchId) (word : String) : List BranchId :=
  let children := (g.childrenOf id).items
  let words := children.filter fun child => (g.branch? child).any (·.matchesWord word)
  if words.isEmpty then children.filter fun child => (g.branch? child).any Branch.isSlot else words

/-- What a branch reads from what is ahead: the token, and the argument that it is, if it is one. -/
def readToken (b : Branch) (cs : List Char) :
    Except TokenFault (List Char × Option (String × ParsedArgument)) :=
  match b.kind with
  | .start => .ok ([], none)
  | .word name _ =>
    let token := cs.takeWhile isWordChar
    if sameWord (String.ofList token) name.text then .ok (token, none)
    else .error (.complaint (.otherWord name.text))
  | .slot name cls => do
    let token := cls.take cs
    let value ← cls.accept (String.ofList token)
    .ok (token, some (name.text, ⟨String.ofList token, value⟩))

/-- The trail with one more branch, and the argument that it has read, if it has read one. -/
def extended (trail : Trail) (child : BranchId) (argument : Option (String × ParsedArgument)) :
    Trail :=
  ⟨match argument with
    | some (name, parsed) => trail.arguments.put name parsed
    | none => trail.arguments,
    trail.branches ++ [child]⟩

/-- The best attempt that starts at a place, at which a branch has been reached. -/
def walk (g : Grammar) (id : BranchId) (spot : Spot) (trail : Trail) : Except Fault Attempt := do
  let word := String.ofList (spot.ahead.takeWhile isWordChar)
  let attempts ← (g.eligible id word).mapM fun child =>
    match g.branch? child with
    | none => .ok ⟨spot, trail, none⟩
    | some b =>
      match readToken b spot.ahead with
      | .error (.complaint c) => .ok ⟨spot, trail, some c⟩
      | .error (.datum f) => .error (.datum f)
      | .ok (token, argument) =>
        let trail := extended trail child argument
        -- one character separates tokens: a separator that nothing follows is left over
        if 2 ≤ (spot.after token.length).ahead.length then
          g.walk child ((spot.after token.length).after 1) trail
        else .ok ⟨spot.after token.length, trail, none⟩
  .ok ((g.best? attempts).getD ⟨spot, trail, none⟩)
termination_by spot.ahead.length
decreasing_by
  simp only [Spot.after, List.length_drop] at *
  omega

theorem walk_of_eligible_nil {g : Grammar} {id : BranchId} {spot : Spot} (trail : Trail)
    (h : g.eligible id (String.ofList (spot.ahead.takeWhile isWordChar)) = []) :
    g.walk id spot trail = .ok ⟨spot, trail, none⟩ := by
  rw [walk]
  simp [h, bind, Except.bind, pure, Except.pure, best?]

/-- The input without the slash that it may begin with. -/
def withoutSlash (cs : List Char) : List Char :=
  match cs with
  | '/' :: rest => rest
  | cs => cs

end Grammar

/-! ## Invocations -/

/-- An input that was read to its end: who sent it, what was read, and what is to be called. -/
structure Invocation where
  source : Option Sender
  input : String
  arguments : Catalog ParsedArgument
  branches : List BranchId
  callback : Callback

namespace Invocation

/-- The invocation as it is shown. -/
def shown (i : Invocation) : String :=
  "Invocation(" ++ quoted i.input ++ ", arguments=\x7b"
    ++ ", ".intercalate (i.arguments.entries.map fun entry =>
      quoted entry.1 ++ ": " ++ entry.2.shown)
    ++ "\x7d)"

/-- What the argument of a name was read as, or a default. -/
def find (i : Invocation) (name default : Datum) : Except Fault Datum := do
  match ← name.asKey with
  | .string name =>
    match i.arguments.get? name with
    | some parsed => .ok parsed.value.toDatum
    | none => .ok default
  | _ => .ok default

end Invocation

namespace Grammar

/-- What is wrong with an input whose best attempt does not succeed. -/
def complaintOf (a : Attempt) : Complaint :=
  match a.complaint with
  | some c => c
  | none =>
    if a.spot.ahead.isEmpty then .incomplete
    else if a.trail.branches.isEmpty then .unknown
    else .excess

/-- Reads an input, from the branch where inputs start. -/
def parse (g : Grammar) (start : BranchId) (source : Option Sender) (input : String) :
    Except Fault Invocation := do
  let cs := withoutSlash input.toList
  let found ← g.walk start ⟨0, cs⟩ .empty
  let failure : Fault := .parse ⟨complaintOf found, some (String.ofList cs), some found.spot.offset⟩
  if g.succeeds found then
    match found.trail.branches.getLast?.bind g.callbackOf with
    | some callback =>
      .ok ⟨source, String.ofList cs, found.trail.arguments, found.trail.branches, callback⟩
    | none => .error failure
  else .error failure

/-- Reads an input that a host hands in. -/
def parseDatum (g : Grammar) (start : BranchId) (source : Option Sender) (input : Datum) :
    Except Fault Invocation :=
  match input with
  | .string input => g.parse start source input
  | _ => .error (.use .inputNotText)

end Grammar

end CommandTree
