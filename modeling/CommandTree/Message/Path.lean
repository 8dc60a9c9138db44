import CommandTree.Message.Found

/-!
# Paths into data

A gap of a message may name a part of what stands under its key, by a path: steps to members by
their names, and to items by their places or keys.
-/

namespace CommandTree.Message

open Text

/-! ## Reading paths -/

/-- A step of a path: to a member by its name, to an entry by its key, or to an item by its
place. -/
inductive Step where
  | member (name : String)
  | entry (key : String)
  | item (index : Nat)
deriving DecidableEq

/-- The number that a text of digits writes behind the digits of another; none if it is no such
text. -/
def readIndexFrom (before : Nat) : List Char → Except TemplateFault (Option Nat)
  | [] => .ok (some before)
  | c :: cs =>
    match digitValue? c with
    | none => .ok none
    | some d =>
      if numberLimit ≤ 10 * before + d then .error .tooManyDigits
      else readIndexFrom (10 * before + d) cs

/-- The number that a text of digits writes; none if it is no such text. -/
def readIndex (cs : List Char) : Except TemplateFault (Option Nat) :=
  if cs.isEmpty then .ok none else readIndexFrom 0 cs

/-- The step that a path begins with, and the rest. -/
def readStep (cs : List Char) : Except TemplateFault (Step × List Char) :=
  match cs with
  | '.' :: cs =>
    let (name, rest) := cs.span fun c => c != '.' && c != '['
    if name.isEmpty then .error .emptyAttribute
    else .ok (.member (String.ofList name), rest)
  | '[' :: cs =>
    match cs.span (· != ']') with
    | (_, []) => .error .unclosedBracket
    | (key, _ :: rest) => do
      let index ← readIndex key
      if key.isEmpty then .error .emptyAttribute
      else match index with
        | some index => .ok (.item index, rest)
        | none => .ok (.entry (String.ofList key), rest)
  | _ => .error .strayAfterBracket

/-- The steps of a path up to its first mistake, and that mistake, if there is one; a path has no
more steps than characters. -/
def stepsWithin : Nat → List Char → List Step × Option TemplateFault
  | _, [] => ([], none)
  | 0, _ => ([], none)
  | bound + 1, cs =>
    match readStep cs with
    | .error f => ([], some f)
    | .ok (step, rest) =>
      let (more, mistake) := stepsWithin bound rest
      (step :: more, mistake)

/-- The steps of a path up to its first mistake, and that mistake, if there is one. -/
def steps (cs : List Char) : List Step × Option TemplateFault := stepsWithin cs.length cs

/-! ## Following paths -/

/-- The item at a place of a sequence; `what` is the word for the sequence. -/
def itemAt (what : String) (items : List Datum) (index : Nat) : Except Fault Datum :=
  match items[index]? with
  | some item => .ok item
  | none => .error (.template (.indexRange what))

/-- What stands under a key among entries. -/
def entryAt (entries : List (Datum × Datum)) (key : Datum) : Except Fault Datum :=
  match entries.find? fun entry => Datum.same entry.1 key with
  | some entry => .ok entry.2
  | none => .error (.template (.keyMissing key.shown))

/-- Where a step to an item leads from a datum. -/
def itemOf (d : Datum) (index : Nat) : Except Fault Datum :=
  match d with
  | .list items => itemAt "list " items index
  | .tuple items => itemAt "tuple " items index
  | .value type payload => itemAt "tuple " [Datum.ofType? type, payload] index
  | .bytes items => itemAt "" (items.map fun byte => .integer byte.toNat) index
  | .string s => itemAt "string " (s.toList.map fun c => .string (String.singleton c)) index
  | .dict entries => entryAt entries (.integer index)
  | d => .error (.datum (.notSubscriptable d.kindName))

/-- Where a step to an entry leads from a datum. -/
def entryOf (d : Datum) (key : String) : Except Fault Datum :=
  match d with
  | .dict entries => entryAt entries (.string key)
  | .list _ | .tuple _ | .bytes _ | .string _ => .error (.template (.indexNotInteger d.kindName))
  | .value _ _ => .error (.template (.indexNotInteger "tuple"))
  | d => .error (.datum (.notSubscriptable d.kindName))

namespace Found

/-- Where a step to a key leads from a kind: to a choice, or to the kind with what it holds. -/
def keyOfKind (kindName : String) (key : Datum) : Except Fault Found :=
  match setNamed? kindName with
  | some set =>
    match key.string?.bind set.find? with
    | some choice => .ok (.datum choice)
    | none => .error (.template (.keyMissing key.shown))
  | none =>
    if genericKinds.contains kindName then .ok (.generic kindName key)
    else .error (.template (.kindNotSubscriptable (kindNamed kindName).title))

/-- Where a step to a key leads. -/
def keyOf (found : Found) (key : Datum) : Except Fault Found :=
  match found, key with
  | .datum d, .integer index => .datum <$> itemOf d index.toNat
  | .datum d, key => .datum <$> entryOf d key.plain
  | .kind kindName, key => keyOfKind kindName key
  | .several items, .integer index =>
    match items[index.toNat]? with
    | some found => .ok found
    | none => .error (.template (.indexRange "tuple "))
  | .several _, _ => .error (.template (.indexNotInteger "tuple"))
  | .entries _ items, key =>
    match items.find? fun entry => Datum.same entry.1 key with
    | some entry => .ok entry.2
    | none => .error (.template (.keyMissing key.shown))
  | .kept "mappingproxy" _ place _, key =>
    match key.string?.bind (featureFrom? place (kindNamed place)) with
    | some found => .ok found
    | none => .error (.template (.keyMissing key.shown))
  | .generic origin argument, _ => .error (.template (.notGeneric (genericShown origin argument)))
  | found, _ => .error (.datum (.notSubscriptable found.title))

/-- Where a step leads. -/
def follow (found : Found) (step : Step) : Except Fault Found :=
  match step with
  | .member name =>
    match found.member? name with
    | some found => .ok found
    | none => .error (found.noMember name)
  | .item index => found.keyOf (.integer index)
  | .entry key => found.keyOf (.string key)

end Found

end CommandTree.Message
