import CommandTree.Message.KindNote
import CommandTree.Message.KindTable
import CommandTree.Message.Member
import CommandTree.Message.Presented

/-!
# What a path leads to

A path in a gap of a message leads from a datum to its members, and on to their members. Most of
them are data, but a path may also come to the kind of a datum, to a method of it, or to what a kind
says about either of them.
-/

namespace CommandTree.Message

/-! ## Kinds -/

/-- The kind of a name. -/
def kindNamed (name : String) : Kind := (kindTable.find? (·.name == name)).getD { name := name }

/-- The name of the kind that a kind is of. -/
def kindOfKind (name : String) : String := if (setNamed? name).isSome then "EnumType" else "type"

/-- A kind and the kinds above it. -/
def lineage (name : String) : List Kind :=
  let kind := kindNamed name
  kind :: kind.above.map kindNamed

namespace Kind

/-- The name with the module where the kind is defined, unless that is the host itself. -/
def place (k : Kind) : String := if k.home = "builtins" then k.name else k.home ++ "." ++ k.name

/-- The kind as it is shown. -/
def shown (k : Kind) : String :=
  if (setNamed? k.name).isSome then "<enum '" ++ k.name ++ "'>" else "<class '" ++ k.place ++ "'>"

end Kind

/-- The kinds that are made with the kind of what they hold. -/
def genericKinds : List String := ["list", "tuple", "dict", "set", "type", "Value"]

/-! ## What is found -/

/-- What a path leads to. -/
inductive Found where
  | datum (d : Datum)
  /-- A kind, by its name. -/
  | kind (name : String)
  /-- A tuple of which not all are data. -/
  | several (items : List Found)
  /-- Entries of which not all are data. -/
  | entries (kindName : String) (items : List (Datum × Found))
  /-- A method that is a function, with what it is a method of. -/
  | method (place name : String) (owner : Found)
  /-- What a kind has for its data, as the kind itself has it. -/
  | feature (kindName name place : String)
  /-- Something that is shown by where it is kept. -/
  | kept (kindName name place : String) (owner : Found)
  /-- A kind with the kind of what it holds. -/
  | generic (origin : String) (argument : Datum)
  /-- Anything else, by its kind and its text. -/
  | other (kindName text : String)

namespace Found

/-- A text that was found. -/
def text (s : String) : Found := .datum (.string s)

/-- A note that was found, or that there is none. -/
def note (s : Option String) : Found := .datum ((s.map Datum.string).getD .null)

/-- The name of the kind of what was found. -/
def kindName : Found → String
  | .datum d => d.kindName
  | .kind name => kindOfKind name
  | .several _ => "tuple"
  | .entries given _ | .feature given _ _ | .kept given _ _ _ | .other given _ => given
  | .method _ _ _ => "method"
  | .generic _ _ => "GenericAlias"

/-- The name of the kind in faults. -/
def title (found : Found) : String := (kindNamed found.kindName).title

/-! ## Texts -/

/-- A kind with what it holds, as it is shown. -/
def genericShown (origin : String) (argument : Datum) : String :=
  (kindNamed origin).place ++ "[" ++ argument.shown ++ "]"

/-- A feature of a kind as it is shown. -/
def featureShown (kindName name place : String) : String :=
  let word := match kindName with
    | "method_descriptor" => "method"
    | "wrapper_descriptor" => "slot wrapper"
    | "member_descriptor" => "member"
    | _ => "attribute"
  "<" ++ word ++ " '" ++ name ++ "' of '" ++ place ++ "' objects>"

/-- Entries that are shown as given. -/
def entriesText (entries : List String) : String := "\x7b" ++ ", ".intercalate entries ++ "\x7d"

mutual

/-- What was found as it is shown. -/
def shown : Found → Except Fault String
  | .datum d => do .ok (← d.asWritable).shown
  | .kind name => .ok (kindNamed name).shown
  | .several items => do
    let texts ← shownAll items
    .ok ("(" ++ ", ".intercalate texts ++ (if texts.length = 1 then ",)" else ")"))
  | .entries given items => do
    let text := entriesText (← shownEntries items)
    .ok (if given = "dict" then text else given ++ "(" ++ text ++ ")")
  | .method place name owner => do
    .ok ("<bound method " ++ place ++ "." ++ name ++ " of " ++ (← owner.shown) ++ ">")
  | .feature kindName name place => .ok (featureShown kindName name place)
  | .kept kindName name place _ => .ok ("<" ++ kindName ++ " " ++ place ++ "." ++ name ++ ">")
  | .generic origin argument => .ok (genericShown origin argument)
  | .other _ text => .ok text

/-- All of what was found as it is shown. -/
def shownAll : List Found → Except Fault (List String)
  | [] => .ok []
  | item :: items => do .ok ((← item.shown) :: (← shownAll items))

/-- Entries as they are shown. -/
def shownEntries : List (Datum × Found) → Except Fault (List String)
  | [] => .ok []
  | (key, item) :: items => do
    .ok ((key.shown ++ ": " ++ (← item.shown)) :: (← shownEntries items))

end

/-- The plain text of what was found. -/
def plain : Found → Except Fault String
  | .datum d => do .ok (← d.asWritable).plain
  | .entries _ items => entriesText <$> shownEntries items
  | found => found.shown

/-- What was found as a gap says. -/
def present (found : Found) (spec : List Char) : Except Fault String :=
  match found with
  | .datum d => Message.present d spec
  | found =>
    if spec.isEmpty then found.plain else .error (.template (.specUnsupported found.title))

/-! ## What kinds have -/

/-- What a thing comes by through one of its kinds. -/
def inheritedFrom? (found : Found) (k : Kind) (name : String) : Option Found :=
  let kind := Found.kind found.kindName
  if k.functions.contains name then some (.method k.name name found)
  else if k.kindFunctions.contains name then some (.method k.name name kind)
  else if k.slots.contains name then some (.kept "method-wrapper" name k.name found)
  else if k.methods.contains name then some (.kept "builtin_function_or_method" name k.name found)
  else if k.makers.contains name then some (.kept "builtin_function_or_method" name k.name kind)
  else if (k.attributes ++ k.places).contains name then some (.kept "object" name k.name found)
  else none

/-- What a thing comes by through some kinds, the nearest first. -/
def inherited? (found : Found) (kinds : List Kind) (name : String) : Option Found :=
  kinds.findSome? fun k => inheritedFrom? found k name

/-- What a kind has for its data, as the kind itself, or one below it, has it. -/
def featureFrom? (below : String) (k : Kind) (name : String) : Option Found :=
  if k.functions.contains name then some (.kept "function" name k.name (.datum .null))
  else if k.kindFunctions.contains name then some (.method k.name name (.kind below))
  else if k.slots.contains name then some (.feature "wrapper_descriptor" name k.title)
  else if k.methods.contains name then some (.feature "method_descriptor" name k.title)
  else if k.attributes.contains name then some (.feature "getset_descriptor" name k.title)
  else if k.places.contains name then some (.feature "member_descriptor" name k.title)
  else if k.makers.contains name then
    some (.kept "builtin_function_or_method" name k.name (.kind below))
  else if k.computed.contains name then some (.kept "property" name k.name (.datum .null))
  else none

/-- The types that the two parts of a value may have. -/
def partTypes : Found :=
  let union (text : String) : Found := .other "types.UnionType" text
  .entries "dict" [(.string "type", union ((kindNamed "ArgType").place ++ " | None")),
    (.string "payload", union "str | int | float | bool | None")]

/-- What both a kind and its data have, the same for all. -/
def constant? (kindName name : String) : Option Found :=
  match kindName, name with
  | "list", "__hash__" | "set", "__hash__" | "dict", "__hash__" => some (.datum .null)
  | "Value", "_fields" | "Value", "__match_args__" =>
    some (.datum (.tuple [.string "type", .string "payload"]))
  | "Value", "_field_defaults" => some (.datum (.dict []))
  | "Value", "__slots__" => some (.datum (.tuple []))
  | "Value", "__annotations__" => some partTypes
  | "Value", "__new__" => some (.kept "function" name kindName (.datum .null))
  | "UnsetType", "__final__" => some (.datum (.boolean true))
  | kindName, "_member_type_" => (setNamed? kindName).map fun _ => .kind "object"
  | kindName, "_new_member_" =>
    (setNamed? kindName).map fun _ =>
      .kept "builtin_function_or_method" "__new__" "object" (.kind "object")
  | kindName, "_generate_next_value_" =>
    (setNamed? kindName).map fun _ => .kept "function" name "Enum" (.datum .null)
  | kindName, "__firstlineno__" => (kindNamed kindName).line.map fun n => .datum (.integer n)
  | kindName, "__static_attributes__" =>
    (kindNamed kindName).line.map fun _ => .datum (.tuple [])
  | kindName, name => ((setNamed? kindName).bind (·.member? name)).map .datum

/-- What a kind says about itself. -/
def kindFact? (k : Kind) (name : String) : Option Found :=
  let size (i : Nat) : Option Found := (k.sizes[i]?).map fun n => .datum (.integer n)
  match name with
  | "__name__" | "__qualname__" => some (.text k.name)
  | "__module__" => some (.text k.home)
  | "__doc__" => some (.note (kindNotes.lookup k.name))
  | "__class__" => some (.kind (kindOfKind k.name))
  | "__mro__" => some (.several ((k.name :: k.above).map .kind))
  | "__bases__" => some (.several ((k.above.take 1).map .kind))
  | "__base__" => some ((k.above.head?).elim (.datum .null) .kind)
  | "__text_signature__" => some (.note k.signature)
  | "__basicsize__" => size 0
  | "__itemsize__" => size 1
  | "__dictoffset__" => size 2
  | "__weakrefoffset__" => size 3
  | "__members__" =>
    (setNamed? k.name).map fun set =>
      .entries "mappingproxy" (set.choices.map fun c => (.string c.capitals, .datum c.datum))
  | "__dict__" => some (.kept "mappingproxy" name k.name (.kind k.name))
  | _ => none

/-- A member of a kind. -/
def kindMember? (kindName name : String) : Option Found :=
  let k := kindNamed kindName
  let fieldOf (index : Nat) : Found :=
    .other "_tuplegetter" ("_tuplegetter(" ++ Nat.repr index ++ ", 'Alias for field number "
      ++ Nat.repr index ++ "')")
  match kindFact? k name, kindName, name with
  | some found, _, _ => some found
  | none, _, "__abstractmethods__" => none
  | none, "Value", "type" => some (fieldOf 0)
  | none, "Value", "payload" => some (fieldOf 1)
  | none, "Value", "__replace__" => some (.kept "function" "_replace" kindName (.datum .null))
  | none, _, _ =>
    (constant? kindName name).or
      (if name = "__annotations__" then
        if k.home = "builtins" then none else some (.datum (.dict []))
      else
        ((lineage kindName).findSome? fun above => featureFrom? kindName above name).or
          (inherited? (.kind kindName) (lineage (kindOfKind kindName)) name))

/-! ## Members -/

/-- The module that the functions of a kind are defined in. -/
def functionHome (place name : String) : String :=
  if place = "Value" then
    if name = "__new__" then "namedtuple_Value"
    else if "as_".isPrefixOf name then (kindNamed place).home
    else "collections"
  else (kindNamed place).home

/-- What a function says about itself. -/
def functionFact? (place name fact : String) : Option Found :=
  match fact with
  | "__name__" => some (.text name)
  | "__qualname__" => some (.text (place ++ "." ++ name))
  | "__module__" => some (.text (functionHome place name))
  | "__doc__" => some (.note (methodNotes.lookup (place ++ "." ++ name)))
  | "__defaults__" | "__kwdefaults__" | "__closure__" => some (.datum .null)
  | "__dict__" | "__annotations__" => some (.datum (.dict []))
  | _ => none

/-- What a function of the host itself says about itself. -/
def builtinFact? (name fact : String) : Option Found :=
  match fact with
  | "__module__" => some (.text "builtins")
  | "__self__" => some (.other "module" "<module 'builtins' (built-in)>")
  | "__doc__" => (builtinNotes.lookup name).map fun n => .text n.1
  | "__text_signature__" => (builtinNotes.lookup name).map fun n => .text n.2
  | _ => none

/-- What a feature of a kind says about itself. -/
def featureFact? (name place fact : String) : Option Found :=
  match fact with
  | "__name__" => some (.text name)
  | "__qualname__" => some (.text (place ++ "." ++ name))
  | "__objclass__" => some (.kind place)
  | _ => none

/-- What an operation says about itself. -/
def slotFact? (name place fact : String) : Option Found :=
  match fact with
  | "__doc__" => some (.note ((slotNotes.lookup name).map (·.1)))
  | "__text_signature__" => some (.note ((slotNotes.lookup name).map (·.2)))
  | fact => featureFact? name place fact

/-- What a method of the host itself says about itself. -/
def boundFact? (name : String) (owner : Found) (fact : String) : Option Found :=
  match fact with
  | "__name__" => some (.text name)
  | "__qualname__" =>
    let kindName := match owner with
      | .kind kindName => kindName
      | owner => owner.kindName
    some (.text (kindName ++ "." ++ name))
  | "__self__" => some owner
  | "__module__" => some (.datum .null)
  | _ => none

/-- What the module of the host itself has, as far as it is known. -/
def moduleMember? (name : String) : Option Found :=
  match name with
  | "__name__" => some (.text "builtins")
  | "__package__" => some (.text "")
  | "None" => some (.datum .null)
  | "True" | "__debug__" => some (.datum (.boolean true))
  | "False" => some (.datum (.boolean false))
  | "__loader__" => some (.other "type" moduleLoader)
  | "__spec__" =>
    some (.other "ModuleSpec"
      ("ModuleSpec(name='builtins', loader=" ++ moduleLoader ++ ", origin='built-in')"))
  | name =>
    if moduleFunctions.contains name then some (.datum (.builtin name))
    else if moduleKinds.contains name then some (.kind name)
    else none

/-- A member that what was found has of its own. -/
def ownMember? (found : Found) (name : String) : Option Found :=
  match found, name with
  | .datum (.valueType t), "__dict__" => some (choiceEntries (.valueType t))
  | .datum (.audience a), "__dict__" => some (choiceEntries (.audience a))
  | .datum (.senderKind k), "__dict__" => some (choiceEntries (.senderKind k))
  | .datum d, "__objclass__" => (setOf? d).map fun set => .kind set.name
  | .datum (.builtin f), name =>
    (builtinFact? f name).or ((Message.member? (.builtin f) name).map .datum)
  | .datum (.function _), "__module__" => some (.text (kindNamed "Opaque").home)
  | .datum (.function _), "__doc__" => some (.datum .null)
  | .datum (.value _ _), "__replace__" => some (.method "Value" "_replace" found)
  | .datum d, "__module__" =>
    let home := (kindNamed d.kindName).home
    if home = "builtins" then none else some (.text home)
  | .datum d, name => ((Message.member? d name).map .datum).or (constant? d.kindName name)
  | .method _ _ owner, "__self__" => some owner
  | .method place name _, "__func__" => some (.kept "function" name place (.datum .null))
  | .method place name _, fact => functionFact? place name fact
  | .kept "function" name place _, fact => functionFact? place name fact
  | .kept "builtin_function_or_method" name _ owner, fact => boundFact? name owner fact
  | .kept "method-wrapper" _ _ owner, "__self__" => some owner
  | .kept "method-wrapper" name place _, fact => slotFact? name place fact
  | .kept "property" _ _ _, "fset" | .kept "property" _ _ _, "fdel" => some (.datum .null)
  | .kept "property" _ _ _, "__isabstractmethod__" => some (.datum (.boolean false))
  | .kept "property" name place _, "fget" => some (.kept "function" name place (.datum .null))
  | .feature "wrapper_descriptor" name place, fact => slotFact? name place fact
  | .feature _ name place, fact => featureFact? name place fact
  | .other "module" _, name => moduleMember? name
  | _, _ => none
where
  /-- What a choice keeps, by name. -/
  choiceEntries (d : Datum) : Found :=
    .entries "dict" (["_value_", "_name_", "__objclass__", "_sort_order_"].filterMap fun key =>
      if key = "__objclass__" then some (.string key, .kind d.kindName)
      else (choiceMember? d key).map fun item => (.string key, .datum item))

/-- What a kind with what it holds has of its own; the rest it has from the kind. -/
def genericMember? (origin : String) (argument : Datum) (name : String) : Option Found :=
  match name with
  | "__class__" => some (.kind "GenericAlias")
  | "__origin__" => some (.kind origin)
  | "__args__" => some (.datum (.tuple [argument]))
  | "__parameters__" => some (.datum (.tuple []))
  | "__unpacked__" => some (.datum (.boolean false))
  | name => kindMember? origin name

/-- A member of what was found. -/
def member? (found : Found) (name : String) : Option Found :=
  match found, name with
  | .kind kindName, name => kindMember? kindName name
  | .generic origin argument, name => genericMember? origin argument name
  | found, "__class__" => some (.kind found.kindName)
  | found, name =>
    (ownMember? found name).or
      (if name = "__doc__" then some (.note (kindNotes.lookup found.kindName))
      else inherited? found (lineage found.kindName) name)

/-- The fault of a member that is not there. -/
def noMember (found : Found) (name : String) : Fault :=
  match found with
  | .kind kindName | .generic kindName _ =>
    .template (if name = "__abstractmethods__" then .memberUnset name
      else .noKindMember (kindNamed kindName).title name)
  | .method _ _ _ => .datum (.noAttribute (Datum.function name).kindName name)
  | .other "module" _ => .template (.noModuleMember "builtins" name)
  | found => .datum (.noAttribute found.title name)

end Found

end CommandTree.Message
