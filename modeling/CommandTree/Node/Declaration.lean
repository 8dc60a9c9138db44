import CommandTree.Datum.Items
import CommandTree.Name.Declaration
import CommandTree.Node.Basic

/-!
# Declaring nodes

A node is declared with a name and options, each of which may be anything that a host hands in.
Texts are trimmed, and one that is blank counts as none. Of several aliases with one key the first
is kept, and none with the key of the node itself.

* `keptAliases_keys`: the keys of the aliases that are kept differ from each other and from those
  seen
* `exists_keptAliases_of_describe`: so do those of a node that is declared, and from its own key
-/

namespace CommandTree.Node

open Text

/-- What a node is declared with, besides its name. -/
structure Options where
  permission : Datum := .unset
  description : Datum := .unset
  aliases : Datum := .tuple []
  audience : Datum := .audience .anyone

/-- A text that need not be given, without blanks around it; a blank text counts as none. -/
def optionalText (label field : String) (d : Datum) : Except Fault (Option String) :=
  match d with
  | .unset | .null => .ok none
  | .string s => .ok (if (trimmed s).isEmpty then none else some (trimmed s))
  | _ => .error (.node (.notText label field))

/-- The role of an alias in messages. -/
def aliasRole (label : String) : String := label ++ " alias"

/-- The aliases that a host hands in. -/
def readAliases (label : String) (d : Datum) : Except Fault (List Name) :=
  match d with
  | .string _ | .null => .error (.node (.aliasesNotIterable label))
  | d => do (← d.items).mapM (Name.declare (aliasRole label))

/-- The names whose keys have not been seen, each key once. -/
def keptAliases (seen : List String) : List Name → List Name
  | [] => []
  | name :: rest =>
    if name.key ∈ seen then keptAliases seen rest
    else name :: keptAliases (name.key :: seen) rest

theorem keptAliases_keys (seen : List String) (names : List Name) :
    ((keptAliases seen names).map Name.key).Nodup ∧
      ∀ name ∈ keptAliases seen names, name.key ∉ seen := by
  induction names generalizing seen with
  | nil => simp [keptAliases]
  | cons name rest ih =>
    by_cases h : name.key ∈ seen
    · simp only [keptAliases, h, if_true]
      exact ih seen
    · simp only [keptAliases, h, if_false, List.map_cons, List.nodup_cons, List.mem_cons]
      obtain ⟨hnodup, hseen⟩ := ih (name.key :: seen)
      refine ⟨⟨?_, hnodup⟩, ?_⟩
      · intro hmem
        obtain ⟨other, hother, hkey⟩ := List.mem_map.1 hmem
        exact hseen other hother (by simp [hkey])
      · rintro other (rfl | hother)
        · exact h
        · exact fun hmem => hseen other hother (List.mem_cons_of_mem _ hmem)

/-- The audience that a host hands in; none means everyone. -/
def readAudience (label : String) (d : Datum) : Except Fault Audience :=
  match d with
  | .unset | .null => .ok .anyone
  | .audience a => .ok a
  | _ => .error (.node (.audienceExpected label))

/-- What a name and options declare. -/
def describe (label : String) (role : NodeRole) (name : Datum) (o : Options) :
    Except Fault Description := do
  let name ← Name.declare label name
  let permission ← optionalText label "permission" o.permission
  let description ← optionalText label "description" o.description
  let aliases ← readAliases label o.aliases
  let audience ← readAudience label o.audience
  .ok {
    label := label
    role := role
    name := name
    permission := permission
    description := description
    aliases := keptAliases [name.key] aliases
    audience := audience }

/-- Of the aliases that a node is declared with, those that are kept differ from its name. -/
theorem exists_keptAliases_of_describe {label : String} {role : NodeRole} {name : Datum}
    {o : Options} {d : Description} (h : describe label role name o = .ok d) :
    ∃ names, d.aliases = keptAliases [d.name.key] names := by
  simp only [describe, bind, Except.bind] at h
  -- only where nothing is refused there is a description
  repeat' split at h
  all_goals cases h
  exact ⟨_, rfl⟩

end CommandTree.Node
