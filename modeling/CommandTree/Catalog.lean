/-!
# Catalogs

A catalog keeps entries under distinct keys, in the order in which the keys were first used. Putting
an entry under a key that is in use replaces the entry and leaves the key where it is.

* `keys_put`: putting under a new key adds the key at the end, and under a used key changes no key
* `get?_put`: what is put is found under its key, and every other key keeps its entry
* `mem_entries_iff_get?`: the entries are exactly what is found under their keys
-/

namespace CommandTree

namespace Catalog

/-- The entries with one replaced, or with a new one at the end. -/
def putEntry {α : Type} (key : String) (item : α) : List (String × α) → List (String × α)
  | [] => [(key, item)]
  | entry :: rest =>
    if entry.1 = key then (key, item) :: rest else entry :: putEntry key item rest

theorem keys_putEntry {α : Type} (key : String) (item : α) (entries : List (String × α)) :
    (putEntry key item entries).map Prod.fst
      = if key ∈ entries.map Prod.fst then entries.map Prod.fst
        else entries.map Prod.fst ++ [key] := by
  induction entries with
  | nil => simp [putEntry]
  | cons entry rest ih =>
    by_cases h : entry.1 = key
    · simp [putEntry, h]
    · have h' : key ≠ entry.1 := fun e => h e.symm
      simp only [putEntry, h, if_false, List.map_cons, ih, List.mem_cons, h', false_or]
      split <;> simp

theorem nodup_putEntry {α : Type} (key : String) (item : α) {entries : List (String × α)}
    (h : (entries.map Prod.fst).Nodup) : ((putEntry key item entries).map Prod.fst).Nodup := by
  rw [keys_putEntry]
  split
  · exact h
  · next hk =>
    rw [List.nodup_append]
    refine ⟨h, by simp, ?_⟩
    intro a ha b hb
    rw [List.mem_singleton] at hb
    subst hb
    exact fun e => hk (e ▸ ha)

end Catalog

/-- Entries under distinct keys, in the order of the first use of each key. -/
structure Catalog (α : Type) where
  entries : List (String × α)
  nodup : (entries.map Prod.fst).Nodup

namespace Catalog

variable {α β : Type}

/-- The catalog without entries. -/
def empty : Catalog α := ⟨[], by simp⟩

instance : Inhabited (Catalog α) := ⟨empty⟩

/-- The keys in order of first use. -/
def keys (c : Catalog α) : List String := c.entries.map Prod.fst

/-- What is kept, in the order of the keys. -/
def items (c : Catalog α) : List α := c.entries.map Prod.snd

/-- What is kept under a key. -/
def get? (c : Catalog α) (key : String) : Option α :=
  (c.entries.find? fun entry => entry.1 = key).map Prod.snd

/-- Whether the key is in use. -/
def contains (c : Catalog α) (key : String) : Bool := (c.get? key).isSome

/-- The catalog with an entry put under a key. -/
def put (c : Catalog α) (key : String) (item : α) : Catalog α :=
  ⟨putEntry key item c.entries, nodup_putEntry key item c.nodup⟩

/-- The catalog of entries put one after the other. -/
def ofList (entries : List (String × α)) : Catalog α :=
  entries.foldl (fun c entry => c.put entry.1 entry.2) empty

/-- The catalog with every item changed. -/
def map (f : α → β) (c : Catalog α) : Catalog β :=
  ⟨c.entries.map fun entry => (entry.1, f entry.2), by simpa [Function.comp_def] using c.nodup⟩

@[ext]
theorem ext {c d : Catalog α} (h : c.entries = d.entries) : c = d := by
  cases c; cases d; cases h; rfl

@[simp] theorem keys_empty : (empty : Catalog α).keys = [] := rfl

@[simp] theorem get?_empty (key : String) : (empty : Catalog α).get? key = none := rfl

theorem keys_put (c : Catalog α) (key : String) (item : α) :
    (c.put key item).keys = if key ∈ c.keys then c.keys else c.keys ++ [key] :=
  keys_putEntry key item c.entries

theorem find?_putEntry (key : String) (item : α) (entries : List (String × α)) (other : String) :
    ((putEntry key item entries).find? fun entry => entry.1 = other).map Prod.snd
      = if other = key then some item
        else (entries.find? fun entry => entry.1 = other).map Prod.snd := by
  induction entries with
  | nil =>
    by_cases h : other = key
    · simp [putEntry, h]
    · have h' : key ≠ other := fun e => h e.symm
      simp [putEntry, h, h']
  | cons entry rest ih =>
    by_cases hk : entry.1 = key
    · by_cases h : other = key
      · simp [putEntry, hk, h]
      · have h' : key ≠ other := fun e => h e.symm
        simp [putEntry, hk, h, h']
    · by_cases ho : entry.1 = other
      · have h : other ≠ key := fun e => hk (ho.trans e)
        simp [putEntry, ho, h]
      · simp only [putEntry, hk, if_false, List.find?_cons, ho, decide_false]
        exact ih

theorem get?_put (c : Catalog α) (key : String) (item : α) (other : String) :
    (c.put key item).get? other = if other = key then some item else c.get? other :=
  find?_putEntry key item c.entries other

@[simp] theorem get?_put_self (c : Catalog α) (key : String) (item : α) :
    (c.put key item).get? key = some item := by
  simp [get?_put]

theorem mem_entries_iff_get? (c : Catalog α) (key : String) (item : α) :
    (key, item) ∈ c.entries ↔ c.get? key = some item := by
  obtain ⟨entries, nodup⟩ := c
  simp only [get?]
  induction entries with
  | nil => simp
  | cons entry rest ih =>
    simp only [List.map_cons, List.nodup_cons] at nodup
    by_cases h : entry.1 = key
    · subst h
      simp only [List.mem_cons, List.find?_cons, decide_true, Option.map_some, Option.some.injEq]
      constructor
      · rintro (heq | hmem)
        · rw [← heq]
        · exact absurd (List.mem_map_of_mem hmem) nodup.1
      · intro heq
        exact Or.inl (by rw [← heq])
    · simp only [List.mem_cons, List.find?_cons, h, decide_false]
      rw [← ih nodup.2]
      constructor
      · rintro (heq | hmem)
        · exact absurd (by rw [← heq]) h
        · exact hmem
      · exact Or.inr

theorem mem_keys_iff_get? (c : Catalog α) (key : String) :
    key ∈ c.keys ↔ ∃ item, c.get? key = some item := by
  simp only [keys, List.mem_map, ← mem_entries_iff_get?]
  constructor
  · rintro ⟨⟨k, item⟩, hmem, rfl⟩
    exact ⟨item, hmem⟩
  · rintro ⟨item, hmem⟩
    exact ⟨_, hmem, rfl⟩

theorem contains_iff (c : Catalog α) (key : String) : c.contains key = true ↔ key ∈ c.keys := by
  rw [mem_keys_iff_get?, contains, Option.isSome_iff_exists]

end Catalog

end CommandTree
