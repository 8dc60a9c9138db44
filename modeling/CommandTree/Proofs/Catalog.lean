import CommandTree.Catalog
import Mathlib.Data.List.Induction

/-!
# What is kept in a catalog

A catalog can be read as a look-up or as a list. Putting entries one after the other keeps them in
order as long as their keys are new; where a key comes again, the last entry counts and the first
place. The items of which something can hold under one key only are found by that key.

* `entries_put_of_not_mem`: an entry under a new key comes last
* `entries_ofList`: entries with distinct keys are kept as they are
* `get?_ofList_eq_some_iff`: under each key, the last item that was put there is found
* `keys_ofList`: the keys are in the order in which something was first put under them
* `get?_overlaid`: in two catalogs laid over each other, the later one is looked up first
* `put_eq_self_iff`: an entry that is put once more changes nothing
* `filter_items_eq`: what holds under one key only is found there
-/

namespace CommandTree.Catalog

variable {α : Type}

theorem mem_items_iff_get? {c : Catalog α} {item : α} :
    item ∈ c.items ↔ ∃ key, c.get? key = some item := by
  simp only [items, List.mem_map, ← mem_entries_iff_get?]
  constructor
  · rintro ⟨⟨key, _⟩, hmem, rfl⟩
    exact ⟨key, hmem⟩
  · rintro ⟨key, hmem⟩
    exact ⟨_, hmem, rfl⟩

theorem get?_eq_none_iff {c : Catalog α} {key : String} : c.get? key = none ↔ key ∉ c.keys := by
  rw [mem_keys_iff_get?, not_exists]
  exact Option.eq_none_iff_forall_ne_some

theorem get?_of_mem_entries {c : Catalog α} {entry : String × α} (h : entry ∈ c.entries) :
    c.get? entry.1 = some entry.2 :=
  (mem_entries_iff_get? c entry.1 entry.2).mp h

theorem items_map {β : Type} (c : Catalog α) (change : α → β) :
    (c.map change).items = c.items.map change := by
  rw [items, items, map, List.map_map, List.map_map]
  rfl

theorem get?_map {β : Type} (c : Catalog α) (change : α → β) (key : String) :
    (c.map change).get? key = (c.get? key).map change := by
  rw [get?, get?, map, List.find?_map, Option.map_map, Option.map_map]
  rfl

theorem putEntry_eq_self {key : String} {item : α} {entries : List (String × α)}
    (h : (entries.find? fun entry => entry.1 = key).map Prod.snd = some item) :
    putEntry key item entries = entries := by
  induction entries with
  | nil => cases h
  | cons entry rest ih =>
    by_cases hk : entry.1 = key
    · subst hk
      rw [List.find?_cons_of_pos (by simp), Option.map_some, Option.some.injEq] at h
      rw [putEntry, if_pos rfl, ← h]
    · rw [List.find?_cons_of_neg (by simpa using hk)] at h
      rw [putEntry, if_neg hk, ih h]

/-- An entry that is put once more changes nothing. -/
theorem put_eq_self_iff {c : Catalog α} {key : String} {item : α} :
    c.put key item = c ↔ c.get? key = some item := by
  constructor
  · intro h
    rw [← h, get?_put_self]
  · intro h
    exact ext (putEntry_eq_self h)

theorem mem_items_put {c : Catalog α} {key : String} {item other : α}
    (h : other ∈ (c.put key item).items) : other = item ∨ other ∈ c.items := by
  obtain ⟨k, hk⟩ := mem_items_iff_get?.mp h
  rw [get?_put] at hk
  split at hk
  · cases hk
    exact Or.inl rfl
  · exact Or.inr (mem_items_iff_get?.mpr ⟨k, hk⟩)

theorem mem_items_ofList {entries : List (String × α)} {item : α}
    (h : item ∈ (ofList entries).items) : ∃ entry ∈ entries, entry.2 = item := by
  have hfold : ∀ (l : List (String × α)) (c : Catalog α),
      item ∈ (l.foldl (fun c entry => c.put entry.1 entry.2) c).items →
        (∃ entry ∈ l, entry.2 = item) ∨ item ∈ c.items := by
    intro l
    induction l with
    | nil => exact fun c hc => Or.inr hc
    | cons entry rest ih =>
      intro c hc
      rcases ih _ hc with ⟨e, he, hitem⟩ | hput
      · exact Or.inl ⟨e, List.mem_cons_of_mem _ he, hitem⟩
      · rcases mem_items_put hput with rfl | hold
        · exact Or.inl ⟨entry, List.mem_cons_self .., rfl⟩
        · exact Or.inr hold
  rcases hfold entries empty h with hmem | hnone
  · exact hmem
  · cases hnone

/-! ## Entries in order -/

theorem putEntry_of_not_mem {key : String} (item : α) {entries : List (String × α)}
    (h : key ∉ entries.map Prod.fst) : putEntry key item entries = entries ++ [(key, item)] := by
  induction entries with
  | nil => rfl
  | cons entry rest ih =>
    rw [List.map_cons, List.mem_cons, not_or] at h
    rw [putEntry, if_neg (Ne.symm h.1), ih h.2, List.cons_append]

theorem entries_put_of_not_mem {c : Catalog α} {key : String} (h : key ∉ c.keys) (item : α) :
    (c.put key item).entries = c.entries ++ [(key, item)] :=
  putEntry_of_not_mem item h

/-- Entries that are put under new keys come behind the others, in order. -/
theorem entries_foldl_put {β : Type} (keyOf : β → String) (itemOf : β → α) (bs : List β)
    (c : Catalog α) (h : (c.keys ++ bs.map keyOf).Nodup) :
    (bs.foldl (fun c b => c.put (keyOf b) (itemOf b)) c).entries
      = c.entries ++ bs.map fun b => (keyOf b, itemOf b) := by
  induction bs generalizing c with
  | nil => simp
  | cons b bs ih =>
    rw [List.map_cons] at h
    have hnew : keyOf b ∉ c.keys := fun hmem =>
      (List.nodup_append.mp h).2.2 _ hmem _ (List.mem_cons_self ..) rfl
    have hkeys : (c.put (keyOf b) (itemOf b)).keys = c.keys ++ [keyOf b] := by
      rw [keys_put, if_neg hnew]
    rw [List.foldl_cons, ih, entries_put_of_not_mem hnew, List.append_assoc]
    · rfl
    · rw [hkeys, List.append_assoc]
      exact h

theorem entries_ofList {entries : List (String × α)} (h : (entries.map Prod.fst).Nodup) :
    (ofList entries).entries = entries := by
  have hfold := entries_foldl_put Prod.fst Prod.snd entries empty h
  rw [ofList, hfold]
  simp [empty]

/-- A catalog is that of its entries. -/
theorem ofList_entries (c : Catalog α) : ofList c.entries = c := ext (entries_ofList c.nodup)

/-! ## Entries that come last -/

section Last

/-- Whether an item is the last one with a key among entries. -/
def IsLast (entries : List (String × α)) (key : String) (item : α) : Prop :=
  ∃ before after, entries = before ++ (key, item) :: after ∧ key ∉ after.map Prod.fst

variable {entries : List (String × α)} {key : String} {item : α}

theorem not_isLast_nil : ¬ IsLast ([] : List (String × α)) key item := by
  rintro ⟨before, after, h, -⟩
  simp at h

/-- The last item with a key is the one that comes last of all entries, or else the last one before
it if that has another key. -/
theorem isLast_concat {entry : String × α} :
    IsLast (entries ++ [entry]) key item ↔
      if key = entry.1 then item = entry.2 else IsLast entries key item := by
  constructor
  · rintro ⟨before, after, h, hnone⟩
    rcases List.eq_nil_or_concat after with rfl | ⟨middle, last, rfl⟩
    · obtain ⟨-, rfl⟩ := List.append_singleton_inj.mp h
      rw [if_pos rfl]
    · rw [List.concat_eq_append, ← List.cons_append, ← List.append_assoc] at h
      obtain ⟨rfl, rfl⟩ := List.append_singleton_inj.mp h
      rw [List.concat_eq_append, List.map_append, List.mem_append, not_or] at hnone
      have hne : key ≠ entry.1 := by
        rintro rfl
        exact hnone.2 (List.mem_singleton_self _)
      rw [if_neg hne]
      exact ⟨before, middle, rfl, hnone.1⟩
  · intro h
    by_cases hk : key = entry.1
    · rw [if_pos hk] at h
      subst hk h
      exact ⟨entries, [], rfl, List.not_mem_nil⟩
    · rw [if_neg hk] at h
      obtain ⟨before, after, rfl, hnone⟩ := h
      refine ⟨before, after ++ [entry], by simp, ?_⟩
      rw [List.map_append, List.mem_append, not_or]
      exact ⟨hnone, fun hmem => hk (List.mem_singleton.mp hmem)⟩

theorem ofList_concat (entry : String × α) :
    ofList (entries ++ [entry]) = (ofList entries).put entry.1 entry.2 := by
  rw [ofList, List.foldl_append]
  rfl

/-- **Under each key, the last item that was put there is found.** -/
theorem get?_ofList_eq_some_iff :
    (ofList entries).get? key = some item ↔ IsLast entries key item := by
  induction entries using List.reverseRecOn with
  | nil =>
    refine iff_of_false ?_ not_isLast_nil
    rw [ofList, List.foldl_nil, get?_empty]
    exact nofun
  | append_singleton entries entry ih =>
    rw [ofList_concat, get?_put, isLast_concat]
    split
    · rw [Option.some.injEq]
      exact eq_comm
    · exact ih

/-- The last item with a key is the last of those that have it. -/
theorem isLast_iff_getLast? :
    IsLast entries key item ↔
      (entries.filter fun entry => entry.1 = key).getLast? = some (key, item) := by
  induction entries using List.reverseRecOn with
  | nil => exact iff_of_false not_isLast_nil nofun
  | append_singleton entries entry ih =>
    rw [isLast_concat, List.filter_append]
    by_cases hk : key = entry.1
    · rw [if_pos hk, List.filter_cons_of_pos (by simpa using hk.symm), List.filter_nil,
        List.getLast?_append, List.getLast?_singleton, Option.some_or, Option.some.injEq,
        Prod.ext_iff]
      exact ⟨fun h => ⟨hk.symm, h.symm⟩, fun h => h.2.symm⟩
    · rw [if_neg hk, List.filter_cons_of_neg (by simpa using Ne.symm hk), List.filter_nil,
        List.append_nil]
      exact ih

/-- What is put later comes first in a look-up. -/
theorem get?_ofList_append (later : List (String × α)) :
    (ofList (entries ++ later)).get? key
      = ((ofList later).get? key).or ((ofList entries).get? key) := by
  induction later using List.reverseRecOn with
  | nil => simp [ofList]
  | append_singleton later entry ih =>
    rw [← List.append_assoc, ofList_concat, ofList_concat, get?_put, get?_put, ih]
    split <;> rfl

/-- The catalog with the entries of another put over its own. -/
def overlaid (c later : Catalog α) : Catalog α := ofList (c.entries ++ later.entries)

theorem get?_overlaid (c later : Catalog α) :
    (c.overlaid later).get? key = (later.get? key).or (c.get? key) := by
  rw [overlaid, get?_ofList_append, ofList_entries, ofList_entries]

/-- **The keys are in the order in which something was first put under them.** -/
theorem keys_ofList : (ofList entries).keys = (entries.map Prod.fst).eraseDups := by
  induction entries using List.reverseRecOn with
  | nil => rfl
  | append_singleton entries entry ih =>
    rw [ofList_concat, keys_put, ih, List.map_append, List.map_singleton, List.eraseDups_append]
    by_cases h : entry.1 ∈ entries.map Prod.fst
    · rw [if_pos (List.mem_eraseDups.mpr h)]
      simp [List.removeAll, h]
    · rw [if_neg fun hmem => h (List.mem_eraseDups.mp hmem)]
      simp [List.removeAll, h, List.eraseDups_cons]

/-- Whether a catalog keeps what was put into it: the last item under each key, with the keys in the
order of their first use. -/
structure Keeps (c : Catalog α) (entries : List (String × α)) : Prop where
  keys : c.keys = (entries.map Prod.fst).eraseDups
  get?_iff : ∀ key item, c.get? key = some item ↔ IsLast entries key item

theorem keeps_ofList (entries : List (String × α)) : (ofList entries).Keeps entries where
  keys := keys_ofList
  get?_iff := fun _ _ => get?_ofList_eq_some_iff

/-- Something was put under a key exactly if there is a last item that was. -/
theorem exists_isLast_iff : (∃ item, IsLast entries key item) ↔ key ∈ entries.map Prod.fst := by
  rw [← List.mem_eraseDups, ← keys_ofList, mem_keys_iff_get?]
  exact exists_congr fun _ => get?_ofList_eq_some_iff.symm

/-- What is last among changed entries was last before, if no entry with its key is dropped. -/
theorem isLast_filterMap_iff {β : Type} {change : String → α → Option β} {made : β}
    (h : ∀ entry ∈ entries, entry.1 = key → ∃ b, change entry.1 entry.2 = some b) :
    IsLast (entries.filterMap fun entry => (change entry.1 entry.2).map (entry.1, ·)) key made ↔
      ∃ item, IsLast entries key item ∧ change key item = some made := by
  induction entries using List.reverseRecOn with
  | nil =>
    refine iff_of_false not_isLast_nil ?_
    rintro ⟨item, hlast, -⟩
    exact not_isLast_nil hlast
  | append_singleton entries entry ih =>
    have ih' := ih fun e hmem => h e (List.mem_append_left _ hmem)
    have hentry := h entry (List.mem_append_right _ (List.mem_singleton_self _))
    simp only [isLast_concat]
    rw [List.filterMap_append]
    cases hb : change entry.1 entry.2 with
    | none =>
      have hne : ¬ key = entry.1 := by
        rintro rfl
        obtain ⟨b, hb'⟩ := hentry rfl
        rw [hb] at hb'
        cases hb'
      simp only [if_neg hne]
      rw [List.filterMap_cons_none (by rw [hb]; rfl), List.filterMap_nil, List.append_nil]
      exact ih'
    | some b =>
      rw [List.filterMap_cons_some (by rw [hb]; rfl), List.filterMap_nil, isLast_concat]
      by_cases hk : key = entry.1
      · subst hk
        simp [hb, eq_comm]
      · simp only [if_neg hk]
        exact ih'

end Last

/-! ## Items by key -/

/-- Items that stand under one key each are distinct. -/
theorem items_nodup {c : Catalog α}
    (h : ∀ k₁ k₂ item, c.get? k₁ = some item → c.get? k₂ = some item → k₁ = k₂) :
    c.items.Nodup := by
  have hpairs := List.pairwise_map.mp c.nodup
  rw [items, List.Nodup, List.pairwise_map]
  refine hpairs.imp_of_mem fun {a b} ha hb hne heq => hne ?_
  exact h _ _ _ (get?_of_mem_entries ha) (heq ▸ get?_of_mem_entries hb)

theorem filter_items_eq {c : Catalog α} {p : α → Bool} {k : String}
    (h : ∀ key item, c.get? key = some item → p item = true → key = k) :
    c.items.filter p = ((c.get? k).filter p).toList := by
  have hentry : ∀ entry ∈ c.entries, p entry.2 = true → entry.1 = k := fun entry hmem =>
    h _ _ (get?_of_mem_entries hmem)
  have hnodup := c.nodup
  unfold items get?
  generalize c.entries = entries at hentry hnodup
  clear h
  induction entries with
  | nil => rfl
  | cons entry rest ih =>
    obtain ⟨hnew, hrest⟩ := List.nodup_cons.mp hnodup
    have ih' := ih (fun e hmem => hentry e (List.mem_cons_of_mem _ hmem)) hrest
    rw [List.map_cons]
    by_cases hk : entry.1 = k
    -- what holds behind this entry would stand under the same key once more
    · have hnone : (rest.map Prod.snd).filter p = [] := by
        rw [List.filter_eq_nil_iff]
        rintro item hitem hp
        obtain ⟨other, hmem, rfl⟩ := List.mem_map.mp hitem
        have ho : other.1 = k := hentry other (List.mem_cons_of_mem _ hmem) hp
        exact hnew (List.mem_map.mpr ⟨other, hmem, ho.trans hk.symm⟩)
      rw [List.find?_cons_of_pos (by simpa using hk)]
      cases hp : p entry.2 <;> simp [Option.filter, hp, hnone]
    · have hp : ¬ p entry.2 = true := fun hp => hk (hentry entry (List.mem_cons_self ..) hp)
      rw [List.filter_cons_of_neg hp, List.find?_cons_of_neg (by simpa using hk)]
      exact ih'

end CommandTree.Catalog
