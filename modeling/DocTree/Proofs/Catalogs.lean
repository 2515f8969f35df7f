import DocTree.Catalog
import Mathlib.Data.List.Induction
import Mathlib.Data.List.Nodup

/-!
# Catalogs filled one entry at a time

What is found in a catalog after many entries have been put in: under each name the last value that
came for it. So a catalog has two readings. As a list it remembers when names came; as a function
from names it does not, and `Agrees` compares only the second. Everything that is published goes
through sorted keys, hence through the function.

The two main facts are that the value under a name is the last one given (`get?_ofList`) and that
the name stands where it came first (`keys_ofList`). They pull in opposite directions, and together
they are the whole of what a catalog made from entries is (`ext_of_get?`). Both are proved for a
catalog that is filled by a fold, since the listing, the record sets and the finished list are all
filled in that way.

`lastValue` is stated without catalogs. It is the specification, and it is what other modules use in
statements: of the members of an object, say, or of the records of several files one after the
other.
-/

set_option autoImplicit false

namespace DocTree

namespace Catalog

variable {α : Type}

/-! ## What is found

Keys, lookups and entries are three views of one list without repeated names, and each of the
equivalences here needs that: an entry in the list could otherwise stand behind another of its name.
-/

theorem mem_keys_iff_exists {catalog : Catalog α} {name : String} :
    name ∈ catalog.keys ↔ ∃ value, catalog.get? name = some value := by
  rw [mem_keys_iff, contains, Option.isSome_iff_exists]

theorem mem_keys_of_get? {catalog : Catalog α} {name : String} {value : α}
    (h : catalog.get? name = some value) : name ∈ catalog.keys :=
  mem_keys_iff_exists.2 ⟨value, h⟩

theorem get?_of_mem {catalog : Catalog α} {entry : String × α} (h : entry ∈ catalog.entries) :
    catalog.get? entry.1 = some entry.2 := by
  obtain ⟨value, hv⟩ := mem_keys_iff_exists.1 (List.mem_map_of_mem h)
  obtain ⟨other, ho, rfl⟩ := Option.map_eq_some_iff.1 hv
  have same : other.1 = entry.1 := by simpa using List.find?_some ho
  rw [hv, List.inj_on_of_nodup_map catalog.nodup (List.mem_of_find?_eq_some ho) h same]

theorem mem_entries_iff {catalog : Catalog α} {name : String} {value : α} :
    (name, value) ∈ catalog.entries ↔ catalog.get? name = some value := by
  constructor
  · exact get?_of_mem
  · intro h
    obtain ⟨entry, hfind, rfl⟩ := Option.map_eq_some_iff.1 h
    have same : entry.1 = name := by simpa using List.find?_some hfind
    exact same ▸ List.mem_of_find?_eq_some hfind

/-- A catalog is its names with what is under them. The order of the names is part of that: equal
lookups alone give `Agrees` only. -/
theorem ext_of_get? {catalog other : Catalog α} (keys : catalog.keys = other.keys)
    (same : ∀ name ∈ catalog.keys, catalog.get? name = other.get? name) : catalog = other := by
  have listed : ∀ catalog : Catalog α, catalog.entries = catalog.keys.filterMap fun name =>
      (catalog.get? name).map fun value => (name, value) := by
    intro catalog
    have each : ∀ entry ∈ catalog.entries,
        (catalog.get? entry.1).map (fun value => (entry.1, value)) = some entry := by
      intro entry hm
      rw [get?_of_mem hm]
      rfl
    rw [Catalog.keys, List.filterMap_map]
    exact ((List.filterMap_congr each).trans List.filterMap_some).symm
  have entries : catalog.entries = other.entries := by
    rw [listed catalog, listed other, ← keys]
    apply List.filterMap_congr
    intro name hm
    rw [same name hm]
  cases catalog
  cases other
  cases entries
  rfl

theorem get?_erase (catalog : Catalog α) (name other : String) :
    (catalog.erase name).get? other = if name = other then none else catalog.get? other := by
  unfold get? erase
  rw [List.find?_filter]
  by_cases h : name = other
  · subst h
    simp
  · rw [if_neg h]
    congr 2
    funext entry
    by_cases he : entry.1 = other <;> simp [he, Ne.symm h]

/-! ## The last entry wins

The recursion looks at the rest of the list before the entry in front, so the last one decides. A
fold puts the entries in from the front, and there the value of a name changes as often as the name
comes; that the two agree is the append law together with `get?_insert`. -/

/-- The value of the last entry under a name. The rest of the list is asked first, so the entry in
front counts only when nothing behind it has its name. -/
def lastValue (name : String) : List (String × α) → Option α
  | [] => none
  | entry :: rest => (lastValue name rest).or (if entry.1 = name then some entry.2 else none)

theorem lastValue_append (name : String) (front back : List (String × α)) :
    lastValue name (front ++ back) = (lastValue name back).or (lastValue name front) := by
  induction front with
  | nil => rw [List.nil_append, lastValue, Option.or_none]
  | cons entry rest ih => rw [List.cons_append, lastValue, ih, lastValue, Option.or_assoc]

theorem mem_of_lastValue {name : String} {entries : List (String × α)} {value : α}
    (h : lastValue name entries = some value) : (name, value) ∈ entries := by
  induction entries with
  | nil => cases h
  | cons entry rest ih =>
    rw [lastValue, Option.or_eq_some_iff] at h
    rcases h with h | ⟨-, h⟩
    · exact List.mem_cons_of_mem _ (ih h)
    · by_cases hn : entry.1 = name
      · rw [if_pos hn] at h
        cases h
        cases hn
        exact List.mem_cons_self
      · rw [if_neg hn] at h
        cases h

theorem lastValue_isSome {name : String} {entries : List (String × α)}
    (h : name ∈ entries.map Prod.fst) : (lastValue name entries).isSome = true := by
  induction entries with
  | nil => cases h
  | cons entry rest ih =>
    rw [lastValue, Option.isSome_or, Bool.or_eq_true]
    rcases List.mem_cons.1 h with rfl | h
    · exact Or.inr (by simp)
    · exact Or.inl (ih h)

theorem lastValue_eq_none_iff {name : String} {entries : List (String × α)} :
    lastValue name entries = none ↔ name ∉ entries.map Prod.fst := by
  constructor
  · intro h hm
    have hsome := lastValue_isSome hm
    rw [h] at hsome
    cases hsome
  · intro h
    rw [Option.eq_none_iff_forall_ne_some]
    exact fun value hv => h (List.mem_map_of_mem (mem_of_lastValue hv))

theorem get?_foldl_insert (entries : List (String × α)) (catalog : Catalog α) (name : String) :
    (entries.foldl (fun catalog entry => catalog.insert entry.1 entry.2) catalog).get? name
      = (lastValue name entries).or (catalog.get? name) := by
  induction entries generalizing catalog with
  | nil => rfl
  | cons entry rest ih =>
    rw [List.foldl_cons, ih, get?_insert, lastValue, Option.or_assoc]
    congr 1
    split <;> rfl

/-- **Under each name stands the last value that came for it**, wherever the name stands itself. -/
theorem get?_ofList (entries : List (String × α)) (name : String) :
    (ofList entries).get? name = lastValue name entries := by
  rw [ofList, get?_foldl_insert, get?_empty, Option.or_none]

theorem mem_keys_ofList {entries : List (String × α)} {name : String} :
    name ∈ (ofList entries).keys ↔ name ∈ entries.map Prod.fst := by
  rw [mem_keys_iff_exists, get?_ofList]
  constructor
  · rintro ⟨value, h⟩
    exact List.mem_map_of_mem (mem_of_lastValue h)
  · intro h
    exact Option.isSome_iff_exists.1 (lastValue_isSome h)

theorem lastValue_eq_some_iff {name : String} {entries : List (String × α)} {value : α} :
    lastValue name entries = some value ↔
      ∃ front back, entries = front ++ (name, value) :: back ∧ name ∉ back.map Prod.fst := by
  constructor
  · intro h
    induction entries with
    | nil => cases h
    | cons entry rest ih =>
      rw [lastValue, Option.or_eq_some_iff] at h
      rcases h with h | ⟨hnone, h⟩
      · obtain ⟨front, back, rfl, hback⟩ := ih h
        exact ⟨entry :: front, back, rfl, hback⟩
      · by_cases hn : entry.1 = name
        · rw [if_pos hn] at h
          cases h
          cases hn
          exact ⟨[], rest, rfl, lastValue_eq_none_iff.1 hnone⟩
        · rw [if_neg hn] at h
          cases h
  · rintro ⟨front, back, rfl, hback⟩
    rw [lastValue_append, lastValue, lastValue_eq_none_iff.2 hback]
    simp

theorem lastValue_eq_getLast? (name : String) (entries : List (String × α)) :
    lastValue name entries
      = (entries.filter fun entry => entry.1 == name).getLast?.map Prod.snd := by
  induction entries with
  | nil => rfl
  | cons entry rest ih =>
    rw [lastValue, ih, List.filter_cons]
    by_cases h : entry.1 = name
    · rw [if_pos h, if_pos (beq_iff_eq.2 h), List.getLast?_cons]
      cases (rest.filter fun entry => entry.1 == name).getLast? <;> rfl
    · rw [if_neg h, if_neg fun he => h (beq_iff_eq.1 he), Option.or_none]

/-- Names stay where they came first when one more is put in. Written with `eraseDups`, the order
needs no mention of which names are new. -/
theorem keys_insert_eraseDups {catalog : Catalog α} {names : List String}
    (h : catalog.keys = names.eraseDups) (name : String) (value : α) :
    (catalog.insert name value).keys = (names ++ [name]).eraseDups := by
  rw [keys_insert, h, List.eraseDups_append]
  by_cases hm : name ∈ names
  · rw [if_pos (List.mem_eraseDups.2 hm)]
    simp [List.removeAll, hm]
  · rw [if_neg fun hd => hm (List.mem_eraseDups.1 hd)]
    simp [List.removeAll, hm, List.eraseDups_cons]

/-- **Each name stands where it came first**, also when its value came later. -/
theorem keys_ofList (entries : List (String × α)) :
    (ofList entries).keys = (entries.map Prod.fst).eraseDups := by
  induction entries using List.reverseRecOn with
  | nil => rfl
  | append_singleton front entry ih =>
    rw [ofList, List.foldl_append, List.foldl_cons, List.foldl_nil, ← ofList, List.map_append]
    exact keys_insert_eraseDups ih entry.1 entry.2

/-- Several batches of entries say of a name what one of them says, when the others say the same or
nothing. -/
theorem lastValue_flatMap {β : Type} {batch : β → List (String × α)} {name : String} {value : α}
    {sources : List β}
    (same : ∀ s ∈ sources, lastValue name (batch s) = some value ∨ lastValue name (batch s) = none)
    (one : ∃ s ∈ sources, lastValue name (batch s) = some value) :
    lastValue name (sources.flatMap batch) = some value := by
  induction sources with
  | nil =>
    obtain ⟨s, hs, -⟩ := one
    cases hs
  | cons s rest ih =>
    have later : ∀ t ∈ rest, lastValue name (batch t) = some value ∨
        lastValue name (batch t) = none := fun t ht => same t (List.mem_cons_of_mem _ ht)
    rw [List.flatMap_cons, lastValue_append]
    -- a batch behind the first may have the name, and then the first does not count
    by_cases hrest : ∃ t ∈ rest, lastValue name (batch t) = some value
    · rw [ih later hrest]
      rfl
    · have silent : lastValue name (rest.flatMap batch) = none := by
        rw [lastValue_eq_none_iff, List.map_flatMap, List.mem_flatMap]
        rintro ⟨t, ht, hm⟩
        rcases later t ht with h | h
        · exact hrest ⟨t, ht, h⟩
        · exact lastValue_eq_none_iff.1 h hm
      obtain ⟨t, ht, hv⟩ := one
      rcases List.mem_cons.1 ht with rfl | ht
      · rw [silent, hv]
        rfl
      · exact absurd ⟨t, ht, hv⟩ hrest

/-- The order of the batches does not matter for a name that comes from one of them only. Within
that batch the order does matter, and it is not changed. -/
theorem lastValue_flatMap_perm {β : Type} {batch : β → List (String × α)} {name : String}
    {sources others : List β} (perm : sources.Perm others)
    (one : ∀ s ∈ sources, ∀ t ∈ sources, name ∈ (batch s).map Prod.fst →
      name ∈ (batch t).map Prod.fst → s = t) :
    lastValue name (sources.flatMap batch) = lastValue name (others.flatMap batch) := by
  -- either one batch alone has the name, and all orders end with it, or none has
  by_cases h : ∃ s ∈ sources, name ∈ (batch s).map Prod.fst
  · obtain ⟨s, hs, hname⟩ := h
    obtain ⟨value, hv⟩ := Option.isSome_iff_exists.1 (lastValue_isSome hname)
    have same : ∀ t ∈ sources, lastValue name (batch t) = some value ∨
        lastValue name (batch t) = none := by
      intro t ht
      by_cases hn : name ∈ (batch t).map Prod.fst
      · exact Or.inl (one s hs t ht hname hn ▸ hv)
      · exact Or.inr (lastValue_eq_none_iff.2 hn)
    rw [lastValue_flatMap same ⟨s, hs, hv⟩,
      lastValue_flatMap (fun t ht => same t (perm.mem_iff.2 ht)) ⟨s, perm.mem_iff.1 hs, hv⟩]
  · have absent : ∀ files : List β, (∀ t ∈ files, t ∈ sources) →
        lastValue name (files.flatMap batch) = none := by
      intro files hfiles
      rw [lastValue_eq_none_iff, List.map_flatMap, List.mem_flatMap]
      rintro ⟨t, ht, hn⟩
      exact h ⟨t, hfiles t ht, hn⟩
    rw [absent sources fun _ => id, absent others fun t ht => perm.mem_iff.2 ht]

/-! ## The same function from names

Agreement forgets the order of the names and nothing else. -/

/-- Two catalogs in which the same is found under every name. They may have their names in different
orders. -/
def Agrees (catalog other : Catalog α) : Prop := ∀ name, catalog.get? name = other.get? name

theorem Agrees.symm {catalog other : Catalog α} (h : Agrees catalog other) :
    Agrees other catalog := fun name => (h name).symm

theorem Agrees.mem_keys {catalog other : Catalog α} (h : Agrees catalog other) {name : String} :
    name ∈ catalog.keys ↔ name ∈ other.keys := by
  rw [mem_keys_iff_exists, mem_keys_iff_exists, h name]

theorem Agrees.keys_perm {catalog other : Catalog α} (h : Agrees catalog other) :
    catalog.keys.Perm other.keys :=
  (List.perm_ext_iff_of_nodup catalog.nodup other.nodup).2 fun _ => h.mem_keys

end Catalog

end DocTree
