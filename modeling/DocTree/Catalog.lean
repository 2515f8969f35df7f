/-!
# Catalogs

A catalog keeps values under names, each name once, in the order in which the names were first put
in. Putting in a value under a name that is there replaces the value and keeps its place; taking a
name out closes the gap.

Records are listed in this form from the first file to the output, and so are parsers under their
names. The order matters: of two records that could lend a section the first one does, and a listing
is published in an order that is computed from these keys. So the type is a list of entries and no
search tree. That the names are distinct belongs to the type, which is why no function on listings
states it and why a lookup and a membership can be exchanged without a side condition
(`mem_entries_iff` in `Proofs.Catalogs`).
-/

set_option autoImplicit false

namespace DocTree

/-! ## Lists of named values

The one operation with a case in it, on plain lists. What it does to the names and to a lookup is
proved here, before the type, since the type needs the first fact to be closed under it. -/

namespace Catalog

variable {α : Type}

def insertEntry (name : String) (value : α) : List (String × α) → List (String × α)
  | [] => [(name, value)]
  | (other, kept) :: rest =>
    if other = name then (name, value) :: rest
    else (other, kept) :: insertEntry name value rest

theorem mem_names_insertEntry {name other : String} {value : α} {entries : List (String × α)} :
    other ∈ (insertEntry name value entries).map Prod.fst ↔
      other = name ∨ other ∈ entries.map Prod.fst := by
  induction entries with
  | nil => simp [insertEntry]
  | cons entry rest ih =>
    obtain ⟨first, kept⟩ := entry
    by_cases h : first = name
    · simp [insertEntry, h]
    · simp only [insertEntry, h, if_false, List.map_cons, List.mem_cons, ih]
      exact or_left_comm

theorem nodup_names_insertEntry {name : String} {value : α} {entries : List (String × α)}
    (h : (entries.map Prod.fst).Nodup) : ((insertEntry name value entries).map Prod.fst).Nodup := by
  induction entries with
  | nil => simp [insertEntry]
  | cons entry rest ih =>
    obtain ⟨first, kept⟩ := entry
    rw [List.map_cons, List.nodup_cons] at h
    by_cases he : first = name
    · subst he
      simpa [insertEntry] using h
    · simp only [insertEntry, he, if_false, List.map_cons, List.nodup_cons]
      exact ⟨fun hm => (mem_names_insertEntry.1 hm).elim he h.1, ih h.2⟩

theorem find?_insertEntry {name other : String} {value : α} {entries : List (String × α)} :
    (insertEntry name value entries).find? (fun entry => entry.1 == other) =
      if name = other then some (name, value)
      else entries.find? fun entry => entry.1 == other := by
  induction entries with
  | nil => by_cases h : name = other <;> simp [insertEntry, h]
  | cons entry rest ih =>
    obtain ⟨first, kept⟩ := entry
    by_cases h : first = name
    · subst h
      by_cases ho : first = other <;> simp [insertEntry, ho]
    · by_cases ho : first = other
      · subst ho
        simp [insertEntry, h, Ne.symm h]
      · simp [insertEntry, h, ho, ih]

theorem map_fst_insertEntry {name : String} {value : α} {entries : List (String × α)} :
    (insertEntry name value entries).map Prod.fst =
      if name ∈ entries.map Prod.fst then entries.map Prod.fst
      else entries.map Prod.fst ++ [name] := by
  induction entries with
  | nil => rfl
  | cons entry rest ih =>
    obtain ⟨first, kept⟩ := entry
    by_cases h : first = name
    · simp [insertEntry, h]
    · simp only [insertEntry, h, if_false, List.map_cons, ih, List.mem_cons, Ne.symm h, false_or]
      split <;> rfl

end Catalog

/-! ## The type -/

/-- Values under names, in the order in which the names came. A name cannot come twice, which is
part of the type and need not be shown of each catalog again. -/
structure Catalog (α : Type) where
  entries : List (String × α)
  nodup : (entries.map Prod.fst).Nodup

namespace Catalog

variable {α : Type}

def empty : Catalog α := ⟨[], List.nodup_nil⟩

def keys (catalog : Catalog α) : List String := catalog.entries.map Prod.fst

def values (catalog : Catalog α) : List α := catalog.entries.map Prod.snd

def size (catalog : Catalog α) : Nat := catalog.entries.length

def get? (catalog : Catalog α) (name : String) : Option α :=
  (catalog.entries.find? fun entry => entry.1 == name).map Prod.snd

def contains (catalog : Catalog α) (name : String) : Bool := (catalog.get? name).isSome

def insert (catalog : Catalog α) (name : String) (value : α) : Catalog α :=
  ⟨insertEntry name value catalog.entries, nodup_names_insertEntry catalog.nodup⟩

def erase (catalog : Catalog α) (name : String) : Catalog α :=
  ⟨catalog.entries.filter fun entry => entry.1 != name,
    (List.filter_sublist.map Prod.fst).nodup catalog.nodup⟩

def ofList (entries : List (String × α)) : Catalog α :=
  entries.foldl (fun catalog entry => catalog.insert entry.1 entry.2) empty

/-! ## What the operations do to the names and the values

A catalog is determined by its keys and its lookups, so these two are what every operation is
described by. -/

@[simp] theorem keys_empty : (empty : Catalog α).keys = [] := rfl

@[simp] theorem get?_empty (name : String) : (empty : Catalog α).get? name = none := rfl

/-- A name that is there keeps its place, and a new one comes last. The order of names is therefore
that in which they came first. -/
theorem keys_insert (catalog : Catalog α) (name : String) (value : α) :
    (catalog.insert name value).keys =
      if name ∈ catalog.keys then catalog.keys else catalog.keys ++ [name] :=
  map_fst_insertEntry

/-- What is put in is found under its name, and nothing else moves. -/
theorem get?_insert (catalog : Catalog α) (name other : String) (value : α) :
    (catalog.insert name value).get? other =
      if name = other then some value else catalog.get? other := by
  unfold get? insert
  rw [find?_insertEntry]
  split <;> rfl

theorem keys_erase (catalog : Catalog α) (name : String) :
    (catalog.erase name).keys = catalog.keys.filter (· != name) := by
  unfold keys
  rw [List.filter_map]
  rfl

theorem mem_keys_iff {catalog : Catalog α} {name : String} :
    name ∈ catalog.keys ↔ catalog.contains name = true := by
  unfold contains get? keys
  rw [Option.isSome_map, List.find?_isSome, List.mem_map]
  constructor
  · rintro ⟨entry, hm, he⟩
    exact ⟨entry, hm, beq_iff_eq.2 he⟩
  · rintro ⟨entry, hm, he⟩
    exact ⟨entry, hm, beq_iff_eq.1 he⟩

end Catalog

end DocTree
