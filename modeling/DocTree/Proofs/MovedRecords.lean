import DocTree.Proofs.OnePass

/-!
# The records of a pass

What becomes of all records together when sections are inferred. A record that gets a new key may
find another one there, which was documented with its section from the start. There is one record to
a key, so the moved one takes the place of the other (`taken`), and the other is lost. Nothing else
is lost and nothing is doubled: the entries of the result are those of the listing whose keys were
not taken, each at its old key or its new one (`relocate`).

A second pass finds nothing to do. Moves put a section in front of names that have one elsewhere
already, so the names that are known to have a section are the same before and after
(`known_inferSections`), and a record that was left without one is left so again.

Which record is lost can be told from the keys of the listing alone, before the pass. It is never
one that was moved (`not_taken_of_newKey`): a new key has a section, so what stands there from the
start has one too and stays. Therefore the order of the moves plays no part, and the result can be
given as a list of entries at once, with the number of those that are missing. That it holds up to
the order of entries is enough, as the order of the result is described with its keys.

Taking the place of another record is what inserting under a key means, here as when files are
merged. The listing at the end shows that it happens: a class is documented twice, with its section
and without.
-/

set_option autoImplicit false

namespace DocTree

namespace Listing

/-! ## Entries that stay and entries that are lost

Both are said by keys: a key is taken if some other key is moved to it, and an entry is relocated by
what its own key is moved to. The records have no influence on either. -/

/-- Whether a record with another key gets this one by the pass. The record that has the key is then
lost, whatever is in it. -/
def taken (keys : List String) (key : String) : Bool :=
  keys.any fun other => newKey keys other == some key

/-- The entry under its new key, which becomes the identifier of the record, if it gets one. -/
def relocate (keys : List String) (entry : String × Record) : String × Record :=
  match newKey keys entry.1 with
  | some moved => (moved, { entry.2 with id := moved })
  | none => entry

theorem taken_iff {keys : List String} {key : String} :
    taken keys key = true ↔ ∃ other ∈ keys, newKey keys other = some key := by
  simp only [taken, List.any_eq_true, beq_iff_eq]

theorem newKey_ne_of_free {keys : List String} {key other : String}
    (free : taken keys key = false) (ho : other ∈ keys) : newKey keys other ≠ some key := by
  intro he
  rw [taken_iff.2 ⟨other, ho, he⟩] at free
  cases free

theorem relocate_of_some {keys : List String} {entry : String × Record} {moved : String}
    (h : newKey keys entry.1 = some moved) :
    relocate keys entry = (moved, { entry.2 with id := moved }) := by
  rw [relocate, h]

theorem relocate_of_none {keys : List String} {entry : String × Record}
    (h : newKey keys entry.1 = none) : relocate keys entry = entry := by
  rw [relocate, h]

theorem relocate_cases (keys : List String) (entry : String × Record) :
    newKey keys entry.1 = some (relocate keys entry).1 ∨
      (newKey keys entry.1 = none ∧ (relocate keys entry).1 = entry.1) := by
  cases h : newKey keys entry.1 with
  | some moved => exact Or.inl (congrArg (fun e => some e.1) (relocate_of_some h).symm)
  | none => exact Or.inr ⟨rfl, congrArg Prod.fst (relocate_of_none h)⟩

theorem relocate_snd (keys : List String) (entry : String × Record) :
    (relocate keys entry).2 = { entry.2 with id := (relocate keys entry).2.id } := by
  cases h : newKey keys entry.1 with
  | some moved => rw [relocate_of_some h]
  | none => rw [relocate_of_none h]

section Pass

variable {listing : Listing}

theorem newKey_of_newKey {key moved : String} (hk : key ∈ listing.keys)
    (h : newKey listing.keys key = some moved) : newKey listing.keys moved = none := by
  obtain ⟨s, hmoves, rfl⟩ := exists_moves hk h
  refine newKey_of_not_lacksSection ?_
  rw [lacksSection_append hmoves.plain hmoves.ne_empty hmoves.lacks]
  decide

theorem not_taken_of_newKey {key moved : String} (h : newKey listing.keys key = some moved) :
    taken listing.keys key = false := by
  refine Bool.eq_false_iff.2 fun htaken => ?_
  obtain ⟨other, ho, he⟩ := taken_iff.1 htaken
  rw [newKey_of_newKey ho he] at h
  cases h

/-- **The entries of the result**: those of the listing that are not taken, each where the pass puts
it. -/
theorem mem_entries_inferSections {entry : String × Record} :
    entry ∈ listing.inferSections.entries ↔
      ∃ before ∈ listing.entries, taken listing.keys before.1 = false ∧
        relocate listing.keys before = entry := by
  obtain ⟨key, record⟩ := entry
  rw [Catalog.mem_entries_iff]
  constructor
  · intro h
    by_cases htaken : taken listing.keys key = true
    · -- the record under a key that is taken is the one that was moved there
      obtain ⟨other, ho, hnew⟩ := taken_iff.1 htaken
      obtain ⟨kept, hr⟩ := Catalog.mem_keys_iff_exists.1 ho
      rw [(get?_inferSections_moved hr hnew).1] at h
      cases h
      exact ⟨(other, kept), Catalog.mem_entries_iff.2 hr, not_taken_of_newKey hnew,
        relocate_of_some hnew⟩
    · rcases inferSections_cases h with ⟨stays, hr⟩ | ⟨other, s, kept, hmoves, -, rfl, -⟩
      · have hnone : newKey listing.keys key = none := by
          refine Option.eq_none_iff_forall_ne_some.2 fun moved hnew => ?_
          obtain ⟨s, hmoves, -⟩ := exists_moves (Catalog.mem_keys_of_get? hr) hnew
          exact stays s hmoves
        exact ⟨(key, record), Catalog.mem_entries_iff.2 hr, Bool.eq_false_iff.2 htaken,
          relocate_of_none hnone⟩
      · exact absurd (taken_iff.2 ⟨other, hmoves.mem_keys, hmoves.newKey⟩) htaken
  · rintro ⟨⟨before, kept⟩, hmem, htaken, he⟩
    have hr := Catalog.mem_entries_iff.1 hmem
    cases hnew : newKey listing.keys before with
    | some moved =>
      rw [relocate_of_some hnew] at he
      cases he
      exact (get?_inferSections_moved hr hnew).1
    | none =>
      rw [relocate_of_none hnew] at he
      cases he
      rw [get?_inferSections_kept hnew fun other ho => newKey_ne_of_free htaken ho]
      exact hr

theorem relocate_inj {entry other : String × Record} (he : entry ∈ listing.entries)
    (ho : other ∈ listing.entries) (free : taken listing.keys entry.1 = false)
    (free' : taken listing.keys other.1 = false)
    (same : (relocate listing.keys entry).1 = (relocate listing.keys other).1) :
    entry = other := by
  refine List.inj_on_of_nodup_map listing.nodup he ho ?_
  have hkey : entry.1 ∈ listing.keys := List.mem_map_of_mem he
  have hkey' : other.1 ∈ listing.keys := List.mem_map_of_mem ho
  -- each is moved or stays: two moves go to different keys, and a move to a key that stays would
  -- take it
  rcases relocate_cases listing.keys entry with h | ⟨-, h⟩ <;>
    rcases relocate_cases listing.keys other with h' | ⟨-, h'⟩
  · exact newKey_injective h (same ▸ h')
  · exact absurd (h.trans (congrArg some (same.trans h'))) (newKey_ne_of_free free' hkey)
  · exact absurd (h'.trans (congrArg some (same.symm.trans h))) (newKey_ne_of_free free hkey')
  · exact h.symm.trans (same.trans h')

def settledEntries (listing : Listing) : List (String × Record) :=
  (listing.entries.filter fun entry => !taken listing.keys entry.1).map (relocate listing.keys)

theorem entries_perm (listing : Listing) :
    listing.inferSections.entries.Perm listing.settledEntries := by
  have result : listing.inferSections.entries.Nodup :=
    List.Nodup.of_map _ listing.inferSections.nodup
  have settled : listing.settledEntries.Nodup := by
    refine List.Nodup.map_on ?_ ((List.Nodup.of_map _ listing.nodup).filter _)
    intro entry he other ho same
    obtain ⟨hmem, hfree⟩ := List.mem_filter.1 he
    obtain ⟨hmem', hfree'⟩ := List.mem_filter.1 ho
    exact relocate_inj hmem hmem' (by simpa using hfree) (by simpa using hfree')
      (congrArg Prod.fst same)
  refine (List.perm_ext_iff_of_nodup result settled).2 fun entry => ?_
  rw [mem_entries_inferSections, settledEntries, List.mem_map]
  simp only [List.mem_filter, Bool.not_eq_true', and_assoc]

theorem size_inferSections (listing : Listing) :
    listing.inferSections.size + (listing.keys.filter (taken listing.keys)).length
      = listing.size := by
  have lost : (listing.keys.filter (taken listing.keys)).length
      = (listing.entries.filter fun entry => taken listing.keys entry.1).length := by
    rw [Catalog.keys, List.filter_map, List.length_map]
    rfl
  have left : listing.inferSections.size
      = (listing.entries.filter fun entry => !taken listing.keys entry.1).length := by
    rw [Catalog.size, (entries_perm listing).length_eq, settledEntries, List.length_map]
  rw [lost, left, Nat.add_comm, Catalog.size]
  exact (List.length_eq_length_filter_add
    (fun entry : String × Record => taken listing.keys entry.1)).symm

end Pass

/-- What it is for a listing to have the records of another one, but for those whose place a moved
record took. -/
structure KeepsRecords (listing result : Listing) : Prop where
  /-- A record is lost where one with another key is moved to its key. -/
  taken_iff : ∀ key, taken listing.keys key = true ↔
    ∃ other ∈ listing.keys, newKey listing.keys other = some key ∧ other ≠ key
  /-- Each other record is in the result once, and nothing else is; ... -/
  entries_perm : result.entries.Perm
    ((listing.entries.filter fun entry => !taken listing.keys entry.1).map (relocate listing.keys))
  /-- ... it stands under its new key if it gets one, ... -/
  key_eq : ∀ entry, (relocate listing.keys entry).1 = (newKey listing.keys entry.1).getD entry.1
  /-- ... and nothing but its identifier changes. -/
  record_eq : ∀ entry, (relocate listing.keys entry).2
    = { entry.2 with id := (relocate listing.keys entry).2.id }
  size_add : result.size + (listing.keys.filter (taken listing.keys)).length = listing.size
  size_eq_iff : result.size = listing.size ↔ ∀ key ∈ listing.keys, taken listing.keys key = false

/-- **Section inference loses the records that are taken and no other.** What remains is a
permutation of the other entries, each relocated, and the sizes follow from that. -/
theorem inferSections_keepsRecords (listing : Listing) :
    KeepsRecords listing listing.inferSections := by
  have sizes := size_inferSections listing
  constructor
  case taken_iff =>
    intro key
    rw [taken_iff]
    refine ⟨fun ⟨other, ho, he⟩ => ⟨other, ho, he, ?_⟩, fun ⟨other, ho, he, _⟩ => ⟨other, ho, he⟩⟩
    rintro rfl
    rw [newKey_of_newKey ho he] at he
    cases he
  case entries_perm => exact entries_perm listing
  case key_eq =>
    intro entry
    rcases relocate_cases listing.keys entry with h | ⟨h, hkey⟩
    · rw [h, Option.getD_some]
    · rw [h, Option.getD_none, hkey]
  case record_eq => exact relocate_snd listing.keys
  case size_add => exact sizes
  case size_eq_iff =>
    have none_lost : (listing.keys.filter (taken listing.keys)).length = 0 ↔
        ∀ key ∈ listing.keys, taken listing.keys key = false := by
      rw [List.length_eq_zero_iff, List.filter_eq_nil_iff]
      simp only [Bool.not_eq_true]
    rw [← none_lost]
    omega

/-- A class that is documented with its section on line 9, and once more without a section on
line 4. -/
def twiceDocumented : Listing :=
  Catalog.ofList
    [("", Record.root),
     ("Utilities.Ajax", { Record.blank "Utilities.Ajax" .classKind with line := 9 }),
     (".Ajax", { Record.blank ".Ajax" .classKind with line := 4 })]

/-- **A record can be lost**: of three one is missing, and nothing in the result has its line. -/
theorem record_lost :
    twiceDocumented.size = 3 ∧ twiceDocumented.inferSections.size = 2 ∧
      twiceDocumented.values.map Record.line = [0, 9, 4] ∧
      twiceDocumented.inferSections.values.map Record.line = [0, 4] := by
  decide +kernel

/-! ## A second pass

The section of a key may be inferred only from its outermost name, so all that a pass can change for
the next one is which outermost names are known to have a section. -/

def Known (keys : List String) (head : Option String) : Prop :=
  ∃ other ∈ keys, sectionOf other ≠ "" ∧ headOf other = head

theorem headOf_append {s key : String} (hs : Ident.Plain s) (h : lacksSection key = true) :
    headOf (s ++ key) = headOf key := by
  rw [headOf, segments_append_of_lacksSection hs h, headOf, List.getElem?_cons_succ,
    List.getElem?_tail]

section SecondPass

variable {listing : Listing}

theorem mem_keys_of_lacksSection {key : String} (hk : key ∈ listing.inferSections.keys)
    (hl : lacksSection key = true) : key ∈ listing.keys ∧ newKey listing.keys key = none := by
  rw [keys_inferSections, List.mem_append] at hk
  rcases hk with hk | hk
  · obtain ⟨hmem, hnone⟩ := List.mem_filter.1 hk
    exact ⟨hmem, of_decide_eq_true hnone⟩
  · obtain ⟨other, ho, he⟩ := List.mem_filterMap.1 (List.mem_filter.1 hk).1
    obtain ⟨s, hmoves, rfl⟩ := exists_moves ho he
    rw [lacksSection_append hmoves.plain hmoves.ne_empty hmoves.lacks] at hl
    cases hl

/-- **A pass makes no outermost name known that was not**: a moved record has the name of the one
that lent its section. Nor is one forgotten, since a key that has a section is not moved, and one
that takes its place has the same name. -/
theorem known_inferSections {head : Option String} :
    Known listing.inferSections.keys head ↔ Known listing.keys head := by
  constructor
  · rintro ⟨key, hk, hs, rfl⟩
    rw [keys_inferSections, List.mem_append] at hk
    rcases hk with hk | hk
    · exact ⟨key, (List.mem_filter.1 hk).1, hs, rfl⟩
    · obtain ⟨other, ho, he⟩ := List.mem_filterMap.1 (List.mem_filter.1 hk).1
      obtain ⟨s, hmoves, rfl⟩ := exists_moves ho he
      rw [headOf_append hmoves.plain hmoves.lacks]
      exact (exists_newKey_iff.1 ⟨_, he⟩).2.2
  · rintro ⟨key, hk, hs, rfl⟩
    refine ⟨key, ?_, hs, rfl⟩
    have stays : newKey listing.keys key = none :=
      newKey_of_not_lacksSection fun hl => hs (lacksSection_eq_true_iff.1 hl).2
    rw [keys_inferSections, List.mem_append, List.mem_filter]
    exact Or.inl ⟨hk, decide_eq_true stays⟩

theorem not_known_of_lacksSection {key : String} (hk : key ∈ listing.inferSections.keys)
    (hl : lacksSection key = true) : ¬ Known listing.inferSections.keys (headOf key) := by
  intro hknown
  obtain ⟨-, hnone⟩ := mem_keys_of_lacksSection hk hl
  obtain ⟨hne, hs⟩ := lacksSection_eq_true_iff.1 hl
  obtain ⟨moved, hmoved⟩ := exists_newKey_iff.2 ⟨hne, hs, known_inferSections.1 hknown⟩
  rw [hnone] at hmoved
  cases hmoved

theorem inferSections_eq_self
    (settled : ∀ key ∈ listing.keys, lacksSection key = true → ¬ Known listing.keys (headOf key)) :
    listing.inferSections = listing := by
  have steps : ∀ keys : List String, (∀ key ∈ keys,
      inferredSection (knownSections listing.keys) key = none) →
        keys.foldl (inferSection (knownSections listing.keys)) listing = listing := by
    intro keys hkeys
    induction keys with
    | nil => rfl
    | cons key rest ih =>
      rw [List.foldl_cons, inferSection, hkeys key List.mem_cons_self]
      exact ih fun other ho => hkeys other (List.mem_cons_of_mem _ ho)
  refine steps _ fun key hk => inferredSection_eq_none_iff.2 fun other ho hs he => ?_
  obtain ⟨hmem, hl⟩ := List.mem_filter.1 hk
  exact settled key hmem hl ⟨other, ho, hs, he⟩

end SecondPass

/-- **One pass is enough**: what it leaves without a section shares its outermost name with nothing
that has one, and so a second pass changes nothing. -/
theorem inferSections_inferSections (listing : Listing) :
    (∀ key ∈ listing.inferSections.keys, lacksSection key = true →
      ∀ other ∈ listing.inferSections.keys, sectionOf other ≠ "" → headOf other ≠ headOf key) ∧
    listing.inferSections.inferSections = listing.inferSections := by
  have settled : ∀ key ∈ listing.inferSections.keys, lacksSection key = true →
      ¬ Known listing.inferSections.keys (headOf key) := fun _ => not_known_of_lacksSection
  constructor
  · intro key hk hl other ho hs he
    exact settled key hk hl ⟨other, ho, hs, he⟩
  · exact inferSections_eq_self settled

end Listing

end DocTree
