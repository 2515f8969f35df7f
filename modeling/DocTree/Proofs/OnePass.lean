import DocTree.Proofs.SectionInference

/-!
# One pass over the keys

Section inference as a specification that never looks at a listing while it changes: each key is
renamed, or not, by the first listing alone (`newKey`). The loop takes a record out and puts it in
again at the end, or over the record that has the new key already, and the next step sees the
listing that this leaves. That the two agree needs the order of the keys as well as the records
under them (`keys_foldl_inferSection`): a new key has a section, so none of the steps to come takes
it out again, and it is in the listing now exactly if it was there at the start.

The order of the keys is part of the result, as it is what inference itself goes by: of several keys
that could lend a section the first one does. So the specification gives the list of keys and not a
set. Those that stay come first, then the new ones that were not there; a new key that was there
keeps its place, and only the record under it is another one.

What is inferred is known before the loop starts, as a table of outermost names with their sections,
the first of each name being found first (`inferredSection_eq_lender`). It is computed from the
first listing and never updated. Had it been updated, a record could lend the section that it was
just given; the outcome would be the same, for a reason that is given with the second pass.

For the induction the table is arbitrary but for one property: the sections in it are plain and not
empty (`named`). This is all that is needed to see that no target is a source, and that different
sources have different targets.
-/

set_option autoImplicit false

namespace DocTree

namespace Listing

/-! ## The specification

A key gets a section from its lender, the first key in the listing that can give it one. A key that
has a section is never renamed, and neither is the empty one. -/

/-- The first key that has a section and shares the outermost name. Which one is first depends on
how the listing stands, and so does the section that is lent. -/
def lender (keys : List String) (key : String) : Option String :=
  keys.find? fun other => sectionOf other != "" && headOf other == headOf key

/-- The key that a record gets by one look at all keys, if it gets another one: the section of the
lender in front of its own. -/
def newKey (keys : List String) (key : String) : Option String :=
  if lacksSection key then (lender keys key).map fun other => sectionOf other ++ key else none

theorem inferredSection_eq_lender (keys : List String) (key : String) :
    inferredSection (knownSections keys) key = (lender keys key).map sectionOf := by
  induction keys with
  | nil => rfl
  | cons other rest ih =>
    rw [inferredSection, knownSections] at ih ⊢
    rw [lender] at ih ⊢
    by_cases hs : sectionOf other = ""
    · simpa [hs] using ih
    · by_cases hh : headOf other = headOf key
      · simp [hs, hh]
      · have hswap : (headOf key == headOf other) = false := beq_false_of_ne (Ne.symm hh)
        simpa [hs, hh, List.lookup_cons, hswap] using ih

theorem newKey_eq_some_iff {keys : List String} {key moved : String} :
    newKey keys key = some moved ↔ lacksSection key = true ∧
      ∃ s, inferredSection (knownSections keys) key = some s ∧ moved = s ++ key := by
  rw [newKey, inferredSection_eq_lender]
  by_cases hl : lacksSection key = true
  · rw [if_pos hl]
    cases lender keys key <;> simp [hl, eq_comm]
  · simp [hl]

theorem Moves.newKey {listing : Listing} {key s : String} (h : Moves listing key s) :
    newKey listing.keys key = some (s ++ key) :=
  newKey_eq_some_iff.2 ⟨h.lacks, s, h.inferred, rfl⟩

theorem exists_moves {listing : Listing} {key moved : String} (hk : key ∈ listing.keys)
    (h : newKey listing.keys key = some moved) : ∃ s, Moves listing key s ∧ moved = s ++ key := by
  obtain ⟨hl, s, hs, rfl⟩ := newKey_eq_some_iff.1 h
  exact ⟨s, ⟨hk, hl, hs⟩, rfl⟩

/-! ## The keys after all steps

By induction on the keys that the loop goes through. The listing changes at each step, so the
statement is about any listing in which the keys to come are present, and about the keys that it has
at that moment. -/

section Keys

variable {known : List (Option String × String)}

/-- A move closes the gap behind it, and its target comes last unless it was there. In that case the
target keeps its place, now with the record that was moved. -/
theorem keys_moveTo {listing : Listing} {s key : String} (hk : key ∈ listing.keys)
    (hne : s ++ key ≠ key) :
    (moveTo s listing key).keys
      = listing.keys.filter (· != key) ++ [s ++ key].filter (· ∉ listing.keys) := by
  obtain ⟨record, hr⟩ := Catalog.mem_keys_iff_exists.1 hk
  rw [moveTo, hr]
  dsimp only
  rw [Catalog.keys_insert, Catalog.keys_erase]
  by_cases hm : s ++ key ∈ listing.keys
  · simp [hm, hne]
  · simp [hm]

def target (known : List (Option String × String)) (key : String) : Option String :=
  (inferredSection known key).map (· ++ key)

variable (named : ∀ {key s : String}, inferredSection known key = some s → Ident.Plain s ∧ s ≠ "")
include named

theorem target_ne {key moved source : String} (hk : lacksSection key = true)
    (hs : lacksSection source = true) (h : target known key = some moved) : moved ≠ source := by
  obtain ⟨s, hinf, rfl⟩ := Option.map_eq_some_iff.1 h
  exact (source_ne_target named hk hinf hs).symm

theorem target_inj {key other moved : String} (hk : lacksSection key = true)
    (ho : lacksSection other = true) (h : target known key = some moved)
    (h' : target known other = some moved) : key = other := by
  obtain ⟨s, hinf, rfl⟩ := Option.map_eq_some_iff.1 h
  obtain ⟨t, hinf', he⟩ := Option.map_eq_some_iff.1 h'
  exact (append_inj_of_lacksSection (named hinf).1 (named hinf').1 hk ho he.symm).2

/-- **The keys after a run of steps.** Those that stay keep their order, and behind them come the
targets that were not there, in the order of their sources. -/
theorem keys_foldl_inferSection {keys : List String} (distinct : keys.Nodup)
    (lacking : ∀ key ∈ keys, lacksSection key = true) {listing : Listing}
    (present : ∀ key ∈ keys, key ∈ listing.keys) :
    (keys.foldl (inferSection known) listing).keys
      = listing.keys.filter (fun x => x ∉ keys ∨ target known x = none)
        ++ (keys.filterMap (target known)).filter (· ∉ listing.keys) := by
  induction keys generalizing listing with
  | nil => simp
  | cons key rest ih =>
    obtain ⟨hkey, hrest⟩ := List.nodup_cons.1 distinct
    have hlacks := lacking key List.mem_cons_self
    have hlater : ∀ other ∈ rest, lacksSection other = true :=
      fun other ho => lacking other (List.mem_cons_of_mem _ ho)
    have there : ∀ other ∈ rest, other ∈ listing.keys :=
      fun other ho => present other (List.mem_cons_of_mem _ ho)
    rw [List.foldl_cons, List.filterMap_cons, inferSection]
    cases hinf : inferredSection known key with
    | none =>
      have hnone : target known key = none := by rw [target, hinf]; rfl
      rw [hnone]
      dsimp only
      rw [ih hrest hlater there]
      congr 1
      refine List.filter_congr fun x _ => ?_
      by_cases hx : x = key
      · simp [hx, hnone]
      · simp [hx]
    | some s =>
      have hsome : target known key = some (s ++ key) := by rw [target, hinf]; rfl
      have hne : s ++ key ≠ key := target_ne named hlacks hlacks hsome
      have step := keys_moveTo (present key List.mem_cons_self) hne
      have stay : (listing.keys.filter (· != key)).filter
            (fun x => x ∉ rest ∨ target known x = none)
          = listing.keys.filter (fun x => x ∉ key :: rest ∨ target known x = none) := by
        rw [List.filter_filter]
        refine List.filter_congr fun x _ => ?_
        by_cases hx : x = key
        · simp [hx, hkey, hsome]
        · simp [hx]
      -- the new key is no source, so the steps to come leave it where it is
      have keep : ([s ++ key].filter (· ∉ listing.keys)).filter
            (fun x => x ∉ rest ∨ target known x = none)
          = [s ++ key].filter (· ∉ listing.keys) := by
        refine List.filter_eq_self.2 fun x hx => ?_
        obtain rfl := List.mem_singleton.1 (List.mem_of_mem_filter hx)
        have hnot : s ++ key ∉ rest :=
          fun hm => target_ne named hlacks (hlater _ hm) hsome rfl
        simp [hnot]
      have later : (rest.filterMap (target known)).filter (· ∉ (moveTo s listing key).keys)
          = (rest.filterMap (target known)).filter (· ∉ listing.keys) := by
        refine List.filter_congr fun x hx => ?_
        obtain ⟨other, ho, htarget⟩ := List.mem_filterMap.1 hx
        have hsource : x ≠ key := target_ne named (hlater other ho) hlacks htarget
        have hother : x ≠ s ++ key := by
          rintro rfl
          exact hkey (target_inj named (hlater other ho) hlacks htarget hsome ▸ ho)
        rw [step]
        simp [hsource, hother]
      rw [hsome]
      dsimp only
      rw [ih hrest hlater, later, step, List.filter_append, stay, keep, List.append_assoc,
        ← List.filter_append, List.singleton_append]
      intro other ho
      rw [step, List.mem_append, List.mem_filter]
      refine Or.inl ⟨there other ho, bne_iff_ne.2 ?_⟩
      rintro rfl
      exact hkey ho

end Keys

/-! ## The pass

The loop goes through the keys that lack a section. For all others there is nothing to infer, so the
keys of the result can be given by `newKey` alone. -/

variable {listing : Listing}

theorem target_eq_newKey {key : String} (h : lacksSection key = true) :
    target (knownSections listing.keys) key = newKey listing.keys key := by
  rw [target, newKey, if_pos h, inferredSection_eq_lender, Option.map_map]
  rfl

theorem newKey_of_not_lacksSection {key : String} (h : ¬ lacksSection key = true) :
    newKey listing.keys key = none := by
  rw [newKey, if_neg h]

/-- **The keys of the result**, from the first listing alone. No key to which one is moved lacks a
section, so no source is a target and the steps do not see each other's results. -/
theorem keys_inferSections (listing : Listing) :
    listing.inferSections.keys
      = listing.keys.filter (fun key => newKey listing.keys key = none)
        ++ (listing.keys.filterMap (newKey listing.keys)).filter (· ∉ listing.keys) := by
  have sources : ∀ key ∈ listing.keys.filter lacksSection, key ∈ listing.keys :=
    fun _ hm => (List.mem_filter.1 hm).1
  have stay : ∀ key ∈ listing.keys,
      (key ∉ listing.keys.filter lacksSection ∨ target (knownSections listing.keys) key = none) ↔
        newKey listing.keys key = none := by
    intro key hk
    by_cases hl : lacksSection key = true
    · rw [target_eq_newKey hl]
      simp [hk, hl]
    · simp [hl, newKey_of_not_lacksSection hl]
  have targets : (listing.keys.filter lacksSection).filterMap (target (knownSections listing.keys))
      = listing.keys.filterMap (newKey listing.keys) := by
    rw [List.filterMap_filter]
    refine List.filterMap_congr fun key _ => ?_
    by_cases hl : lacksSection key = true
    · rw [if_pos hl, target_eq_newKey hl]
    · rw [if_neg hl, newKey_of_not_lacksSection hl]
  rw [inferSections, keys_foldl_inferSection named_knownSections (sources_nodup listing)
    sources_lack sources, targets]
  congr 1
  refine List.filter_congr fun key hk => ?_
  rw [decide_eq_decide]
  exact stay key hk

theorem newKey_injective {key other moved : String}
    (h : newKey listing.keys key = some moved) (h' : newKey listing.keys other = some moved) :
    key = other := by
  have hk := (newKey_eq_some_iff.1 h).1
  have ho := (newKey_eq_some_iff.1 h').1
  rw [← target_eq_newKey hk] at h
  rw [← target_eq_newKey ho] at h'
  exact target_inj named_knownSections hk ho h h'

theorem get?_inferSections_moved {key moved : String} {record : Record}
    (hr : listing.get? key = some record) (h : newKey listing.keys key = some moved) :
    listing.inferSections.get? moved = some { record with id := moved } ∧
      listing.inferSections.get? key = none := by
  obtain ⟨s, hmoves, rfl⟩ := exists_moves (Catalog.mem_keys_of_get? hr) h
  exact ⟨get?_inferSections_target hmoves hr, get?_inferSections_source hmoves⟩

theorem get?_inferSections_kept {key : String} (h : newKey listing.keys key = none)
    (free : ∀ other ∈ listing.keys, newKey listing.keys other ≠ some key) :
    listing.inferSections.get? key = listing.get? key := by
  refine get?_inferSections_of_ne (fun s hmoves => ?_) fun other s hmoves he => ?_
  · rw [hmoves.newKey] at h
    cases h
  · exact free other hmoves.mem_keys (he ▸ hmoves.newKey)

theorem lacksSection_eq_true_iff {key : String} :
    lacksSection key = true ↔ key ≠ "" ∧ sectionOf key = "" := by simp [lacksSection]

theorem newKey_eq_some_iff_first {keys : List String} {key moved : String} :
    newKey keys key = some moved ↔ key ≠ "" ∧ sectionOf key = "" ∧
      ∃ before other after, keys = before ++ other :: after ∧
        (∀ earlier ∈ before, sectionOf earlier ≠ "" → headOf earlier ≠ headOf key) ∧
        sectionOf other ≠ "" ∧ headOf other = headOf key ∧ moved = sectionOf other ++ key := by
  rw [← and_assoc, ← lacksSection_eq_true_iff, newKey]
  by_cases hl : lacksSection key = true
  · rw [if_pos hl, Option.map_eq_some_iff, lender]
    simp only [hl, true_and, List.find?_eq_some_iff_append]
    constructor
    · rintro ⟨other, ⟨hother, before, after, rfl, hbefore⟩, rfl⟩
      simp only [Bool.and_eq_true, bne_iff_ne, beq_iff_eq] at hother
      refine ⟨before, other, after, rfl, ?_, hother.1, hother.2, rfl⟩
      intro earlier hm hs hh
      simpa [hs, hh] using hbefore earlier hm
    · rintro ⟨before, other, after, rfl, hbefore, hs, hh, rfl⟩
      refine ⟨other, ⟨by simp [hs, hh], before, after, rfl, ?_⟩, rfl⟩
      intro earlier hm
      by_cases he : sectionOf earlier = ""
      · simp [he]
      · simp [hbefore earlier hm he]
  · simp [hl]

theorem exists_newKey_iff {keys : List String} {key : String} :
    (∃ moved, newKey keys key = some moved) ↔ key ≠ "" ∧ sectionOf key = "" ∧
      ∃ other ∈ keys, sectionOf other ≠ "" ∧ headOf other = headOf key := by
  rw [← and_assoc, ← lacksSection_eq_true_iff, newKey]
  by_cases hl : lacksSection key = true
  · rw [if_pos hl, ← Option.isSome_iff_exists, Option.isSome_map, lender, List.find?_isSome]
    simp [hl]
  · simp [hl]

/-- What it is for a listing to come from another one by one pass of section inference. Everything
is said with `newKey`, which looks at the keys of the first listing only. -/
structure OnePass (listing result : Listing) : Prop where
  /-- A record gets a new key if it has no section and some key with a section shares its outermost
  name, ... -/
  renamed_iff : ∀ key, (∃ moved, newKey listing.keys key = some moved) ↔
    key ≠ "" ∧ sectionOf key = "" ∧
      ∃ other ∈ listing.keys, sectionOf other ≠ "" ∧ headOf other = headOf key
  /-- ... and what comes in front is the section of the first such key. -/
  newKey_iff : ∀ key moved, newKey listing.keys key = some moved ↔ key ≠ "" ∧ sectionOf key = "" ∧
    ∃ before other after, listing.keys = before ++ other :: after ∧
      (∀ earlier ∈ before, sectionOf earlier ≠ "" → headOf earlier ≠ headOf key) ∧
      sectionOf other ≠ "" ∧ headOf other = headOf key ∧ moved = sectionOf other ++ key
  /-- The record is under its new key, which becomes its identifier, and not under the old one. -/
  moved : ∀ key moved record, listing.get? key = some record →
    newKey listing.keys key = some moved →
      result.get? moved = some { record with id := moved } ∧ result.get? key = none
  /-- All other records stay, unless a moved one takes their key. -/
  kept : ∀ key, newKey listing.keys key = none →
    (∀ other ∈ listing.keys, newKey listing.keys other ≠ some key) →
      result.get? key = listing.get? key
  /-- Keys that stay keep their order, and new ones that were not there follow in the order of the
  old ones; so one that was there keeps its place. -/
  keys_eq : result.keys = listing.keys.filter (fun key => newKey listing.keys key = none)
    ++ (listing.keys.filterMap (newKey listing.keys)).filter (· ∉ listing.keys)
  distinct : ∀ key other moved, newKey listing.keys key = some moved →
    newKey listing.keys other = some moved → key = other

/-- **Section inference is its one-pass specification.** The loop changes the listing at each step,
and the specification has all steps at once. -/
theorem inferSections_onePass (listing : Listing) : OnePass listing listing.inferSections where
  renamed_iff _ := exists_newKey_iff
  newKey_iff _ _ := newKey_eq_some_iff_first
  moved _ _ _ := get?_inferSections_moved
  kept _ := get?_inferSections_kept
  keys_eq := keys_inferSections listing
  distinct _ _ _ := newKey_injective

/-- Two records without a section, of which one lands on a key that is there. -/
example :
    newKey [".Foo.a", "B.Foo", "A.Foo", "B.Foo.a", ".Foo#b"] ".Foo.a" = some "B.Foo.a" ∧
      newKey [".Foo.a", "B.Foo", "A.Foo", "B.Foo.a", ".Foo#b"] ".Foo#b" = some "B.Foo#b" := by
  decide

end Listing

end DocTree
