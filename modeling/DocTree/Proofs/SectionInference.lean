import DocTree.Listing
import DocTree.Proofs.Catalogs
import DocTree.Proofs.Identifiers

/-!
# Where records move when sections are inferred

Inference takes the records without a section one after the other, out of the listing and in again
under a longer key, while more such records wait. Nothing of that order shows in the result: a
target begins with a section and a source does not, so no move touches a record that still waits;
and from a target the section can be taken off again, so two sources never share one. Hence each
record ends where a single look at the first listing says (`Moves`), and the result is described by
three equations: what is under a target, what is under a source, and what is under any other key.

The three equations are enough for whatever concerns single keys, and those are what records are
followed by through the pass. The order of the keys is left out here on purpose: it takes another
induction, and of the results about documentation none depends on it.

A key that has no section begins with a separator, so that its first segment is empty. A section in
front fills that segment (`segments_append_of_lacksSection`). This is the one fact about texts that
the argument rests on: it says that a target is no source, and with which section it was made.

A target that is taken already needs no case of its own. The moved record is put under it, and the
one that was there is gone, which is what the first equation says.
-/

set_option autoImplicit false

namespace DocTree

namespace Listing

/-! ## Keys without a section

Whether a key lacks a section can be seen from its first character. -/

theorem lacksSection_iff {key : String} :
    lacksSection key = true ↔
      ∃ mark rest, Ident.isSeparator mark = true ∧ key.toList = mark :: rest := by
  cases hcs : key.toList with
  | nil =>
    obtain rfl : key = "" := String.toList_eq_nil_iff.1 hcs
    constructor
    · intro h
      simp [lacksSection] at h
    · rintro ⟨mark, rest, -, h⟩
      cases h
  | cons c rest =>
    have hne : key ≠ "" := fun he => by simp [he] at hcs
    rw [lacksSection, sectionOf, Ident.segments, hcs]
    cases hc : Ident.isSeparator c with
    | true => simp [List.splitOnP_cons_eq_if_modifyHead, hc, hne]
    | false =>
      obtain ⟨first, others, -, hcons⟩ := Text.exists_splitOnP_cons hc rest
      rw [hcons]
      simp [hc]

theorem not_lacksSection_of_plain {key : String} (h : Ident.Plain key) :
    lacksSection key = false := by
  cases hl : lacksSection key with
  | false => rfl
  | true =>
    obtain ⟨mark, rest, hm, hkey⟩ := lacksSection_iff.1 hl
    exact absurd (hkey ▸ List.mem_cons_self) (h.not_mem_of_separator hm)

theorem segments_append_of_lacksSection {s key : String} (hs : Ident.Plain s)
    (h : lacksSection key = true) :
    Ident.segments (s ++ key) = s :: (Ident.segments key).tail := by
  obtain ⟨mark, rest, hm, hkey⟩ := lacksSection_iff.1 h
  have front : Ident.segments key
      = "" :: (rest.splitOnP Ident.isSeparator).map String.ofList := by
    rw [Ident.segments, hkey, List.splitOnP_cons_eq_if_modifyHead, if_pos hm]
    rfl
  rw [front, Ident.segments, String.toList_append, hkey,
    List.splitOnP_append_cons_of_forall_mem hs _ hm]
  simp

theorem sectionOf_append {s key : String} (hs : Ident.Plain s) (h : lacksSection key = true) :
    sectionOf (s ++ key) = s := by
  rw [sectionOf, segments_append_of_lacksSection hs h]
  rfl

theorem lacksSection_append {s key : String} (hs : Ident.Plain s) (hne : s ≠ "")
    (h : lacksSection key = true) : lacksSection (s ++ key) = false := by
  rw [lacksSection, sectionOf_append hs h]
  simp [hne]

theorem append_inj_of_lacksSection {s t key other : String} (hs : Ident.Plain s)
    (ht : Ident.Plain t) (hk : lacksSection key = true) (ho : lacksSection other = true)
    (h : s ++ key = t ++ other) : s = t ∧ key = other := by
  have hst : s = t := by rw [← sectionOf_append hs hk, h, sectionOf_append ht ho]
  subst hst
  have hl := congrArg String.toList h
  rw [String.toList_append, String.toList_append] at hl
  exact ⟨rfl, String.toList_inj.1 (List.append_cancel_left hl)⟩

/-! ## What is inferred

The table of known sections has a pair for each key that has a section, and the first pair with the
outermost name counts. Which one that is does not matter yet, only that it comes from some key. -/

theorem mem_knownSections {keys : List String} {head : Option String} {s : String} :
    (head, s) ∈ knownSections keys ↔
      ∃ other ∈ keys, s ≠ "" ∧ sectionOf other = s ∧ headOf other = head := by
  rw [knownSections, List.mem_map]
  constructor
  · rintro ⟨other, hm, he⟩
    obtain ⟨hk, hne⟩ := List.mem_filter.1 hm
    cases he
    exact ⟨other, hk, by simpa using hne, rfl, rfl⟩
  · rintro ⟨other, hk, hne, rfl, rfl⟩
    exact ⟨other, List.mem_filter.2 ⟨hk, by simpa using hne⟩, rfl⟩

theorem exists_of_inferredSection {keys : List String} {key s : String}
    (h : inferredSection (knownSections keys) key = some s) :
    ∃ other ∈ keys, s ≠ "" ∧ sectionOf other = s ∧ headOf other = headOf key := by
  obtain ⟨front, back, hsplit, -⟩ := List.lookup_eq_some_iff.1 h
  refine mem_knownSections.1 ?_
  rw [hsplit]
  exact List.mem_append_right _ List.mem_cons_self

/-- No section is inferred only where no key with a section has the outermost name. -/
theorem inferredSection_eq_none_iff {keys : List String} {key : String} :
    inferredSection (knownSections keys) key = none ↔
      ∀ other ∈ keys, sectionOf other ≠ "" → headOf other ≠ headOf key := by
  rw [inferredSection, List.lookup_eq_none_iff]
  constructor
  · intro h other hm hne he
    have hdiff := h _ (mem_knownSections.2 ⟨other, hm, hne, rfl, rfl⟩)
    rw [he] at hdiff
    simp at hdiff
  · rintro h ⟨head, s⟩ hm
    obtain ⟨other, hk, hne, rfl, rfl⟩ := mem_knownSections.1 hm
    exact bne_iff_ne.2 (Ne.symm (h other hk hne))

theorem plain_of_sectionOf {key s : String} (h : sectionOf key = s) : Ident.Plain s := by
  obtain ⟨first, others, hf⟩ := List.exists_cons_of_ne_nil (Ident.segments_ne_nil key)
  rw [sectionOf, hf] at h
  subst h
  exact Ident.plain_of_mem_segments (hf ▸ List.mem_cons_self)

theorem named_knownSections {keys : List String} {key s : String}
    (h : inferredSection (knownSections keys) key = some s) : Ident.Plain s ∧ s ≠ "" := by
  obtain ⟨other, -, hne, hs, -⟩ := exists_of_inferredSection h
  exact ⟨plain_of_sectionOf hs, hne⟩

/-! ## One move

Taking out and putting in again, read key by key. -/

theorem get?_moveTo {listing : Listing} {s key : String} {record : Record}
    (hr : listing.get? key = some record) (x : String) :
    (moveTo s listing key).get? x =
      if s ++ key = x then some { record with id := s ++ key }
      else if key = x then none else listing.get? x := by
  rw [moveTo, hr]
  dsimp only
  rw [Catalog.get?_insert, Catalog.get?_erase]

theorem get?_inferSection_of_ne {known : List (Option String × String)} {key x : String}
    (apart : ∀ s, inferredSection known key = some s → key ≠ x ∧ s ++ key ≠ x)
    (listing : Listing) : (inferSection known listing key).get? x = listing.get? x := by
  rw [inferSection]
  cases hs : inferredSection known key with
  | none => rfl
  | some s =>
    dsimp only
    cases hr : listing.get? key with
    | none => rw [moveTo, hr]
    | some record =>
      obtain ⟨hsource, htarget⟩ := apart s hs
      rw [get?_moveTo hr, if_neg htarget, if_neg hsource]

/-! ## All moves

The steps over a list of different sources, for any table. The sources must all lack a section, and
the table must give plain and non-empty ones. -/

section Run

variable {known : List (Option String × String)}

/-- Steps leave alone what is neither a source nor a target of any of them. For all other keys it
can so be said at once what a whole run leaves under them. -/
theorem get?_foldl_inferSection_of_ne {keys : List String} {x : String}
    (apart : ∀ key ∈ keys, ∀ s, inferredSection known key = some s → key ≠ x ∧ s ++ key ≠ x)
    (listing : Listing) :
    (keys.foldl (inferSection known) listing).get? x = listing.get? x := by
  induction keys generalizing listing with
  | nil => rfl
  | cons key rest ih =>
    rw [List.foldl_cons, ih fun other hm => apart other (List.mem_cons_of_mem _ hm)]
    exact get?_inferSection_of_ne (apart key List.mem_cons_self) listing

theorem source_ne_target
    (named : ∀ {key s : String}, inferredSection known key = some s → Ident.Plain s ∧ s ≠ "")
    {key s source : String} (hk : lacksSection key = true) (hs : inferredSection known key = some s)
    (hsource : lacksSection source = true) : source ≠ s ++ key := by
  rintro rfl
  rw [lacksSection_append (named hs).1 (named hs).2 hk] at hsource
  cases hsource

/-- **The run of all steps**: over different keys without a section, each record is moved by its own
step alone, since no other step has its source or its target. The induction is on the steps: those
before leave the record where it is, then its own moves it, and those after leave it there. -/
theorem get?_foldl_inferSection_of_mem
    (named : ∀ {key s : String}, inferredSection known key = some s → Ident.Plain s ∧ s ≠ "")
    {keys : List String} (distinct : keys.Nodup) (lacking : ∀ key ∈ keys, lacksSection key = true)
    {listing : Listing} {key s : String} {record : Record} (hm : key ∈ keys)
    (hs : inferredSection known key = some s) (hr : listing.get? key = some record) :
    (keys.foldl (inferSection known) listing).get? (s ++ key)
        = some { record with id := s ++ key } ∧
      (keys.foldl (inferSection known) listing).get? key = none := by
  have hkey := lacking key hm
  induction keys generalizing listing with
  | nil => cases hm
  | cons first rest ih =>
    obtain ⟨hfirst, hrest⟩ := List.nodup_cons.1 distinct
    have hlater : ∀ other ∈ rest, lacksSection other = true :=
      fun other ho => lacking other (List.mem_cons_of_mem _ ho)
    rw [List.foldl_cons]
    -- its own step moves the record, and the steps before and after leave source and target alone
    by_cases he : first = key
    · subst he
      have hstep : inferSection known listing first = moveTo s listing first := by
        rw [inferSection, hs]
      rw [hstep]
      constructor
      · rw [get?_foldl_inferSection_of_ne, get?_moveTo hr, if_pos rfl]
        intro other ho t ht
        refine ⟨source_ne_target named hkey hs (hlater other ho), fun heq => ?_⟩
        obtain ⟨-, hsame⟩ := append_inj_of_lacksSection (named ht).1 (named hs).1
          (hlater other ho) hkey heq
        exact hfirst (hsame ▸ ho)
      · rw [get?_foldl_inferSection_of_ne, get?_moveTo hr,
          if_neg (source_ne_target named hkey hs hkey).symm, if_pos rfl]
        intro other ho t ht
        exact ⟨fun heq => hfirst (heq ▸ ho),
          (source_ne_target named (hlater other ho) ht hkey).symm⟩
    · refine ih hrest hlater ((List.mem_cons.1 hm).resolve_left (Ne.symm he)) ?_
      rw [get?_inferSection_of_ne, hr]
      intro t ht
      exact ⟨he, (source_ne_target named (lacking first List.mem_cons_self) ht hkey).symm⟩

end Run

/-! ## The result

The three equations, and from them what stands in the result and that nothing is left without a
place. -/

/-- The record under `key` moves to the section `s`: it has none, and this one is inferred. All
three are about the listing before the pass. -/
structure Moves (listing : Listing) (key s : String) : Prop where
  mem_keys : key ∈ listing.keys
  lacks : lacksSection key = true
  inferred : inferredSection (knownSections listing.keys) key = some s

section Result

variable {listing : Listing}

theorem Moves.plain {key s : String} (h : Moves listing key s) : Ident.Plain s :=
  (named_knownSections h.inferred).1

theorem Moves.ne_empty {key s : String} (h : Moves listing key s) : s ≠ "" :=
  (named_knownSections h.inferred).2

theorem sources_nodup (listing : Listing) : (listing.keys.filter lacksSection).Nodup :=
  listing.nodup.filter _

theorem sources_lack : ∀ key ∈ listing.keys.filter lacksSection, lacksSection key = true :=
  fun _ hm => (List.mem_filter.1 hm).2

/-- **A moved record is under its target**, with the target as its identifier. Nothing is under its
source any more, and what is under any other key stays as it is. -/
theorem get?_inferSections_target {key s : String} {record : Record} (h : Moves listing key s)
    (hr : listing.get? key = some record) :
    listing.inferSections.get? (s ++ key) = some { record with id := s ++ key } :=
  (get?_foldl_inferSection_of_mem named_knownSections (sources_nodup listing) sources_lack
    (List.mem_filter.2 ⟨h.mem_keys, h.lacks⟩) h.inferred hr).1

theorem get?_inferSections_source {key s : String} (h : Moves listing key s) :
    listing.inferSections.get? key = none := by
  obtain ⟨record, hr⟩ := Catalog.mem_keys_iff_exists.1 h.mem_keys
  exact (get?_foldl_inferSection_of_mem named_knownSections (sources_nodup listing) sources_lack
    (List.mem_filter.2 ⟨h.mem_keys, h.lacks⟩) h.inferred hr).2

theorem get?_inferSections_of_ne {x : String} (source : ∀ s, ¬ Moves listing x s)
    (target : ∀ key s, Moves listing key s → s ++ key ≠ x) :
    listing.inferSections.get? x = listing.get? x := by
  refine get?_foldl_inferSection_of_ne (fun key hm s hs => ?_) listing
  obtain ⟨hk, hl⟩ := List.mem_filter.1 hm
  refine ⟨?_, target key s ⟨hk, hl, hs⟩⟩
  rintro rfl
  exact source s ⟨hk, hl, hs⟩

theorem inferSections_cases {x : String} {record : Record}
    (h : listing.inferSections.get? x = some record) :
    ((∀ s, ¬ Moves listing x s) ∧ listing.get? x = some record) ∨
      ∃ key s kept, Moves listing key s ∧ listing.get? key = some kept ∧ x = s ++ key ∧
        record = { kept with id := x } := by
  by_cases ht : ∃ key s, Moves listing key s ∧ s ++ key = x
  · obtain ⟨key, s, hmove, rfl⟩ := ht
    obtain ⟨kept, hr⟩ := Catalog.mem_keys_iff_exists.1 hmove.mem_keys
    rw [get?_inferSections_target hmove hr] at h
    exact Or.inr ⟨key, s, kept, hmove, hr, rfl, (Option.some.inj h).symm⟩
  · have source : ∀ s, ¬ Moves listing x s := by
      intro s hmove
      rw [get?_inferSections_source hmove] at h
      cases h
    rw [get?_inferSections_of_ne source fun key s hmove he => ht ⟨key, s, hmove, he⟩] at h
    exact Or.inl ⟨source, h⟩

/-- No record is without a place in the result: its own key, or the target it moves to. Another
record may stand in that place in the end. -/
theorem mem_keys_inferSections {key : String} (h : key ∈ listing.keys) :
    (∃ s, Moves listing key s ∧ s ++ key ∈ listing.inferSections.keys) ∨
      ((∀ s, ¬ Moves listing key s) ∧ key ∈ listing.inferSections.keys) := by
  by_cases hm : ∃ s, Moves listing key s
  · obtain ⟨s, hmove⟩ := hm
    obtain ⟨kept, hr⟩ := Catalog.mem_keys_iff_exists.1 h
    exact Or.inl ⟨s, hmove, Catalog.mem_keys_of_get? (get?_inferSections_target hmove hr)⟩
  · have source : ∀ s, ¬ Moves listing key s := fun s hmove => hm ⟨s, hmove⟩
    refine Or.inr ⟨source, ?_⟩
    by_cases ht : ∃ other s, Moves listing other s ∧ s ++ other = key
    · obtain ⟨other, s, hmove, rfl⟩ := ht
      obtain ⟨kept, hr⟩ := Catalog.mem_keys_iff_exists.1 hmove.mem_keys
      exact Catalog.mem_keys_of_get? (get?_inferSections_target hmove hr)
    · obtain ⟨kept, hr⟩ := Catalog.mem_keys_iff_exists.1 h
      rw [← get?_inferSections_of_ne source fun other s hmove he => ht ⟨other, s, hmove, he⟩] at hr
      exact Catalog.mem_keys_of_get? hr

end Result

end Listing

end DocTree
