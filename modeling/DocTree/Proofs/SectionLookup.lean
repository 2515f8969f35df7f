import DocTree.Proofs.DocumentedNames
import DocTree.Proofs.LowerCase
import DocTree.Proofs.Nesting
import DocTree.Proofs.TopLevelOrder

/-!
# Finding a section by its name

Sections are looked for at the top level, in lower case. Where no section's identifier has a
separator, a section stands under it and so among the other roots, none of them being a child of the
nameless section; these are in canonical order. What is found is therefore the first of the sections
that agree with the name but for case. Its own identifier is the name in lower case, which
lower-casing leaves as it is, so it leads to the same section again.

The top level begins with the children of the nameless section, and a search through all of it could
stop there. That it does not is because what has a parent has a separator, and so is no section
here. The other roots are increasing numbers of nodes, so the first that is found is the least, and
numbers follow the canonical order (`before_iff_lt`).

Sections that differ in case alone are kept apart by their keys, and by the numbers of their nodes;
their identifiers in the finished documentation are the same. Hence the statement says of a number
which key stands at this place of the order, and does not go by identifiers.

A symbol may have the name that is looked for. It is never found, since the search asks for the kind
as well; identifiers of symbols keep their case anyhow.
-/

set_option autoImplicit false

namespace DocTree

/-! ## The statement

Which sections agree with a name is said of the files, and which of them is first of the canonical
order on texts. -/

/-- No section's identifier has a separator; what sections records carry does not matter. -/
def PlainSectionRecords (files : List SourceFile) : Prop :=
  ∀ source ∈ sourceRecords files, source.2.kind = .sectionKind → Ident.Plain source.2.id

instance : DecidablePred PlainSectionRecords := fun files =>
  inferInstanceAs (Decidable (∀ source ∈ sourceRecords files,
    source.2.kind = .sectionKind → Ident.Plain source.2.id))

theorem PlainSectionRecords.plain {files : List SourceFile} (h : PlainSectionRecords files)
    {s : String} (hs : SectionRecord files s) : Ident.Plain s := by
  obtain ⟨source, hm, hk, rfl⟩ := hs
  exact h source hm hk

/-- Whether a section of the files agrees with the name but for case. The nameless section is left
out, as it is not shown. -/
structure NamedSection (files : List SourceFile) (name s : String) : Prop where
  recorded : SectionRecord files s
  nonempty : s ≠ ""
  lower_eq : Text.lower s = Text.lower name

/-- Whether it is the canonically first of those that do. Their lower-case forms being the same, the
exact texts decide. -/
structure FirstSection (files : List SourceFile) (name s : String) : Prop
    extends NamedSection files name s where
  first : ∀ t, NamedSection files name t → t = s ∨ Listing.Before s t

structure FindsSection (options : Options) (files : List SourceFile) (name : String) : Prop where
  present_iff : ((Documentation.ofFiles options files).findSection name).isSome = true ↔
    ∃ s, NamedSection files name s
  found_iff : ∀ n, (Documentation.ofFiles options files).findSection name = some n ↔
    ∃ s, FirstSection files name s ∧ (Assembly.ofFiles options files).order[n]? = some s
  /-- The record that is found has been copied from one of the section, ... -/
  record : ∀ n s, (Documentation.ofFiles options files).findSection name = some n →
    (Assembly.ofFiles options files).order[n]? = some s →
      ∃ node, (Documentation.ofFiles options files).nodes[n]? = some node ∧
        node.record.isSection = true ∧ node.record.id = Text.lower name ∧ node.record.name = s ∧
        ∃ source ∈ sourceRecords files, source.2.kind = .sectionKind ∧ source.2.id = s ∧
          node.record.content = source.2.content (options.href source.1 source.2.line)
  /-- ... and is found under its own identifier as well. -/
  again : ∀ n record, (Documentation.ofFiles options files).findSection name = some n →
    (Documentation.ofFiles options files).record? n = some record →
      (Documentation.ofFiles options files).findSection record.id = some n

/-! ## The search

Searching an increasing list for the first number with a property gives the least one with it. -/

theorem le_of_find?_eq_some {numbers : List Nat} {p : Nat → Bool}
    (increasing : numbers.Pairwise (· < ·)) {n m : Nat} (h : numbers.find? p = some n)
    (hm : m ∈ numbers) (hpm : p m = true) : n ≤ m := by
  obtain ⟨-, before, after, rfl, none⟩ := List.find?_eq_some_iff_append.1 h
  have sorted := (List.pairwise_append.1 increasing).2.1
  rcases List.mem_append.1 hm with hb | ha
  · have hno := none m hb
    rw [hpm] at hno
    cases hno
  · rcases List.mem_cons.1 ha with rfl | hlater
    · exact Nat.le_refl _
    · exact Nat.le_of_lt (List.rel_of_pairwise_cons sorted hlater)

theorem find?_eq_some_iff_of_increasing {numbers : List Nat} {p : Nat → Bool}
    (increasing : numbers.Pairwise (· < ·)) {n : Nat} :
    numbers.find? p = some n ↔ n ∈ numbers ∧ p n = true ∧ ∀ m ∈ numbers, p m = true → n ≤ m := by
  constructor
  · intro h
    exact ⟨List.mem_of_find?_eq_some h, List.find?_some h,
      fun m hm hpm => le_of_find?_eq_some increasing h hm hpm⟩
  · rintro ⟨hn, hpn, least⟩
    obtain ⟨m, hm⟩ := Option.isSome_iff_exists.1 (List.find?_isSome.2 ⟨n, hn, hpn⟩)
    have hle := least m (List.mem_of_find?_eq_some hm) (List.find?_some hm)
    rw [hm, Nat.le_antisymm hle (le_of_find?_eq_some increasing hm hn hpn)]

def Documentation.isSectionOf (doc : Documentation) (name : String) (n : Nat) : Bool :=
  match doc.record? n with
  | some record => record.isSection && record.id == Text.lower name
  | none => false

theorem Documentation.findSection_eq (doc : Documentation) (name : String) :
    doc.findSection name = doc.topLevel.find? (doc.isSectionOf name) := rfl

theorem Documentation.isSectionOf_eq_true_iff {doc : Documentation} {name : String} {n : Nat} :
    doc.isSectionOf name n = true ↔
      ∃ node, doc.nodes[n]? = some node ∧ node.record.isSection = true ∧
        node.record.id = Text.lower name := by
  rw [isSectionOf, record?]
  cases doc.nodes[n]? with
  | none => simp
  | some node => simp

/-! ## Where sections stand

From numbers to keys: which nodes the search looks at, and that what it asks of a node is whether
the key is that of a section of the name. -/

namespace Listing

variable {options : Options} {files : List SourceFile} (plain : PlainSectionRecords files)

theorem exists_shows_of_number {n : Nat} {key : String}
    (hn : (Assembly.ofFiles options files).order[n]? = some key) (hne : key ≠ "") :
    ∃ record, Shows (merge options files).inferSections n key record := by
  have hkey : key ∈ (merge options files).inferSections.keys :=
    mem_canonicalOrder.1 (List.mem_of_getElem? hn)
  obtain ⟨record, hr⟩ := Catalog.mem_keys_iff_exists.1 hkey
  exact ⟨record, hn, hr, fun hnl => hne hnl.2⟩

include plain

/-- A section that is shown has a record, and stands under its identifier. One that inference moves
would stand elsewhere, but that takes a separator. -/
theorem Shows.sectionRecord {n : Nat} {key : String} {record : Record}
    (h : Shows (merge options files).inferSections n key record)
    (hsection : record.isSection = true) : SectionRecord files key := by
  have named := h.named
  cases origin_of_get? h.entry with
  | nameless => exact absurd ⟨rfl, rfl⟩ named
  | @keptSection source hm hk => exact ⟨source, hm, hk, rfl⟩
  | @movedSection source s hm hk moves =>
    have hlacks := moves.lacks
    rw [not_lacksSection_of_plain (plain source hm hk)] at hlacks
    cases hlacks
  | @symbol source id front hm hd behind =>
    have hno := isSection_ofRaw hd.not_section (options.href source.1 source.2.line)
    exact absurd hsection (Bool.eq_false_iff.1 hno)

/-- **What a node is asked for in the search is a matter of its key.** The search sees a finished
record, whose identifier is the key in lower case if it is a section's. -/
theorem isSectionOf_iff {n : Nat} {key : String} (name : String)
    (hn : (Assembly.ofFiles options files).order[n]? = some key) (hne : key ≠ "") :
    (Documentation.ofFiles options files).isSectionOf name n = true ↔
      NamedSection files name key := by
  obtain ⟨record, h⟩ := exists_shows_of_number hn hne
  rw [Documentation.isSectionOf_eq_true_iff]
  constructor
  · rintro ⟨node, hnode, hsection, hid⟩
    obtain ⟨other, hother, -, hkind, -⟩ := h.fixed (labelled_resolved options files)
    cases Option.some.inj (hnode.symm.trans hother)
    have hrecord := hkind.symm.trans hsection
    have recorded := h.sectionRecord plain hrecord
    obtain ⟨same, hsame, -, -, hlower⟩ := h.sectionNode (plain.plain recorded) hrecord
    cases Option.some.inj (hnode.symm.trans hsame)
    exact ⟨recorded, hne, hlower.symm.trans hid⟩
  · intro named
    have hs := plain.plain named.recorded
    obtain ⟨node, hnode, hkind, -, hlower⟩ :=
      h.sectionNode hs (section_of_plain_key hs h.entry).1
    exact ⟨node, hnode, hkind, hlower.trans named.lower_eq⟩

theorem not_isSectionOf_of_bare {n : Nat} (name : String)
    (hn : n ∈ (Assembly.ofFiles options files).forest.children 0) :
    (Documentation.ofFiles options files).isSectionOf name n = false := by
  obtain ⟨key, hkey, hbare⟩ := (Assembly.mem_bare_iff options files).1 hn
  have hplain : ¬ Ident.Plain key := by
    intro hp
    rw [BareKey, Ident.parentKey_eq_none_iff.2 hp] at hbare
    cases hbare
  have hne : key ≠ "" := by
    rintro rfl
    exact hplain Ident.plain_empty
  rw [Bool.eq_false_iff, ne_eq, isSectionOf_iff plain name hkey hne]
  intro named
  exact hplain (plain.plain named.recorded)

theorem findSection_eq_find? (name : String) :
    (Documentation.ofFiles options files).findSection name
      = (Assembly.ofFiles options files).forest.roots.tail.find?
          ((Documentation.ofFiles options files).isSectionOf name) := by
  have bare : ((Assembly.ofFiles options files).forest.children 0).find?
      ((Documentation.ofFiles options files).isSectionOf name) = none := by
    rw [List.find?_eq_none]
    intro n hn
    rw [not_isSectionOf_of_bare plain name hn]
    exact Bool.false_ne_true
  rw [Documentation.findSection_eq, Assembly.topLevel_eq, List.find?_append, bare, Option.none_or]

theorem exists_root_of_section (options : Options) {name s : String}
    (h : NamedSection files name s) :
    ∃ n ∈ (Assembly.ofFiles options files).forest.roots.tail,
      (Assembly.ofFiles options files).order[n]? = some s := by
  have hs := plain.plain h.recorded
  have hkey := section_mem_keys options h.recorded hs
  obtain ⟨n, hn⟩ := List.mem_iff_getElem?.1 (mem_canonicalOrder.2 hkey)
  refine ⟨n, (Assembly.mem_outer_iff options files).2 ⟨s, hn, h.nonempty, ?_⟩, hn⟩
  intro parent hparent
  rw [Ident.parentKey_eq_none_iff.2 hs] at hparent
  cases hparent

/-- **What is found is the first section of the name.** Numbers go up along the top level as far as
there are sections, so the first that is met has the least number and the first key. -/
theorem findSection_eq_some_iff (options : Options) (name : String) (n : Nat) :
    (Documentation.ofFiles options files).findSection name = some n ↔
      ∃ s, FirstSection files name s ∧ (Assembly.ofFiles options files).order[n]? = some s := by
  have increasing : (Assembly.ofFiles options files).forest.roots.tail.Pairwise (· < ·) :=
    Forest.roots_sorted.tail
  rw [findSection_eq_find? plain, find?_eq_some_iff_of_increasing increasing]
  constructor
  · rintro ⟨hn, hsection, least⟩
    obtain ⟨s, hs, hne, -⟩ := (Assembly.mem_outer_iff options files).1 hn
    refine ⟨s, ⟨(isSectionOf_iff plain name hs hne).1 hsection, fun t ht => ?_⟩, hs⟩
    obtain ⟨m, hm, hmt⟩ := exists_root_of_section plain options ht
    have hle := least m hm ((isSectionOf_iff plain name hmt ht.nonempty).2 ht)
    -- another one of the name has a greater number, hence a later key
    rcases Nat.lt_or_eq_of_le hle with hlt | rfl
    · exact Or.inr ((before_iff_lt hs hmt).2 hlt)
    · exact Or.inl (Option.some.inj (hmt.symm.trans hs))
  · rintro ⟨s, hfirst, hs⟩
    have named := hfirst.toNamedSection
    obtain ⟨m, hm, hms⟩ := exists_root_of_section plain options named
    obtain ⟨hlt, -⟩ := List.getElem?_eq_some_iff.1 hs
    obtain rfl : n = m :=
      (List.getElem?_inj hlt (canonicalOrder_nodup _)).1 (hs.trans hms.symm)
    refine ⟨hm, (isSectionOf_iff plain name hs named.nonempty).2 named, fun k hk hsection => ?_⟩
    obtain ⟨t, ht, hne, -⟩ := (Assembly.mem_outer_iff options files).1 hk
    rcases hfirst.first t ((isSectionOf_iff plain name ht hne).1 hsection) with rfl | hbefore
    · exact Nat.le_of_eq ((List.getElem?_inj hlt (canonicalOrder_nodup _)).1 (hs.trans ht.symm))
    · exact Nat.le_of_lt ((before_iff_lt hs ht).1 hbefore)

theorem isSome_findSection_iff (options : Options) (name : String) :
    ((Documentation.ofFiles options files).findSection name).isSome = true ↔
      ∃ s, NamedSection files name s := by
  constructor
  · intro h
    obtain ⟨n, hn⟩ := Option.isSome_iff_exists.1 h
    obtain ⟨s, hfirst, -⟩ := (findSection_eq_some_iff plain options name n).1 hn
    exact ⟨s, hfirst.toNamedSection⟩
  · rintro ⟨s, named⟩
    obtain ⟨n, hn, hs⟩ := exists_root_of_section plain options named
    rw [findSection_eq_find? plain, List.find?_isSome]
    exact ⟨n, hn, (isSectionOf_iff plain name hs named.nonempty).2 named⟩

end Listing

/-! ## The finished documentation

The search, what is said of the record that it finds, and the search for that. -/

/-- **Sections are found by name whatever its case**: the canonically first one of the name, if
there is any. -/
theorem Documentation.findsSection_ofFiles (options : Options) {files : List SourceFile}
    (plain : PlainSectionRecords files) (name : String) : FindsSection options files name := by
  have found := Listing.findSection_eq_some_iff plain options name
  constructor
  case present_iff => exact Listing.isSome_findSection_iff plain options name
  case found_iff => exact found
  case record =>
    intro n s hn hs
    obtain ⟨t, hfirst, ht⟩ := (found n).1 hn
    cases Option.some.inj (hs.symm.trans ht)
    have hplain := plain.plain hfirst.recorded
    obtain ⟨record, h⟩ := Listing.exists_shows_of_number hs hfirst.nonempty
    obtain ⟨node, hnode, hkind, hname, hid⟩ :=
      h.sectionNode hplain (Listing.section_of_plain_key hplain h.entry).1
    obtain ⟨source, hm, named⟩ := h.sectionNamed hnode hkind
    have hsame := (named.name_eq_iff.2 (plain source hm named.kind)).symm.trans hname
    exact ⟨node, hnode, hkind, hid.trans hfirst.lower_eq, hname, source, hm, named.kind, hsame,
      named.content⟩
  case again =>
    intro n record hn hrecord
    -- the identifier is the name in lower case, and that is the same once more in lower case
    have hid : record.id = Text.lower name := by
      have hsection := List.find?_some ((findSection_eq _ name).symm.trans hn)
      rw [isSectionOf, hrecord, Bool.and_eq_true, beq_iff_eq] at hsection
      exact hsection.2
    rw [findSection, hid, Text.lower_lower]
    exact hn

/-- Two sections that differ in case alone, and a class without a section that has the name too. -/
def domFiles : List SourceFile :=
  [SourceFile.ofRecords "dom.json"
    [RawRecord.brief "dom" .sectionKind none, RawRecord.brief "DOM" .sectionKind none,
     RawRecord.brief "Dom" .classKind none]]

theorem Documentation.findsSection_domFiles :
    PlainSectionRecords domFiles ∧
      ∃ n, (Documentation.ofFiles Options.plain domFiles).findSection "Dom" = some n ∧
        (Assembly.ofFiles Options.plain domFiles).order[n]? = some "DOM" := by
  have plain : PlainSectionRecords domFiles := by decide
  have lookup := Documentation.findsSection_ofFiles Options.plain plain "Dom"
  have upper : NamedSection domFiles "Dom" "DOM" := by
    refine ⟨⟨("dom.json", RawRecord.brief "DOM" .sectionKind none), ?_, rfl, rfl⟩, ?_, ?_⟩
    · exact List.mem_of_getElem? (i := 1) rfl
    · decide
    · decide +kernel
  obtain ⟨n, hn⟩ := Option.isSome_iff_exists.1 (lookup.present_iff.2 ⟨"DOM", upper⟩)
  obtain ⟨s, hfirst, hs⟩ := (lookup.found_iff n).1 hn
  have sections : ∀ source ∈ sourceRecords domFiles, source.2.kind = .sectionKind →
      source.2.id = "DOM" ∨ Listing.Before "DOM" source.2.id := by decide +kernel
  -- `DOM` is before `dom`, so that is the one that is found
  rcases hfirst.first "DOM" upper with rfl | hbefore
  · exact ⟨plain, n, hn, hs⟩
  · obtain ⟨source, hm, hk, rfl⟩ := hfirst.recorded
    rcases sections source hm hk with he | hafter
    · rw [he] at hbefore
      exact absurd hbefore (Listing.Before.irrefl _)
    · exact absurd hbefore hafter.asymm

end DocTree
