import DocTree.Proofs.DocumentedSymbols

/-!
# The front of a family

Sections are inferred record by record, from whatever keys happen to be there. What comes out can be
said without any of that: the front of a symbol depends on its first segment alone. It is the
section that some symbol of the family carries, the family being all that begin with this segment,
and empty when none does (`IsFront`).

This needs sections without separators. A front is then the first segment of its key, so the
sections that inference finds in keys are those that records carry; and where each family has one
section at most, the front is determined.

The gain is in what can be left out afterwards. Inference is a pass over a listing, with an order
and with records that may lend a section; families are sets of records in files. Whoever uses
`Front.isFront` compares two symbols by their first segments and has nothing to say about the pass.
In particular two symbols of one family are behind the same front whichever of them carries the
section, which is what makes a symbol and its parent agree.

One section for each family is a separate condition (`OneSectionPerFamily`) and not a consequence.
Files that put `Ajax.Request` in one section and `Ajax.Updater` in another are accepted; each of the
two keeps its own, and `Ajax` without a section goes to the one whose key comes first.
-/

set_option autoImplicit false

namespace DocTree

/-! ## Families

Everything here is about records of files: which identifiers belong together, and which sections the
records of a family carry. Both conditions are decidable, so that they can be checked for given
files. -/

/-- The first segment of an identifier that has no section in front. The symbols that share it are a
family. -/
def Ident.firstSegment (id : String) : String := (Ident.segments id).headD ""

theorem Ident.head?_segments (id : String) :
    (Ident.segments id).head? = some (Ident.firstSegment id) := by
  obtain ⟨first, others, h⟩ := List.exists_cons_of_ne_nil (Ident.segments_ne_nil id)
  rw [Ident.firstSegment, h]
  rfl

theorem Ident.firstSegment_of_plain {id : String} (h : Ident.Plain id) :
    Ident.firstSegment id = id := by
  rw [Ident.firstSegment, Ident.segments_of_plain h]
  rfl

theorem Ident.firstSegment_parentKey {id parent : String} (h : Ident.parentKey id = some parent) :
    Ident.firstSegment parent = Ident.firstSegment id := by
  have hhead := Ident.head?_segments_parentKey h
  rw [Ident.head?_segments, Ident.head?_segments] at hhead
  exact Option.some.inj hhead

/-- No section's identifier and no section that a record carries has a separator. Nothing is asked
of the identifiers of symbols. -/
abbrev PlainSections : List SourceFile → Prop := EverySection Ident.Plain

/-- Whether a symbol of the family that begins with `first` carries the section `s`. One symbol that
does is enough for the whole family. -/
def FamilySection (files : List SourceFile) (first s : String) : Prop :=
  ∃ source ∈ sourceRecords files, source.2.kind ≠ .sectionKind ∧ source.2.sectionText = s ∧
    s ≠ "" ∧ Ident.firstSegment source.2.id = first

def OneSectionPerFamily (files : List SourceFile) : Prop :=
  ∀ source ∈ sourceRecords files, ∀ other ∈ sourceRecords files,
    source.2.kind ≠ .sectionKind → other.2.kind ≠ .sectionKind →
      source.2.sectionText ≠ "" → other.2.sectionText ≠ "" →
        Ident.firstSegment source.2.id = Ident.firstSegment other.2.id →
          source.2.sectionText = other.2.sectionText

instance : DecidablePred OneSectionPerFamily := fun files =>
  inferInstanceAs (Decidable (∀ source ∈ sourceRecords files, ∀ other ∈ sourceRecords files,
    source.2.kind ≠ .sectionKind → other.2.kind ≠ .sectionKind →
      source.2.sectionText ≠ "" → other.2.sectionText ≠ "" →
        Ident.firstSegment source.2.id = Ident.firstSegment other.2.id →
          source.2.sectionText = other.2.sectionText))

def SectionRecord (files : List SourceFile) (s : String) : Prop :=
  ∃ source ∈ sourceRecords files, source.2.kind = .sectionKind ∧ source.2.id = s

theorem PlainSections.pointFree {files : List SourceFile} (h : PlainSections files) :
    PointFree files := fun source hs =>
  ⟨fun hk => ((h source hs).1 hk).point_not_mem, fun s hm => ((h source hs).2 s hm).point_not_mem⟩

theorem PlainSections.sectionText {files : List SourceFile} (h : PlainSections files)
    {source : String × RawRecord} (hs : source ∈ sourceRecords files) :
    Ident.Plain source.2.sectionText := EverySection.sectionText h Ident.plain_empty hs

theorem SectionRecord.plain {files : List SourceFile} (h : PlainSections files) {s : String}
    (hs : SectionRecord files s) : Ident.Plain s := by
  obtain ⟨source, hm, hk, rfl⟩ := hs
  exact (h source hm).1 hk

theorem FamilySection.plain {files : List SourceFile} (h : PlainSections files) {first s : String}
    (hs : FamilySection files first s) : Ident.Plain s := by
  obtain ⟨source, hm, -, rfl, -, -⟩ := hs
  exact h.sectionText hm

theorem FamilySection.ne_empty {files : List SourceFile} {first s : String}
    (hs : FamilySection files first s) : s ≠ "" := by
  obtain ⟨-, -, -, -, hne, -⟩ := hs
  exact hne

theorem FamilySection.unique {files : List SourceFile} (one : OneSectionPerFamily files)
    {first s t : String} (hs : FamilySection files first s) (ht : FamilySection files first t) :
    s = t := by
  obtain ⟨source, hm, hk, rfl, hne, hf⟩ := hs
  obtain ⟨other, hm', hk', rfl, hne', hf'⟩ := ht
  exact one source hm other hm' hk hk' hne hne' (hf.trans hf'.symm)

/-- What stands in front of the symbols of a family: its section, if any of them carries one, and
nothing otherwise. -/
def IsFront (files : List SourceFile) (first front : String) : Prop :=
  FamilySection files first front ∨ (front = "" ∧ ∀ s, ¬ FamilySection files first s)

theorem IsFront.plain {files : List SourceFile} (h : PlainSections files) {first front : String}
    (hf : IsFront files first front) : Ident.Plain front := by
  rcases hf with hs | ⟨rfl, -⟩
  · exact hs.plain h
  · exact Ident.plain_empty

theorem IsFront.unique {files : List SourceFile} (one : OneSectionPerFamily files)
    {first front other : String} (h : IsFront files first front)
    (h' : IsFront files first other) : front = other := by
  rcases h with hs | ⟨rfl, hno⟩
  · rcases h' with hs' | ⟨-, hno⟩
    · exact hs.unique one hs'
    · exact absurd hs (hno front)
  · rcases h' with hs' | ⟨rfl, -⟩
    · exact absurd hs' (hno other)
    · rfl

namespace Listing

/-! ## Fronts come from families

A key is read in the two places where inference reads it: its section and the segment after that.
For a section without separators these are the section and the first segment of the identifier, and
from there on only families matter. -/

theorem sectionOf_qualify {s : String} (hs : Ident.Plain s) (id : String) :
    sectionOf (Ident.qualify (some s) id) = s := by
  rw [sectionOf, Ident.segments_qualify hs]
  rfl

theorem headOf_qualify {s : String} (hs : Ident.Plain s) (id : String) :
    headOf (Ident.qualify (some s) id) = some (Ident.firstSegment id) := by
  rw [headOf, Ident.segments_qualify hs, List.getElem?_cons_succ, ← List.head?_eq_getElem?]
  exact Ident.head?_segments id

theorem headOf_of_plain {key : String} (h : Ident.Plain key) : headOf key = none := by
  rw [headOf, Ident.segments_of_plain h]
  rfl

section Families

variable {options : Options} {files : List SourceFile} (plain : PlainSections files)
include plain

theorem merge_key_cases {key : String} (h : key ∈ (merge options files).keys) :
    Ident.Plain key ∨
      ∃ source ∈ sourceRecords files, ∃ id, source.2.Documents id ∧
        key = Ident.qualify (some source.2.sectionText) id := by
  obtain ⟨record, hr⟩ := Catalog.mem_keys_iff_exists.1 h
  rcases merge_cases hr with ⟨rfl, -⟩ | ⟨source, hs, hk, rfl, -⟩ | ⟨source, hs, id, hd, hkey, -⟩
  · exact Or.inl Ident.plain_empty
  · exact Or.inl ((plain source hs).1 hk)
  · exact Or.inr ⟨source, hs, id, hd, hkey⟩

theorem familySection_of_key {key first : String} (h : key ∈ (merge options files).keys)
    (hne : sectionOf key ≠ "") (hhead : headOf key = some first) :
    FamilySection files first (sectionOf key) := by
  rcases merge_key_cases plain h with hplain | ⟨source, hs, id, hd, rfl⟩
  · rw [headOf_of_plain hplain] at hhead
    cases hhead
  · have htext := plain.sectionText hs
    rw [sectionOf_qualify htext] at hne ⊢
    rw [headOf_qualify htext] at hhead
    refine ⟨source, hs, hd.not_section, rfl, hne, ?_⟩
    rw [← Option.some.inj hhead, Ident.firstSegment, Ident.firstSegment, hd.segments_eq]

theorem exists_key_of_familySection (options : Options) {first s : String}
    (h : FamilySection files first s) :
    ∃ key ∈ (merge options files).keys, sectionOf key = s ∧ headOf key = some first := by
  obtain ⟨source, hs, hk, rfl, -, rfl⟩ := h
  have htext := plain.sectionText hs
  exact ⟨_, qualify_mem_keys_merge options hs (Or.inl ⟨hk, rfl⟩), sectionOf_qualify htext _,
    headOf_qualify htext _⟩

/-- **The front of a symbol is that of its family.** A symbol that carries a section keeps it, and
its family has it through this very symbol. One without is moved to a section that some key shows,
hence some record carries; and it stays without only when no key shows one, hence no record of the
family carries one. -/
theorem Front.isFront {source : String × RawRecord} (hs : source ∈ sourceRecords files)
    {id front : String} (hd : source.2.Documents id)
    (h : Front (merge options files) source.2.sectionText id front) :
    IsFront files (Ident.firstSegment id) front := by
  have htext := plain.sectionText hs
  have hsection := sectionOf_qualify htext id
  have hhead := headOf_qualify htext id
  cases h with
  | kept stays =>
    by_cases hne : source.2.sectionText = ""
    · refine Or.inr ⟨hne, fun s hf => ?_⟩
      -- a family with a section would have had the record moved
      obtain ⟨key, hkey, rfl, hfirst⟩ := exists_key_of_familySection plain options hf
      cases hinf : inferredSection (knownSections (merge options files).keys)
          (Ident.qualify (some source.2.sectionText) id) with
      | none =>
        refine inferredSection_eq_none_iff.1 hinf key hkey hf.ne_empty ?_
        rw [hfirst, hhead]
      | some s =>
        refine stays s ⟨qualify_mem_keys_merge options hs hd, ?_, hinf⟩
        rw [lacksSection_iff, Ident.toList_qualify, hne]
        exact ⟨'.', id.toList, rfl, rfl⟩
    · have hkey := familySection_of_key plain (qualify_mem_keys_merge options hs hd)
        (by rwa [hsection]) hhead
      rw [hsection] at hkey
      exact Or.inl hkey
  | moved s moves =>
    -- only what has no section moves, so the inferred one is all that stands in front
    have hempty : source.2.sectionText = "" := by
      have hlacks := moves.lacks
      rw [lacksSection, hsection, Bool.and_eq_true, beq_iff_eq] at hlacks
      exact hlacks.2
    obtain ⟨key, hkey, hne, rfl, hsame⟩ := exists_of_inferredSection moves.inferred
    rw [hempty, String.append_empty]
    exact Or.inl (familySection_of_key plain hkey hne (hsame.trans hhead))

end Families

end Listing

end DocTree
