import DocTree.Documentation.Json
import DocTree.Documentation.Markdown
import DocTree.Proofs.Published
import DocTree.Proofs.SectionInference

/-!
# The order of the files

Two orders of the same files give listings that differ as lists at every step: in where a key
stands, in which key is inferred from, and in what is moved over what. As functions from keys they
agree (`Catalog.Agrees`), and that is all that publishing looks at, since it goes through sorted
keys.

Merging agrees when no key comes from two files. Inference agrees when there is nothing to choose:
then the first key that has a section and shares the outermost name has the same section in both
orders, whichever key it is.

Both conditions are about one of the two orders and hold of the other one as well, the first because
it speaks of pairs of files, the second because it goes over with agreement (`Unambiguous.congr`).
Neither can be left out. Two files with a key in common are decided by which of them is last; and
two sections that a record could be moved to are decided by which key is first, even if all keys
differ.

Agreement is proved key by key and not by following the two passes side by side. In a pass the
records do not even move in the same order, and halfway through the listings need not agree. At the
end each key is the target of a move, the source of one, or neither, and which it is depends on the
keys alone (`Moves.congr`).
-/

set_option autoImplicit false

namespace DocTree

namespace Listing

/-! ## Merging

The records of all files are entered one after the other, and a later one takes the place of an
earlier one. Within a file this goes on as before when files change places; between files it must
not happen at all. -/

/-- No key is produced by two different files. Within a file a key may come twice, since the order
there does not change. -/
def KeysApart (options : Options) (files : List SourceFile) : Prop :=
  ∀ file ∈ files, ∀ other ∈ files, ∀ key,
    key ∈ (fileRecords options file).map Prod.fst →
      key ∈ (fileRecords options other).map Prod.fst → file = other

theorem merge_agrees {options : Options} {files others : List SourceFile}
    (perm : files.Perm others) (apart : KeysApart options files) :
    Catalog.Agrees (merge options files) (merge options others) := by
  intro key
  rw [merge, merge, Catalog.get?_ofList, Catalog.get?_ofList, Catalog.lastValue,
    Catalog.lastValue]
  rw [Catalog.lastValue_flatMap_perm perm fun file hf other ho => apart file hf other ho key]

/-! ## Inference

What a record is moved to is the section of the first key that will do. That key may be another one
in the other order, so the two are compared through their sections. -/

/-- For no key without a section there is a choice of sections. Where there were one, the key that
comes first would decide, and that depends on the order of the files. -/
def Unambiguous (listing : Listing) : Prop :=
  ∀ key ∈ listing.keys, lacksSection key = true →
    ∀ one ∈ listing.keys, ∀ other ∈ listing.keys, sectionOf one ≠ "" → sectionOf other ≠ "" →
      headOf one = headOf key → headOf other = headOf key → sectionOf one = sectionOf other

instance : DecidablePred Unambiguous := fun listing =>
  inferInstanceAs (Decidable (∀ key ∈ listing.keys, lacksSection key = true →
    ∀ one ∈ listing.keys, ∀ other ∈ listing.keys, sectionOf one ≠ "" → sectionOf other ≠ "" →
      headOf one = headOf key → headOf other = headOf key → sectionOf one = sectionOf other))

variable {listing other : Listing}

theorem Unambiguous.congr (h : Unambiguous listing) (agrees : Catalog.Agrees listing other) :
    Unambiguous other := by
  intro key hk hl one ho two ht
  exact h key (agrees.mem_keys.2 hk) hl one (agrees.mem_keys.2 ho) two (agrees.mem_keys.2 ht)

theorem Moves.congr (clear : Unambiguous listing) (agrees : Catalog.Agrees listing other)
    {key s : String} (h : Moves listing key s) : Moves other key s := by
  refine ⟨agrees.mem_keys.1 h.mem_keys, h.lacks, ?_⟩
  -- the key that it is inferred from is in the other listing too, if perhaps not the first one
  obtain ⟨one, hone, hne, hs, hhead⟩ := exists_of_inferredSection h.inferred
  cases hinf : inferredSection (knownSections other.keys) key with
  | none =>
    rw [inferredSection_eq_none_iff] at hinf
    exact absurd hhead (hinf one (agrees.mem_keys.1 hone) (hs ▸ hne))
  | some t =>
    obtain ⟨two, htwo, hne', ht, hhead'⟩ := exists_of_inferredSection hinf
    have same := clear key h.mem_keys h.lacks one hone two (agrees.mem_keys.2 htwo) (hs ▸ hne)
      (ht ▸ hne') hhead hhead'
    rw [← hs, ← ht, same]

/-- **Inference keeps the agreement**: every key is a target, a source or neither in both. The order
of the three cases is that of inference: a key that some record is moved to holds this record,
whatever stood there before. -/
theorem inferSections_agrees (clear : Unambiguous listing)
    (agrees : Catalog.Agrees listing other) :
    Catalog.Agrees listing.inferSections other.inferSections := by
  have back : ∀ {key s : String}, Moves other key s → Moves listing key s :=
    fun h => h.congr (clear.congr agrees) agrees.symm
  intro x
  by_cases ht : ∃ key s, Moves listing key s ∧ s ++ key = x
  · obtain ⟨key, s, moves, rfl⟩ := ht
    obtain ⟨record, hr⟩ := Catalog.mem_keys_iff_exists.1 moves.mem_keys
    rw [get?_inferSections_target moves hr,
      get?_inferSections_target (moves.congr clear agrees) ((agrees key).symm.trans hr)]
  -- moved away and nothing moved there: the key is gone from both
  · by_cases hs : ∃ s, Moves listing x s
    · obtain ⟨s, moves⟩ := hs
      rw [get?_inferSections_source moves, get?_inferSections_source (moves.congr clear agrees)]
    · have source : ∀ s, ¬ Moves listing x s := fun s moves => hs ⟨s, moves⟩
      have target : ∀ key s, Moves listing key s → s ++ key ≠ x :=
        fun key s moves he => ht ⟨key, s, moves, he⟩
      rw [get?_inferSections_of_ne source target,
        get?_inferSections_of_ne (fun s moves => source s (back moves))
          fun key s moves => target key s (back moves)]
      exact agrees x

/-! ## Publishing

From here on equality replaces agreement: sorting forgets where a key stood. -/

theorem canonicalOrder_congr (agrees : Catalog.Agrees listing other) :
    listing.canonicalOrder = other.canonicalOrder := sortKeys_congr agrees.keys_perm

theorem publish_congr (agrees : Catalog.Agrees listing other) :
    listing.publish = other.publish := by
  have same : listing.get? = other.get? := funext agrees
  unfold publish Forest.assemble
  rw [canonicalOrder_congr agrees, same]

end Listing

/-! ## The finished documentation

The two passes and publishing, one after the other. -/

/-- **The order of the files does not matter when there is nothing to choose.** The documentation is
the same, and so is whatever is written from it. -/
theorem Documentation.ofFiles_perm {options : Options} {files others : List SourceFile}
    (perm : files.Perm others) (apart : Listing.KeysApart options files)
    (clear : (Listing.merge options files).Unambiguous) :
    Documentation.ofFiles options files = Documentation.ofFiles options others ∧
      (∀ layout, (Documentation.ofFiles options files).json layout
        = (Documentation.ofFiles options others).json layout) ∧
      (Documentation.ofFiles options files).markdown
        = (Documentation.ofFiles options others).markdown := by
  have same : Documentation.ofFiles options files = Documentation.ofFiles options others := by
    rw [Listing.ofFiles_eq_publish, Listing.ofFiles_eq_publish]
    exact Listing.publish_congr
      (Listing.inferSections_agrees clear (Listing.merge_agrees perm apart))
  rw [same]
  exact ⟨rfl, fun _ => rfl, rfl⟩

/-- A section with one of its symbols; the file below has a symbol that must be moved to this
section, with its counterpart. -/
def sectionFile : SourceFile :=
  SourceFile.ofRecords "dom.json"
    [RawRecord.brief "DOM" .sectionKind none, RawRecord.brief "Element" .classKind (some "DOM")]

def memberFile : SourceFile :=
  SourceFile.ofRecords "hide.json"
    [{ RawRecord.brief "Element.hide" .method none with bound := true }]

theorem Documentation.ofFiles_sectionFile_memberFile :
    [sectionFile, memberFile].Perm [memberFile, sectionFile] ∧
      Listing.KeysApart Options.plain [sectionFile, memberFile] ∧
      (Listing.merge Options.plain [sectionFile, memberFile]).Unambiguous ∧
      Documentation.ofFiles Options.plain [sectionFile, memberFile]
        = Documentation.ofFiles Options.plain [memberFile, sectionFile] := by
  have perm : [sectionFile, memberFile].Perm [memberFile, sectionFile] := List.Perm.swap _ _ _
  have clear : (Listing.merge Options.plain [sectionFile, memberFile]).Unambiguous := by decide
  have disjoint : ∀ key ∈ (Listing.fileRecords Options.plain sectionFile).map Prod.fst,
      key ∉ (Listing.fileRecords Options.plain memberFile).map Prod.fst := by decide
  have apart : Listing.KeysApart Options.plain [sectionFile, memberFile] := by
    intro file hf other ho key hk hk'
    simp only [List.mem_cons, List.not_mem_nil, or_false] at hf ho
    rcases hf with rfl | rfl <;> rcases ho with rfl | rfl
    · rfl
    · exact absurd hk' (disjoint key hk)
    · exact absurd hk (disjoint key hk')
    · rfl
  exact ⟨perm, apart, clear, (Documentation.ofFiles_perm perm apart clear).1⟩

end DocTree
