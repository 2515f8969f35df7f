import DocTree.Listing
import DocTree.Proofs.Catalogs
import DocTree.Proofs.Identifiers

/-!
# What the files document

The other side of the statements about assembled documentation: the records as they stand in the
files, and the identifiers that they document. A record documents its own identifier; a method
declared as bound documents that of its instance method as well. Everything in the merged listing is
the nameless section, a section of a file, or a record of a file placed under one of the identifiers
that it documents (`merge_cases`).

Whatever is promised about documentation is promised in these terms. They do not mention keys,
forests or passes: a reader of a statement needs to know what a record of a file says (`Documents`)
and which part of it is copied (`Content`), and can check both against the comments that the records
were made from.

Merging may overwrite. When two records are placed under the same key the later one stays, with no
trace of the other; `merge_cases` goes from an entry to some record that made it, and in the other
direction there is only that the key is there (`qualify_mem_keys_merge`).

No condition is made on sections. A record carries one or not, and an empty one is as good as none;
`sectionText` has the same text in both cases, so that keys are written in one way.
-/

set_option autoImplicit false

namespace DocTree

/-! ## Records and what they document

A section documents no symbol, whatever it says, and stands for itself. All other kinds are alike
but for methods that are bound. -/

def sourceRecords (files : List SourceFile) : List (String × RawRecord) :=
  files.flatMap fun file => file.records.values.map fun raw => (file.path, raw)

/-- Whether a record documents a symbol: no section, it stands for its own identifier, and a bound
method for that of its instance method too. -/
def RawRecord.Documents (raw : RawRecord) (id : String) : Prop :=
  (raw.kind ≠ .sectionKind ∧ raw.id = id) ∨
    (raw.bound = true ∧ raw.kind = .method ∧ Ident.instanceMember raw.id = some id)

def Documented (files : List SourceFile) (id : String) : Prop :=
  ∃ source ∈ sourceRecords files, source.2.Documents id

/-- The section that a record carries, which is empty when it carries none. To carry an empty one
and to carry none are the same for the key of an entry. -/
def RawRecord.sectionText (raw : RawRecord) : String := raw.sectionName.getD ""

/-- Whether `P` holds of the identifiers of all sections and of all sections that records carry. The
conditions that statements put on sections have this form, with one `P` or another. -/
def EverySection (P : String → Prop) (files : List SourceFile) : Prop :=
  ∀ source ∈ sourceRecords files,
    (source.2.kind = .sectionKind → P source.2.id) ∧ ∀ s ∈ source.2.sectionName, P s

instance (P : String → Prop) [DecidablePred P] : DecidablePred (EverySection P) := fun files =>
  inferInstanceAs (Decidable (∀ source ∈ sourceRecords files,
    (source.2.kind = .sectionKind → P source.2.id) ∧ ∀ s ∈ source.2.sectionName, P s))

theorem EverySection.sectionText {P : String → Prop} {files : List SourceFile}
    (h : EverySection P files) (empty : P "") {source : String × RawRecord}
    (hs : source ∈ sourceRecords files) : P source.2.sectionText := by
  rw [RawRecord.sectionText]
  cases hname : source.2.sectionName with
  | none => exact empty
  | some s => exact (h source hs).2 s hname

/-- What is copied from a record of a file and never changed. The kind, the identifier and the
section are not in it, and neither is anything that is found out about other records. -/
structure Content where
  line : Nat
  href : Option String
  description : Option String
  shortDescription : Option String
  aliasOf : Option String
  superclass : Option String
  extra : Json.Members

def RawRecord.content (raw : RawRecord) (href : Option String) : Content :=
  ⟨raw.line, href, raw.description, raw.shortDescription, raw.aliasOf, raw.superclass, raw.extra⟩

def Record.content (record : Record) : Content :=
  ⟨record.line, record.href, record.description, record.shortDescription, record.aliasOf,
    record.superclass, record.extra⟩

theorem RawRecord.Documents.not_section {raw : RawRecord} {id : String} (h : raw.Documents id) :
    raw.kind ≠ .sectionKind := by
  rcases h with ⟨hk, -⟩ | ⟨-, hk, -⟩
  · exact hk
  · rw [hk]
    decide

theorem RawRecord.Documents.segments_eq {raw : RawRecord} {id : String} (h : raw.Documents id) :
    Ident.segments raw.id = Ident.segments id := by
  rcases h with ⟨-, rfl⟩ | ⟨-, -, hi⟩
  · rfl
  · exact (Ident.segments_instanceMember hi).symm

/-! ## Files for examples

Records with next to nothing in them, for the witnesses of statements about files. -/

/-- A record that says no more than what it documents and where that belongs. -/
def RawRecord.brief (id : String) (kind : Kind) (sectionName : Option String) : RawRecord where
  id := id
  kind := kind
  sectionName := sectionName
  line := 0
  description := none
  shortDescription := none
  aliasOf := none
  superclass := none
  bound := false
  extra := []

def SourceFile.ofRecords (path : String) (raws : List RawRecord) : SourceFile :=
  ⟨path, Catalog.ofList (raws.map fun raw => (raw.id, raw))⟩

namespace Listing

/-! ## The entries that one record makes

One entry for a section, one for a symbol, two for a bound method. The second one of these differs
in the identifier and in what it is bound to. -/

theorem boundInstance_eq_some_iff {raw : RawRecord} {id : String} :
    boundInstance raw = some id ↔
      raw.bound = true ∧ raw.kind = .method ∧ Ident.instanceMember raw.id = some id := by
  rw [boundInstance]
  by_cases h : raw.bound = true ∧ raw.kind = .method
  · rw [if_pos h]
    exact ⟨fun hi => ⟨h.1, h.2, hi⟩, fun hi => hi.2.2⟩
  · rw [if_neg h]
    constructor
    · intro hi
      cases hi
    · intro hi
      exact absurd ⟨hi.1, hi.2.1⟩ h

theorem qualify_sectionName (raw : RawRecord) (href : Option String) (id : String) :
    Ident.qualify (Record.ofRaw raw href).sectionName id
      = Ident.qualify (some raw.sectionText) id := by
  have same : (raw.sectionName.filter fun text => text != "").getD ""
      = raw.sectionName.getD "" := by
    cases raw.sectionName with
    | none => rfl
    | some s => by_cases hs : s = "" <;> simp [Option.filter, hs]
  rw [Ident.qualify_getD]
  exact congrArg (fun s => Ident.qualify (some s) id) same

theorem placedRecords_of_section {raw : RawRecord} (h : raw.kind = .sectionKind)
    (href : Option String) : placedRecords href raw = [(raw.id, Record.ofRaw raw href)] := by
  have hs : (Record.ofRaw raw href).isSection = true := by
    rw [Record.isSection, Record.ofRaw, h]
    rfl
  rw [placedRecords, if_pos hs]
  rfl

theorem isSection_ofRaw {raw : RawRecord} (h : raw.kind ≠ .sectionKind) (href : Option String) :
    (Record.ofRaw raw href).isSection = false := by
  rw [Record.isSection, Record.ofRaw, beq_eq_false_iff_ne]
  exact h

/-- The identifier that the entry of `id` names as its other half: a bound method names its instance
method, and that names the method. -/
def counterpart (raw : RawRecord) (id : String) : Option String :=
  if id = raw.id then boundInstance raw else some raw.id

/-- **A record that is no section is placed under identifiers that it documents**, unchanged but for
its identifier and the link between the two of a bound method. -/
theorem placedRecords_cases {raw : RawRecord} (h : raw.kind ≠ .sectionKind) {href : Option String}
    {key : String} {record : Record} (hm : (key, record) ∈ placedRecords href raw) :
    ∃ id, raw.Documents id ∧ key = Ident.qualify (some raw.sectionText) id ∧
      record = { Record.ofRaw raw href with id := key, bound := counterpart raw id } := by
  have own : raw.Documents raw.id := Or.inl ⟨h, rfl⟩
  have linked : counterpart raw raw.id = boundInstance raw := if_pos rfl
  rw [placedRecords, if_neg (by rw [isSection_ofRaw h]; decide)] at hm
  cases hb : boundInstance raw with
  | none =>
    rw [hb, List.mem_singleton] at hm
    cases hm
    exact ⟨raw.id, own, qualify_sectionName raw href raw.id, by rw [linked, hb]; rfl⟩
  | some instanceId =>
    rw [hb] at hm
    rcases List.mem_cons.1 hm with he | hm
    · cases he
      exact ⟨raw.id, own, qualify_sectionName raw href raw.id, by rw [linked, hb]⟩
    · rw [List.mem_singleton] at hm
      cases hm
      have documents := boundInstance_eq_some_iff.1 hb
      have back : counterpart raw instanceId = some raw.id :=
        if_neg (Ident.ne_of_instanceMember documents.2.2)
      exact ⟨instanceId, Or.inr documents, qualify_sectionName raw href instanceId,
        by rw [back]; rfl⟩

theorem exists_placed {raw : RawRecord} {id : String} (h : raw.Documents id)
    (href : Option String) :
    Ident.qualify (some raw.sectionText) id ∈ (placedRecords href raw).map Prod.fst := by
  rw [placedRecords, if_neg (by rw [isSection_ofRaw h.not_section]; decide)]
  rcases h with ⟨-, rfl⟩ | hi
  · cases boundInstance raw with
    | none => exact List.mem_singleton.2 (qualify_sectionName raw href raw.id).symm
    | some instanceId => exact List.mem_cons.2 (Or.inl (qualify_sectionName raw href raw.id).symm)
  · rw [boundInstance_eq_some_iff.2 hi]
    refine List.mem_cons_of_mem _ (List.mem_singleton.2 ?_)
    exact (qualify_sectionName raw href id).symm

/-! ## The merged listing

All entries of all files in their order, behind the nameless section. Read by keys it is the last
entry of each. -/

section Merge

variable {options : Options} {files : List SourceFile}

theorem mem_fileRecords_flatMap {entry : String × Record} :
    entry ∈ files.flatMap (fileRecords options) ↔
      ∃ source ∈ sourceRecords files,
        entry ∈ placedRecords (options.href source.1 source.2.line) source.2 := by
  rw [sourceRecords]
  constructor
  · intro h
    obtain ⟨file, hf, he⟩ := List.mem_flatMap.1 h
    obtain ⟨raw, hr, hm⟩ := List.mem_flatMap.1 he
    exact ⟨(file.path, raw), List.mem_flatMap.2 ⟨file, hf, List.mem_map.2 ⟨raw, hr, rfl⟩⟩, hm⟩
  · rintro ⟨source, hs, hm⟩
    obtain ⟨file, hf, he⟩ := List.mem_flatMap.1 hs
    obtain ⟨raw, hr, rfl⟩ := List.mem_map.1 he
    exact List.mem_flatMap.2 ⟨file, hf, List.mem_flatMap.2 ⟨raw, hr, hm⟩⟩

theorem mem_keys_merge_of_placed {source : String × RawRecord} (hs : source ∈ sourceRecords files)
    {key : String}
    (hk : key ∈ (placedRecords (options.href source.1 source.2.line) source.2).map Prod.fst) :
    key ∈ (merge options files).keys := by
  obtain ⟨entry, hm, rfl⟩ := List.mem_map.1 hk
  rw [merge, Catalog.mem_keys_ofList, List.map_cons]
  exact List.mem_cons_of_mem _ (List.mem_map_of_mem (mem_fileRecords_flatMap.2 ⟨source, hs, hm⟩))

theorem section_mem_keys_merge (options : Options) {source : String × RawRecord}
    (hs : source ∈ sourceRecords files) (h : source.2.kind = .sectionKind) :
    source.2.id ∈ (merge options files).keys := by
  refine mem_keys_merge_of_placed hs ?_
  rw [placedRecords_of_section h]
  exact List.mem_singleton.2 rfl

theorem qualify_mem_keys_merge (options : Options) {source : String × RawRecord}
    (hs : source ∈ sourceRecords files) {id : String} (h : source.2.Documents id) :
    Ident.qualify (some source.2.sectionText) id ∈ (merge options files).keys :=
  mem_keys_merge_of_placed hs (exists_placed h _)

/-- **Where an entry of the merged listing comes from**: the nameless section, a section of some
file, or a record of some file under an identifier that it documents. Later entries of the same key
have replaced earlier ones, so this is all that is known without the order of the files. -/
theorem merge_cases {key : String} {record : Record}
    (h : (merge options files).get? key = some record) :
    (key = "" ∧ record = Record.root) ∨
      (∃ source ∈ sourceRecords files, source.2.kind = .sectionKind ∧ key = source.2.id ∧
        record = Record.ofRaw source.2 (options.href source.1 source.2.line)) ∨
      ∃ source ∈ sourceRecords files, ∃ id, source.2.Documents id ∧
        key = Ident.qualify (some source.2.sectionText) id ∧
        record = { Record.ofRaw source.2 (options.href source.1 source.2.line) with
          id := key, bound := counterpart source.2 id } := by
  rw [merge, Catalog.get?_ofList] at h
  rcases List.mem_cons.1 (Catalog.mem_of_lastValue h) with he | hm
  · cases he
    exact Or.inl ⟨rfl, rfl⟩
  · obtain ⟨source, hs, hp⟩ := mem_fileRecords_flatMap.1 hm
    by_cases hk : source.2.kind = .sectionKind
    · rw [placedRecords_of_section hk, List.mem_singleton] at hp
      cases hp
      exact Or.inr (Or.inl ⟨source, hs, hk, rfl, rfl⟩)
    · obtain ⟨id, hd, hkey, hrecord⟩ := placedRecords_cases hk hp
      exact Or.inr (Or.inr ⟨source, hs, id, hd, hkey, hrecord⟩)

end Merge

/-! ## Records carry their keys

That the identifier of a record is its key holds after merging and is kept from there on. Later
stages take the key from either. -/

def Labelled (listing : Listing) : Prop :=
  ∀ key record, listing.get? key = some record → record.id = key

theorem labelled_merge (options : Options) (files : List SourceFile) :
    (merge options files).Labelled := by
  intro key record h
  rcases merge_cases h with ⟨rfl, rfl⟩ | ⟨_, -, -, rfl, rfl⟩ | ⟨_, -, _, -, -, rfl⟩
  · rfl
  · rfl
  · rfl

end Listing

end DocTree
