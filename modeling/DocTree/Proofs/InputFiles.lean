import DocTree.CommandLine.Inputs
import DocTree.Proofs.PathOrder
import DocTree.Proofs.Steps

/-!
# Only the set of the inputs counts

What an input stands for is said here without the order in which anything is looked at
(`StandsFor`), and so is what can be wrong with it (`Faulty`). The files of a command line are then
the increasing row of all that its inputs stand for. There is only one such row, so it makes no
difference in which order the inputs are given or how often, nor in which order a directory is
listed or the matches of a pattern come: where several of them name a file in different ways, the
row has it once.

Which of its names it has there is left open. `docs/a.json` and `docs//a.json` have the same
components, and of two such names the one that is found first is kept; so rows are compared by
components, and not as texts (`Expands.components_eq`). To compare the texts would be wrong for
inputs in another order.

Errors are compared by whether there is one. The first faulty input is reported, and which is first
depends on the order, while whether some input is faulty does not.

The lookups of the file system are parameters throughout, and nothing is assumed of them: neither
that a listing is in some order, nor that what a pattern matches is there.
-/

set_option autoImplicit false

namespace DocTree.CommandLine

/-! ## The statement

Three kinds of inputs, told apart by two questions to the file system, and what each stands for.
Only a pattern can stand for itself without being a file: a plain name that matches nothing is kept,
so that a missing file is reported when it is read and not passed over. -/

def IsDirectory (lookup : Lookup) (input : String) : Prop :=
  lookup.isFile input = false ∧ lookup.isDirectory input = true

def IsPattern (lookup : Lookup) (input : String) : Prop :=
  lookup.isFile input = false ∧ lookup.isDirectory input = false

instance (lookup : Lookup) (input : String) : Decidable (IsPattern lookup input) :=
  inferInstanceAs (Decidable (_ ∧ _))

def Tame (text : String) : Prop := '*' ∉ text.toList ∧ '?' ∉ text.toList ∧ '[' ∉ text.toList

inductive StandsFor (lookup : Lookup) (input : String) : String → Prop where
  | file (isFile : lookup.isFile input = true) : StandsFor lookup input input
  | member {names : List String} {name : String} (isDirectory : IsDirectory lookup input)
      (listed : lookup.list input = .ok names) (mem : name ∈ names)
      (isFile : lookup.isFile (Path.join input name) = true)
      (extension : Path.extension? (Path.join input name) = some "json") :
      StandsFor lookup input (Path.join input name)
  | found {paths : List String} {path : String} (isPattern : IsPattern lookup input)
      (expanded : lookup.expand input = .ok paths) (mem : path ∈ paths)
      (isFile : lookup.isFile path = true) : StandsFor lookup input path
  | missing {paths : List String} (isPattern : IsPattern lookup input)
      (expanded : lookup.expand input = .ok paths)
      (none : ∀ path ∈ paths, lookup.isFile path = false) (tame : Tame input) :
      StandsFor lookup input input

inductive Faulty (lookup : Lookup) (input : String) : InputFault → Prop where
  | unreadable {fault : FileFault} (isDirectory : IsDirectory lookup input)
      (refused : lookup.list input = .error fault) :
      Faulty lookup input (.unreadableDirectory fault)
  | malformed {fault : Glob.Fault} (isPattern : IsPattern lookup input)
      (refused : lookup.expand input = .error fault) : Faulty lookup input (.badPattern fault)

/-- The files are all that the inputs stand for, in order and each once. Two texts of the same
components are one file, of which either text may be there. -/
structure Expands (lookup : Lookup) (inputs files : List String) : Prop where
  increasing : files.Pairwise Path.Before
  standsFor : ∀ file ∈ files, ∃ input ∈ inputs, StandsFor lookup input file
  complete : ∀ input ∈ inputs, ∀ file, StandsFor lookup input file →
    ∃ kept ∈ files, Path.components kept = Path.components file

/-- Two rows of inputs give the same files, if they give any, and they fail together. With which
fault they fail may differ, since only the first one is reported. -/
structure SameExpansion (lookup : Lookup) (inputs others : List String) : Prop where
  fails_iff : (∃ bad, inputFiles lookup inputs = .error bad) ↔
    ∃ bad, inputFiles lookup others = .error bad
  fails_iff_faulty : (∃ bad, inputFiles lookup inputs = .error bad) ↔
    ∃ input ∈ inputs, ∃ fault, Faulty lookup input fault
  expands : ∀ files, inputFiles lookup inputs = .ok files → Expands lookup inputs files
  expands_others : ∀ files, inputFiles lookup others = .ok files → Expands lookup others files
  components_eq : ∀ files kept, inputFiles lookup inputs = .ok files →
    inputFiles lookup others = .ok kept →
    files.map Path.components = kept.map Path.components
  /-- Nor does it count in which order the files are found, and how often. -/
  any_order : ∀ files found, inputFiles lookup inputs = .ok files →
    (∀ file, file ∈ found ↔ ∃ input ∈ inputs, StandsFor lookup input file) →
    (Path.sortDistinct found).map Path.components = files.map Path.components

/-! ## One input

The three kinds exclude each other, so each case of the program has one case of the relations. What
an input stands for is therefore said once for each kind, with the other cases ruled out, and in the
same words as what the program gives for it. -/

section Input

variable {lookup : Lookup} {input : String}

theorem isRecordFile_iff {path : String} :
    isRecordFile path = true ↔ Path.extension? path = some "json" := beq_iff_eq

theorem hasWildcard_eq_false_iff {text : String} : hasWildcard text = false ↔ Tame text := by
  simp only [hasWildcard, List.any_eq_false, Bool.or_eq_true, beq_iff_eq, not_or, Tame]
  constructor
  · intro h
    exact ⟨fun hm => (h '*' hm).1.1 rfl, fun hm => (h '?' hm).1.2 rfl, fun hm => (h '[' hm).2 rfl⟩
  · rintro ⟨hstar, hmark, hbracket⟩ c hc
    refine ⟨⟨?_, ?_⟩, ?_⟩ <;> rintro rfl <;> contradiction

theorem file_or_directory_or_pattern (lookup : Lookup) (input : String) :
    lookup.isFile input = true ∨ IsDirectory lookup input ∨ IsPattern lookup input := by
  cases hfile : lookup.isFile input with
  | true => exact Or.inl rfl
  | false =>
    cases hdirectory : lookup.isDirectory input with
    | true => exact Or.inr (Or.inl ⟨hfile, hdirectory⟩)
    | false => exact Or.inr (Or.inr ⟨hfile, hdirectory⟩)

theorem IsDirectory.not_isFile (h : IsDirectory lookup input) : ¬ lookup.isFile input = true :=
  Bool.eq_false_iff.1 h.1

theorem IsPattern.not_isFile (h : IsPattern lookup input) : ¬ lookup.isFile input = true :=
  Bool.eq_false_iff.1 h.1

theorem IsPattern.not_isDirectory (h : IsPattern lookup input) : ¬ IsDirectory lookup input :=
  fun hdirectory => Bool.eq_false_iff.1 h.2 hdirectory.2

theorem filesOf_of_isFile (h : lookup.isFile input = true) : filesOf lookup input = .ok [input] :=
  if_pos h

theorem filesOf_of_isDirectory (h : IsDirectory lookup input) :
    filesOf lookup input = (directoryFiles lookup input).mapError .unreadableDirectory := by
  rw [filesOf, if_neg h.not_isFile, if_pos h.2]

theorem filesOf_of_isPattern (h : IsPattern lookup input) :
    filesOf lookup input = (patternFiles lookup input).mapError .badPattern := by
  rw [filesOf, if_neg h.not_isFile, if_neg (Bool.eq_false_iff.1 h.2)]

theorem filesOf_eq_error_iff {fault : InputFault} :
    filesOf lookup input = .error fault ↔ Faulty lookup input fault := by
  rcases file_or_directory_or_pattern lookup input with hfile | hdirectory | hpattern
  · rw [filesOf_of_isFile hfile]
    refine iff_of_false nofun ?_
    rintro (⟨hdirectory, -⟩ | ⟨hpattern, -⟩)
    · exact hdirectory.not_isFile hfile
    · exact hpattern.not_isFile hfile
  · rw [filesOf_of_isDirectory hdirectory, mapError_eq_error_iff, directoryFiles]
    simp only [map_eq_error_iff]
    constructor
    · rintro ⟨refused, hlist, rfl⟩
      exact .unreadable hdirectory hlist
    · rintro (⟨-, hlist⟩ | ⟨hpattern, -⟩)
      · exact ⟨_, hlist, rfl⟩
      · exact absurd hdirectory hpattern.not_isDirectory
  · rw [filesOf_of_isPattern hpattern, mapError_eq_error_iff, patternFiles]
    simp only [map_eq_error_iff]
    constructor
    · rintro ⟨refused, hexpand, rfl⟩
      exact .malformed hpattern hexpand
    · rintro (⟨hdirectory, -⟩ | ⟨-, hexpand⟩)
      · exact absurd hdirectory hpattern.not_isDirectory
      · exact ⟨_, hexpand, rfl⟩

theorem mem_directoryFiles_iff {names files : List String} {file : String}
    (listed : lookup.list input = .ok names) (h : directoryFiles lookup input = .ok files) :
    file ∈ files ↔ ∃ name ∈ names, Path.join input name = file ∧ lookup.isFile file = true ∧
      Path.extension? file = some "json" := by
  rw [directoryFiles, listed] at h
  cases h
  rw [List.mem_filter, List.mem_map, Bool.and_eq_true, isRecordFile_iff]
  constructor
  · rintro ⟨⟨name, hm, he⟩, hkept⟩
    exact ⟨name, hm, he, hkept⟩
  · rintro ⟨name, hm, he, hkept⟩
    exact ⟨⟨name, hm, he⟩, hkept⟩

/-- A pattern gives its matches that are files, and itself only where there is none and it looks
like a plain name. -/
theorem mem_patternFiles_iff {paths files : List String} {file : String}
    (expanded : lookup.expand input = .ok paths) (h : patternFiles lookup input = .ok files) :
    file ∈ files ↔ (file ∈ paths ∧ lookup.isFile file = true) ∨
      (file = input ∧ (∀ path ∈ paths, lookup.isFile path = false) ∧ Tame input) := by
  rw [patternFiles, expanded] at h
  cases h
  have none : (paths.filter lookup.isFile).isEmpty = true ↔
      ∀ path ∈ paths, lookup.isFile path = false := by
    rw [List.isEmpty_iff, List.filter_eq_nil_iff]
    exact forall₂_congr fun path _ => iff_of_eq (Bool.not_eq_true _)
  dsimp only
  split
  case isTrue alone =>
    rw [Bool.and_eq_true, none, Bool.not_eq_true', hasWildcard_eq_false_iff] at alone
    rw [List.mem_singleton]
    constructor
    · intro he
      exact Or.inr ⟨he, alone⟩
    · rintro (⟨hm, hfile⟩ | ⟨he, -⟩)
      · exact absurd hfile (Bool.eq_false_iff.1 (alone.1 file hm))
      · exact he
  case isFalse some =>
    rw [Bool.and_eq_true, none, Bool.not_eq_true', hasWildcard_eq_false_iff] at some
    rw [List.mem_filter]
    constructor
    · exact Or.inl
    · rintro (hm | ⟨-, alone⟩)
      · exact hm
      · exact absurd alone some

theorem standsFor_iff_of_isFile {file : String} (h : lookup.isFile input = true) :
    StandsFor lookup input file ↔ file = input := by
  constructor
  · rintro (- | ⟨hdirectory, -⟩ | ⟨hpattern, -⟩ | -)
    · rfl
    · exact absurd h hdirectory.not_isFile
    · exact absurd h hpattern.not_isFile
    · rfl
  · rintro rfl
    exact .file h

theorem standsFor_iff_of_isDirectory {names : List String} {file : String}
    (h : IsDirectory lookup input) (listed : lookup.list input = .ok names) :
    StandsFor lookup input file ↔ ∃ name ∈ names, Path.join input name = file ∧
      lookup.isFile file = true ∧ Path.extension? file = some "json" := by
  constructor
  · rintro (hfile | ⟨-, hlist, hm, hfile, hextension⟩ | ⟨hpattern, -⟩ | ⟨hpattern, -⟩)
    · exact absurd hfile h.not_isFile
    · cases listed.symm.trans hlist
      exact ⟨_, hm, rfl, hfile, hextension⟩
    · exact absurd h hpattern.not_isDirectory
    · exact absurd h hpattern.not_isDirectory
  · rintro ⟨name, hm, rfl, hfile, hextension⟩
    exact .member h listed hm hfile hextension

theorem standsFor_iff_of_isPattern {paths : List String} {file : String}
    (h : IsPattern lookup input) (expanded : lookup.expand input = .ok paths) :
    StandsFor lookup input file ↔ (file ∈ paths ∧ lookup.isFile file = true) ∨
      (file = input ∧ (∀ path ∈ paths, lookup.isFile path = false) ∧ Tame input) := by
  constructor
  · rintro (hfile | ⟨hdirectory, -⟩ | ⟨-, hexpand, hm, hfile⟩ | ⟨-, hexpand, none, tame⟩)
    · exact absurd hfile h.not_isFile
    · exact absurd hdirectory h.not_isDirectory
    · cases expanded.symm.trans hexpand
      exact Or.inl ⟨hm, hfile⟩
    · cases expanded.symm.trans hexpand
      exact Or.inr ⟨rfl, none, tame⟩
  · rintro (⟨hm, hfile⟩ | ⟨rfl, none, tame⟩)
    · exact .found h expanded hm hfile
    · exact .missing h expanded none tame

theorem mem_filesOf_iff {files : List String} {file : String}
    (h : filesOf lookup input = .ok files) : file ∈ files ↔ StandsFor lookup input file := by
  rcases file_or_directory_or_pattern lookup input with hfile | hdirectory | hpattern
  · rw [filesOf_of_isFile hfile] at h
    cases h
    rw [List.mem_singleton, standsFor_iff_of_isFile hfile]
  · rw [filesOf_of_isDirectory hdirectory, mapError_eq_ok_iff] at h
    obtain ⟨names, listed, -⟩ := map_eq_ok_iff.1 h
    rw [mem_directoryFiles_iff listed h, standsFor_iff_of_isDirectory hdirectory listed]
  · rw [filesOf_of_isPattern hpattern, mapError_eq_ok_iff] at h
    obtain ⟨paths, expanded, -⟩ := map_eq_ok_iff.1 h
    rw [mem_patternFiles_iff expanded h, standsFor_iff_of_isPattern hpattern expanded]

end Input

/-! ## All inputs

The inputs are looked up in order until one is faulty, and what has been found is sorted at the end.
Membership in what has been found does not depend on the order, and sorting depends on membership
alone. -/

section Inputs

variable {lookup : Lookup} {inputs files : List String}

theorem labels_filesOf (lookup : Lookup) :
    Labels (filesOf lookup) (fun input => (filesOf lookup input).mapError (BadInput.mk input))
      (fun _ files => files) BadInput.mk where
  ok h := by rw [h, Except.mapError]
  error h := by rw [h, Except.mapError]

theorem exists_inputFiles_eq_error_iff :
    (∃ bad, inputFiles lookup inputs = .error bad) ↔
      ∃ input ∈ inputs, ∃ fault, Faulty lookup input fault := by
  simp only [← filesOf_eq_error_iff, ← exists_firstFailure_iff]
  constructor
  · rintro ⟨bad, h⟩
    rw [inputFiles, bind_eq_error_iff] at h
    rcases h with h | ⟨found, -, h⟩
    · obtain ⟨input, fault, hfirst, -⟩ := (mapM_labelled_eq_error_iff (labels_filesOf lookup)).1 h
      exact ⟨input, fault, hfirst⟩
    · cases h
  · rintro ⟨input, fault, hfirst⟩
    refine ⟨⟨input, fault⟩, ?_⟩
    rw [inputFiles, bind_eq_error_iff]
    exact Or.inl ((mapM_labelled_eq_error_iff (labels_filesOf lookup)).2 ⟨input, fault, hfirst, rfl⟩)

theorem exists_found_of_inputFiles (h : inputFiles lookup inputs = .ok files) :
    ∃ found, files = Path.sortDistinct found ∧
      ∀ file, file ∈ found ↔ ∃ input ∈ inputs, StandsFor lookup input file := by
  obtain ⟨found, hfound, hfiles⟩ := bind_eq_ok_iff.1 h
  cases hfiles
  refine ⟨found.flatten, rfl, ?_⟩
  have rows := (mapM_labelled_eq_ok_iff (labels_filesOf lookup)).1 hfound
  intro file
  clear h hfound
  induction rows with
  | nil => simp
  | cons hfirst _ ih =>
    obtain ⟨result, hok, rfl⟩ := hfirst
    rw [List.flatten_cons, List.mem_append, ih, mem_filesOf_iff hok, List.exists_mem_cons_iff]

theorem Expands.of_found {found : List String}
    (exact : ∀ file, file ∈ found ↔ ∃ input ∈ inputs, StandsFor lookup input file) :
    Expands lookup inputs (Path.sortDistinct found) where
  increasing := Path.sortDistinct_increasing found
  standsFor file h := (exact file).1 (Path.mem_of_mem_sortDistinct h)
  complete input hi file h := Path.exists_mem_sortDistinct ((exact file).2 ⟨input, hi, h⟩)

theorem Expands.mem_map_iff (h : Expands lookup inputs files) {row : List Path.Component} :
    row ∈ files.map Path.components ↔
      ∃ input ∈ inputs, ∃ file, StandsFor lookup input file ∧ Path.components file = row := by
  rw [List.mem_map]
  constructor
  · rintro ⟨file, hm, rfl⟩
    obtain ⟨input, hi, hfile⟩ := h.standsFor file hm
    exact ⟨input, hi, file, hfile, rfl⟩
  · rintro ⟨input, hi, file, hfile, rfl⟩
    exact h.complete input hi file hfile

/-- **What the inputs stand for can be put in order in one way**, up to the texts of paths that are
the same. -/
theorem Expands.components_eq {others kept : List String} (h : Expands lookup inputs files)
    (h' : Expands lookup others kept) (same : ∀ input, input ∈ inputs ↔ input ∈ others) :
    files.map Path.components = kept.map Path.components := by
  refine Path.map_components_eq h.increasing h'.increasing fun row => ?_
  rw [h.mem_map_iff, h'.mem_map_iff]
  simp only [same]

theorem expands_of_inputFiles (h : inputFiles lookup inputs = .ok files) :
    Expands lookup inputs files := by
  obtain ⟨found, rfl, hexact⟩ := exists_found_of_inputFiles h
  exact .of_found hexact

end Inputs

/-- **Only the set of the inputs counts**, not their order, nor how often each of them is given.
Nothing is assumed of the lookup, which need not even be that of a file system. -/
theorem sameExpansion_of_mem_iff (lookup : Lookup) {inputs others : List String}
    (same : ∀ input, input ∈ inputs ↔ input ∈ others) : SameExpansion lookup inputs others where
  fails_iff := by
    rw [exists_inputFiles_eq_error_iff, exists_inputFiles_eq_error_iff]
    simp only [same]
  fails_iff_faulty := exists_inputFiles_eq_error_iff
  expands _ h := expands_of_inputFiles h
  expands_others _ h := expands_of_inputFiles h
  components_eq _ _ h h' := (expands_of_inputFiles h).components_eq (expands_of_inputFiles h') same
  any_order _ _ h hfound :=
    (Expands.of_found hfound).components_eq (expands_of_inputFiles h) fun _ => Iff.rfl

def docsSystem : FileSystem :=
  ((FileSystem.fresh ["home"]).place ["home", "docs", "a.json"] (.file ByteArray.empty)).place
    ["home", "docs", "b.json"] (.file ByteArray.empty)

/-- One of the files is named twice, by itself and by its directory. -/
theorem sameExpansion_docsSystem :
    (∃ files, inputFiles (.ofFileSystem docsSystem) ["docs", "docs/a.json"] = .ok files) ∧
      (∀ input, input ∈ ["docs", "docs/a.json"] ↔
        input ∈ ["docs/a.json", "docs", "docs/a.json"]) ∧
      SameExpansion (.ofFileSystem docsSystem) ["docs", "docs/a.json"]
        ["docs/a.json", "docs", "docs/a.json"] := by
  have same : ∀ input, input ∈ ["docs", "docs/a.json"] ↔
      input ∈ ["docs/a.json", "docs", "docs/a.json"] := by
    intro input
    simp only [List.mem_cons, List.not_mem_nil, or_false]
    tauto
  have sound : ∀ input ∈ ["docs", "docs/a.json"],
      ¬ IsPattern (.ofFileSystem docsSystem) input := by decide +kernel
  refine ⟨?_, same, sameExpansion_of_mem_iff _ same⟩
  cases h : inputFiles (.ofFileSystem docsSystem) ["docs", "docs/a.json"] with
  | ok files => exact ⟨files, rfl⟩
  | error bad =>
    obtain ⟨input, hi, fault, hfault⟩ := exists_inputFiles_eq_error_iff.1 ⟨bad, h⟩
    cases hfault with
    | unreadable _ refused => cases refused
    | malformed isPattern => exact absurd isPattern (sound input hi)

end DocTree.CommandLine
