import DocTree.Proofs.Catalogs
import DocTree.Proofs.Steps
import DocTree.Registry

/-!
# Which answer an invocation gives

Several things can be wrong with an invocation at once: the name, any of the paths, any of the
texts. What is reported is the name if nothing is registered under it, else the first path that
cannot be read, and only if all can, the first text that is malformed. `Verdict` says this without
the monad in which the answer is computed, and `parse_eq_iff_verdict` that no other answer is given.

Both passes over the files are one and the same traversal, which ends at the first failure
(`mapM_labelled_eq_error_iff`). What differs is how a result and a failure are labelled, with the
path in both cases, and this is what `Labels` abstracts from.

The order of the two passes shows in the verdict: a malformed text is reported only where all paths
have texts, those behind it included. A program that read and parsed file by file would report
another fault on some inputs, and the same one whenever there is just one.

A parser is registered under a name, and a later registration replaces an earlier one. The registry
is described by the list of registrations (`RegisteredLast`), which has all that were ever made;
parsers of other kinds may be among them, and of these only that they run is said.
-/

set_option autoImplicit false

namespace DocTree

/-! ## What a parser of comments answers

The verdict has a case for each thing that can come out, in the order in which they are checked.
Each case says what must have gone well before it. -/

def Texts (read : String → Except FileFault String) (paths : List String)
    (sources : List SourceText) : Prop :=
  List.Forall₂ (fun path source => ∃ text, read path = .ok text ∧ source = ⟨path, text⟩) paths
    sources

def Parsed (comments : CommentParser) (sources : List SourceText) (files : List SourceFile) :
    Prop :=
  List.Forall₂ (fun source file => ∃ records, comments source.text = .ok records ∧
    file = ⟨source.path, records⟩) sources files

/-- The answer to paths: reading comes before parsing, and of either the first fault. There is one
constructor for each way in which an answer can come about, and no two apply to the same paths. -/
inductive Verdict (comments : CommentParser) (options : Options)
    (read : String → Except FileFault String) (paths : List String) :
    Except Refusal Documentation → Prop where
  | unreadable {path : String} {fault : FileFault} (first : FirstFailure read paths path fault) :
      Verdict comments options read paths (.error (.unreadable path fault))
  | malformed {sources : List SourceText} {source : SourceText} {reason : String}
      (texts : Texts read paths sources)
      (first : FirstFailure (fun source => comments source.text) sources source reason) :
      Verdict comments options read paths (.error (.malformed source.path reason))
  | assembled {sources : List SourceText} {files : List SourceFile}
      (texts : Texts read paths sources) (parsed : Parsed comments sources files) :
      Verdict comments options read paths (.ok (Documentation.ofFiles options files))

namespace DocParser

variable {read : String → Except FileFault String} {paths : List String}

theorem labels_read :
    Labels read (fun path => match read path with
      | .ok text => .ok ⟨path, text⟩
      | .error fault => .error (.unreadable path fault)) SourceText.mk Refusal.unreadable where
  ok h := by simp only [h]
  error h := by simp only [h]

theorem labels_parseFile (comments : CommentParser) :
    Labels (fun source => comments source.text) comments.parseFile
      (fun source records => ⟨source.path, records⟩)
      (fun source reason => .malformed source.path reason) where
  ok h := by simp only [CommentParser.parseFile, h]
  error h := by simp only [CommentParser.parseFile, h]

theorem readSources_eq_error_iff {refusal : Refusal} :
    readSources read paths = .error refusal ↔
      ∃ path fault, FirstFailure read paths path fault ∧ refusal = .unreadable path fault :=
  mapM_labelled_eq_error_iff labels_read

theorem readSources_eq_ok_iff {sources : List SourceText} :
    readSources read paths = .ok sources ↔ Texts read paths sources :=
  mapM_labelled_eq_ok_iff labels_read

theorem parseFiles_eq_error_iff {comments : CommentParser} {sources : List SourceText}
    {refusal : Refusal} :
    comments.parseFiles sources = .error refusal ↔
      ∃ source reason, FirstFailure (fun source => comments source.text) sources source reason ∧
        refusal = .malformed source.path reason :=
  mapM_labelled_eq_error_iff (labels_parseFile comments)

theorem parseFiles_eq_ok_iff {comments : CommentParser} {sources : List SourceText}
    {files : List SourceFile} :
    comments.parseFiles sources = .ok files ↔ Parsed comments sources files :=
  mapM_labelled_eq_ok_iff (labels_parseFile comments)

theorem parse_of_texts (parser : DocParser) (options : Options) {sources : List SourceText}
    (h : Texts read paths sources) :
    parser.parse options read paths = parser.parseTexts options sources := by
  rw [parse, readSources_eq_ok_iff.2 h]
  rfl

/-- **A parser of comments gives the answer of the verdict and no other.** All paths are read before
the first text is parsed, and so a late reading fault wins over an early parsing one. -/
theorem parse_eq_iff_verdict (comments : CommentParser) (options : Options)
    {answer : Except Refusal Documentation} :
    (ofComments comments).parse options read paths = answer ↔
      Verdict comments options read paths answer := by
  constructor
  · rintro rfl
    cases hread : readSources read paths with
    | error refusal =>
      obtain ⟨path, fault, first, rfl⟩ := readSources_eq_error_iff.1 hread
      rw [parse, hread]
      exact .unreadable first
    | ok sources =>
      have texts := readSources_eq_ok_iff.1 hread
      rw [parse_of_texts _ options texts, ofComments]
      dsimp only
      cases hparse : comments.parseFiles sources with
      | error refusal =>
        obtain ⟨source, reason, first, rfl⟩ := parseFiles_eq_error_iff.1 hparse
        exact .malformed texts first
      | ok files => exact .assembled texts (parseFiles_eq_ok_iff.1 hparse)
  · intro h
    cases h with
    | unreadable first =>
      rw [parse, readSources_eq_error_iff.2 ⟨_, _, first, rfl⟩]
      rfl
    | malformed texts first =>
      rw [parse_of_texts _ options texts, ofComments]
      dsimp only
      rw [parseFiles_eq_error_iff.2 ⟨_, _, first, rfl⟩]
      rfl
    | assembled texts parsed =>
      rw [parse_of_texts _ options texts, ofComments]
      dsimp only
      rw [parseFiles_eq_ok_iff.2 parsed]
      rfl

end DocParser

/-! ## The registry

A name is looked up before any file is opened, so an unknown name is reported whatever the paths
are. After that the answer is the one of the parser that was found. -/

namespace Registry

def ofRegistrations (registrations : List (String × DocParser)) : Registry :=
  registrations.foldl (fun registry entry => registry.register entry.1 entry.2) empty

/-- The parser is the last one that was registered under the name. Earlier ones of that name are out
of use, and ones of other names do not matter. -/
def RegisteredLast (registrations : List (String × DocParser)) (name : String)
    (parser : DocParser) : Prop :=
  ∃ earlier later, registrations = earlier ++ (name, parser) :: later ∧
    name ∉ later.map Prod.fst

theorem parsers_ofRegistrations (registrations : List (String × DocParser)) :
    (ofRegistrations registrations).parsers = Catalog.ofList registrations := by
  have step : ∀ registry : Registry,
      (registrations.foldl (fun registry entry => registry.register entry.1 entry.2)
        registry).parsers
        = registrations.foldl (fun parsers entry => parsers.insert entry.1 entry.2)
            registry.parsers := by
    induction registrations with
    | nil => intro registry; rfl
    | cons entry rest ih => intro registry; exact ih _
  exact step empty

theorem find_eq_ok_iff {registrations : List (String × DocParser)} {name : String}
    {parser : DocParser} :
    (ofRegistrations registrations).find name = .ok parser ↔
      RegisteredLast registrations name parser := by
  rw [RegisteredLast, ← Catalog.lastValue_eq_some_iff, find, parsers_ofRegistrations,
    Catalog.get?_ofList]
  cases Catalog.lastValue name registrations with
  | none => exact iff_of_false nofun nofun
  | some other =>
    constructor
    · intro h
      cases h
      rfl
    · intro h
      cases h
      rfl

theorem find_of_not_registered {registrations : List (String × DocParser)} {name : String}
    (h : name ∉ registrations.map Prod.fst) :
    (ofRegistrations registrations).find name = .error (.unknownParser name) := by
  rw [find, parsers_ofRegistrations, Catalog.get?_ofList, Catalog.lastValue_eq_none_iff.2 h]

/-- The answer that an invocation with paths has to give, by what was registered and what the paths
hold. -/
structure Answers (registrations : List (String × DocParser)) (options : Options)
    (read : String → Except FileFault String) (name : String) (paths : List String)
    (answer : Except Refusal Documentation) : Prop where
  unknown : name ∉ registrations.map Prod.fst → answer = .error (.unknownParser name)
  registered : name ∈ registrations.map Prod.fst →
    ∃ parser, RegisteredLast registrations name parser
  /-- Only the last parser of the name runs. -/
  runs : ∀ parser, RegisteredLast registrations name parser →
    answer = parser.parse options read paths
  verdict : ∀ comments, RegisteredLast registrations name (.ofComments comments) →
    ∀ other, answer = other ↔ Verdict comments options read paths other
  /-- Whatever the parser, texts given directly are as good as texts that are read. -/
  texts : ∀ sources, Texts read paths sources →
    answer = (ofRegistrations registrations).invokeTexts options name sources

/-- **An invocation reports an unknown name before an unreadable file, and that before a malformed
text**, and of each the first. -/
theorem answers_invoke (registrations : List (String × DocParser)) (options : Options)
    (read : String → Except FileFault String) (name : String) (paths : List String) :
    Answers registrations options read name paths
      ((ofRegistrations registrations).invoke options read name paths) := by
  have runs : ∀ parser, RegisteredLast registrations name parser →
      (ofRegistrations registrations).invoke options read name paths
        = parser.parse options read paths := by
    intro parser h
    rw [invoke, find_eq_ok_iff.2 h]
    rfl
  constructor
  case unknown =>
    intro h
    rw [invoke, find_of_not_registered h]
    rfl
  case registered =>
    intro h
    obtain ⟨parser, hparser⟩ := Option.isSome_iff_exists.1 (Catalog.lastValue_isSome h)
    exact ⟨parser, Catalog.lastValue_eq_some_iff.1 hparser⟩
  case runs => exact runs
  case verdict =>
    intro comments h other
    rw [runs _ h]
    exact DocParser.parse_eq_iff_verdict comments options
  case texts =>
    intro sources h
    rw [invoke, invokeTexts]
    cases hfind : (ofRegistrations registrations).find name with
    | error refusal => rfl
    | ok parser => exact parser.parse_of_texts options h

end Registry

end DocTree
