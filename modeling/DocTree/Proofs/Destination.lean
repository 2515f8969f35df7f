import DocTree.CommandLine.Run
import DocTree.Proofs.OutputOption
import DocTree.Proofs.Writing

/-!
# Where a run leaves its documentation

A run has one effect, and it comes last: the documentation goes to the standard output, or to the
file that the output option names. So a failed run prints nothing and leaves all files as they are,
and a run with the option writes what the run without it prints, to one file, whatever the inputs
are (`run_effects`).

The second part compares two runs, one of which has never taken place. It is not enough that the
documentation does not depend on where it goes (`rendered_withOutput`, which holds by definition);
the command line without the option has to be read as the same request without an output. How an
option is taken off a command line is a matter of its letters, and is dealt with before
(`read_of_takeOutput`).

A failed run may leave something behind, but no file: directories are made before the output is
written, and they stay when writing fails. So file systems are compared in two ways. They grow
(`Grows`) when only directories are added, and they have the same files (`SameFiles`) as far as a
reader can see. The path of the output is resolved in the system as it was made ready, and the other
files are compared with the one before.

Writing over an input is allowed and makes no difference. The inputs have been read when the output
is opened, as the order of the steps in `result` says; the example at the end is of this kind.
-/

set_option autoImplicit false

namespace DocTree.CommandLine

open FileSystem

variable {request : Request} {input : ByteArray} {fs : FileSystem} {path text : String}
  {invocation : Invocation} {others : List String}

/-! ## The output

Writing has two steps, and each can fail. What is left in each case is a file system that has grown,
and in the good case a text in its place on top of that. -/

theorem grows_makeHolder (fs : FileSystem) (path : String) : Grows fs (makeHolder fs path).1 := by
  rw [makeHolder]
  cases Path.parent? path with
  | none => exact .refl fs
  | some parent => exact grows_makeTree

/-- **What writing the output leaves**: directories, and if it does not fail, the text in its
place. -/
theorem writeOutput_cases (fs : FileSystem) (path text : String) :
    (∃ ready failure, Grows fs ready ∧ writeOutput fs path text = ⟨"", ready, some failure⟩) ∨
      ∃ ready written, Grows fs ready ∧ ready.writeText path text = .ok written ∧
        writeOutput fs path text = ⟨"", written, none⟩ := by
  have hready := grows_makeHolder fs path
  rw [writeOutput]
  split
  case h_1 ready failure hholder =>
    rw [hholder] at hready
    exact .inl ⟨ready, failure, hready, rfl⟩
  case h_2 ready hholder =>
    rw [hholder] at hready
    split
    case h_1 written hwritten => exact .inr ⟨ready, written, hready, hwritten, rfl⟩
    case h_2 fault hrefused => exact .inl ⟨ready, .notWritten path fault, hready, rfl⟩

/-! ## One request

The result of a request by cases: the documentation cannot be made, or it is printed, or it is
written. The first two leave the files alone. -/

theorem rendered_withOutput (output : Option String) :
    rendered { request with output := output } input fs = rendered request input fs := rfl

theorem result_of_error {failure : Failure} (h : rendered request input fs = .error failure) :
    result request input fs = ⟨"", fs, some failure⟩ := by
  rw [result, h]

theorem result_of_ok (h : rendered request input fs = .ok text) :
    result request input fs =
      match request.output with
      | none => ⟨text, fs, none⟩
      | some path => writeOutput fs path text := by
  rw [result, h]
  cases request.output <;> rfl

theorem files_of_output_eq_none (h : request.output = none) :
    (result request input fs).files = fs := by
  cases hr : rendered request input fs with
  | error failure => rw [result_of_error hr]
  | ok text => rw [result_of_ok hr, h]

theorem result_of_failure (h : (result request input fs).failure ≠ none) :
    (result request input fs).output = "" ∧ Grows fs (result request input fs).files := by
  cases hr : rendered request input fs with
  | error failure =>
    rw [result_of_error hr]
    exact ⟨rfl, .refl fs⟩
  | ok text =>
    rw [result_of_ok hr] at h ⊢
    cases ho : request.output with
    | none =>
      rw [ho] at h
      exact (h rfl).elim
    | some path =>
      rw [ho] at h
      dsimp only at h ⊢
      rcases writeOutput_cases fs path text with
        ⟨ready, failure, hgrows, heq⟩ | ⟨ready, written, -, -, heq⟩
      · rw [heq]
        exact ⟨rfl, hgrows⟩
      · rw [heq] at h
        exact (h rfl).elim

/-- **With the output option** a request that is served leaves in the file what it prints without
the option. -/
theorem result_of_output (ho : request.output = some path)
    (h : (result request input fs).failure = none) :
    (result request input fs).output = "" ∧
      ∃ ready text, Grows fs ready ∧
        ready.writeText path text = .ok (result request input fs).files ∧
        result { request with output := none } input fs = ⟨text, fs, none⟩ := by
  cases hr : rendered request input fs with
  | error failure =>
    rw [result_of_error hr] at h
    cases h
  | ok text =>
    have hbare : rendered { request with output := none } input fs = .ok text :=
      (rendered_withOutput none).trans hr
    rw [result_of_ok hr, ho] at h ⊢
    rw [result_of_ok hbare]
    dsimp only at h ⊢
    rcases writeOutput_cases fs path text with
      ⟨ready, failure, -, heq⟩ | ⟨ready, written, hgrows, hwritten, heq⟩
    · rw [heq] at h
      cases h
    · rw [heq]
      exact ⟨rfl, ready, text, hgrows, hwritten, rfl⟩

/-! ## Whole runs

A run is the reading of its arguments and a request. Asking for help is a success that has no
request, and it is excluded where a successful run is said to have written something. -/

theorem serve_output :
    (serve request invocation).output =
      (result request invocation.input invocation.files).output := by
  rw [serve]
  split <;> rfl

theorem serve_files :
    (serve request invocation).files =
      (result request invocation.input invocation.files).files := by
  rw [serve]
  split <;> rfl

theorem serve_exitCode_eq_zero_iff :
    (serve request invocation).exitCode = 0 ↔
      (result request invocation.input invocation.files).failure = none := by
  rw [serve]
  split
  · rename_i h
    exact iff_of_true rfl h
  · rename_i h
    rw [h]
    exact iff_of_false nofun nofun

structure Holds (before after : FileSystem) (path text : String) : Prop where
  text : after.readText path = .ok text
  others : ∃ place, after.resolve path = .ok place ∧ ∀ other bytes, other ≠ place →
    (after.at? other = some (.file bytes) ↔ before.at? other = some (.file bytes))

theorem holds_of_writeText {ready after : FileSystem} (hgrows : Grows fs ready)
    (h : ready.writeText path text = .ok after) : Holds fs after path text := by
  obtain ⟨place, hplace, hnot, rfl⟩ := writeText_eq_ok h
  refine ⟨readText_of_writeText h, place, (keeps_set _ hnot).resolve hplace, ?_⟩
  intro other bytes hother
  rw [at?_set (ne_root_of_at? hnot), if_neg hother]
  exact hgrows.file_iff

theorem run_of_read (h : Request.read invocation.arguments = .ok request) :
    run invocation = serve request invocation := by
  rw [run, h]

/-- The files are the same, each with its bytes; there may be other directories. A run that fails
late has perhaps made these for its output. -/
def SameFiles (before after : FileSystem) : Prop :=
  ∀ place bytes, after.at? place = some (.file bytes) ↔ before.at? place = some (.file bytes)

/-- What a run leaves on the standard output and in the file system. The three clauses go by whether
the run succeeds and whether it is told where to write. -/
structure Effects (invocation : Invocation) : Prop where
  /-- A failed run leaves nothing. -/
  failed : (run invocation).exitCode ≠ 0 →
    (run invocation).output = "" ∧ SameFiles invocation.files (run invocation).files
  /-- Without the output option nothing is written. -/
  printed : takeOutput invocation.arguments = none → (run invocation).files = invocation.files
  /-- With the option, what the run without it prints is in the file. -/
  written : ∀ path others, takeOutput invocation.arguments = some (path, others) →
    Request.read invocation.arguments ≠ .error .helpWanted → (run invocation).exitCode = 0 →
      (run invocation).output = "" ∧ (run { invocation with arguments := others }).exitCode = 0 ∧
        Holds invocation.files (run invocation).files path
          (run { invocation with arguments := others }).output

/-- **A failed run has no effect, and a run with the output option changes one file only**, in
which it leaves what the same command line without the option prints. -/
theorem run_effects (invocation : Invocation) : Effects invocation := by
  constructor
  case failed =>
    intro hexit
    cases hread : Request.read invocation.arguments with
    | ok request =>
      rw [run_of_read hread] at hexit ⊢
      rw [serve_output, serve_files]
      have hfailure := mt serve_exitCode_eq_zero_iff.2 hexit
      obtain ⟨hempty, hgrows⟩ := result_of_failure hfailure
      exact ⟨hempty, fun place bytes => hgrows.file_iff⟩
    | error stop =>
      rw [run, hread] at hexit ⊢
      cases stop with
      | helpWanted => exact (hexit rfl).elim
      | complaint complaint => exact ⟨rfl, fun _ _ => .rfl⟩
  case printed =>
    intro htake
    cases hread : Request.read invocation.arguments with
    | ok request =>
      rw [run_of_read hread, serve_files]
      exact files_of_output_eq_none (output_of_takeOutput_eq_none htake hread)
    | error stop =>
      rw [run, hread]
      cases stop <;> rfl
  case written =>
    intro path others htake hhelp hexit
    cases hread : Request.read invocation.arguments with
    | error stop =>
      rw [run, hread] at hexit
      cases stop with
      | helpWanted => exact (hhelp hread).elim
      | complaint complaint => cases hexit
    | ok request =>
      -- the run without the option has the same request but for the output
      obtain ⟨houtput, hothers⟩ := read_of_takeOutput htake hread
      rw [run_of_read hread] at hexit ⊢
      have hbare : run { invocation with arguments := others } =
          serve { request with output := none } { invocation with arguments := others } :=
        run_of_read hothers
      obtain ⟨hempty, ready, text, hgrows, hwritten, hresult⟩ :=
        result_of_output houtput (serve_exitCode_eq_zero_iff.1 hexit)
      rw [hbare, serve_exitCode_eq_zero_iff, serve_output, serve_output, serve_files, hresult]
      exact ⟨hempty, rfl, holds_of_writeText hgrows hwritten⟩

def inPlace : Invocation where
  arguments := ["-vo", "api/a.json", "api"]
  input := .empty
  logRequest := none
  files := (FileSystem.fresh ["docs"]).place ["docs", "api", "a.json"]
    (.file "\x7b\"A\": \x7b\"type\": \"class\", \"line\": 1\x7d\x7d".toUTF8)

theorem run_effects_inPlace :
    takeOutput inPlace.arguments = some ("api/a.json", ["-v", "api"]) ∧
      (run inPlace).exitCode = 0 ∧
      Holds inPlace.files (run inPlace).files "api/a.json"
        (run { inPlace with arguments := ["-v", "api"] }).output := by
  have htake : takeOutput inPlace.arguments = some ("api/a.json", ["-v", "api"]) := by
    decide +kernel
  have hhelp : Request.read inPlace.arguments ≠ .error .helpWanted := by decide +kernel
  have hexit : (run inPlace).exitCode = 0 := by decide +kernel
  obtain ⟨-, -, holds⟩ := (run_effects inPlace).written _ _ htake hhelp hexit
  exact ⟨htake, hexit, holds⟩

end DocTree.CommandLine
