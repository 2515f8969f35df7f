import DocTree.CommandLine.Inputs
import DocTree.CommandLine.Usage
import DocTree.Format
import DocTree.Log.Filter
import DocTree.Registry

/-!
# Running the program

A run takes the arguments, the standard input and the file system, and gives an exit code, what is
written to the two outputs, and the file system afterwards. It goes through these steps, and the
first that fails ends it: the arguments, the format, the inputs, the documentation, the output.
Nothing is written before the documentation is complete. A failed run may leave directories that it
made for the output, but no file.

All of the program is in this function but for the reading of the real file system and the writing
of what changed (`Main`). What a run does to files is thus a statement about two values, and
`Proofs.Destination` makes it: which files a run leaves as they were, and what stands in the one
that it writes.
-/

set_option autoImplicit false

namespace DocTree.CommandLine

open DocTree.Log

/-! ## What goes in and comes out -/

/-- The surroundings in which the program is started. All that a run can depend on is in them, so a
run is a function of its invocation. -/
structure Invocation where
  arguments : List String
  /-- The bytes on the standard input. -/
  input : ByteArray
  /-- The filter for the log that is asked for, if one is. -/
  logRequest : Option String
  files : FileSystem

structure Outcome where
  exitCode : Nat
  output : String
  errors : String
  files : FileSystem

/-! ## Failures

A failure is a step and what went wrong in it. The report names the step first and then what lies
behind it, numbered where there is more than one cause. -/

inductive Failure where
  | unknownFormat (name : String)
  | badInput (bad : BadInput)
  | unreadableInput (fault : FileFault)
  | refused (refusal : Refusal)
  | missingDirectory (path : String) (fault : FileFault)
  | notWritten (path : String) (fault : FileFault)

namespace Failure

def summary : Failure → String
  | .unknownFormat name => "unknown format: " ++ name ++ ". Use json or markdown"
  | .badInput bad => bad.summary
  | .unreadableInput _ => "failed to read stdin"
  | .refused _ => "failed to assemble documentation"
  | .missingDirectory path _ => "failed to create output directory: " ++ path
  | .notWritten path _ => "failed to write " ++ path

def causes : Failure → List String
  | .unknownFormat _ => []
  | .badInput bad => [bad.fault.message]
  | .unreadableInput fault => [fault.message]
  | .refused refusal => refusal.message :: refusal.cause.toList
  | .missingDirectory _ fault => [fault.message]
  | .notWritten _ fault => [fault.message]

def indentLines (blanks : Nat) (text : String) : String :=
  String.ofList (text.toList.flatMap fun c =>
    if c = '\n' then '\n' :: List.replicate blanks ' ' else [c])

def numberedCause (n : Nat) (cause : String) : String :=
  let number := Text.decimal n
  String.ofList (List.replicate (5 - number.length) ' ' ++ number) ++ ": " ++ indentLines 7 cause

/-- The causes of a failure, each on a line of its own; several are numbered. -/
def causeLines : List String → List String
  | [] => []
  | [cause] => ["    " ++ indentLines 4 cause]
  | causes => causes.zipIdx.map fun entry => numberedCause entry.2 entry.1

def report (failure : Failure) : String :=
  "Error: " ++ failure.summary
    ++ (if failure.causes.isEmpty then "" else "\n\nCaused by:")
    ++ String.join ((causeLines failure.causes).map ("\n" ++ ·)) ++ "\n"

end Failure

/-! ## Steps

The format is looked up before any input is read and the documentation is made before anything is
written, which is why a failure of either leaves the file system alone. Only writing the output can
leave something behind when it fails: the directories that were made for it. -/

def Request.options (request : Request) : Options :=
  match request.linkTemplate with
  | some template => Options.withTemplate template
  | none => Options.plain

def inputName : String := "stdin"

def fromInput (request : Request) (input : ByteArray) : Except Failure Documentation :=
  match FileSystem.decode input with
  | .error fault => .error (.unreadableInput fault)
  | .ok text =>
    (Registry.standard.invokeTexts request.options request.parser [⟨inputName, text⟩]).mapError
      Failure.refused

def fromFiles (request : Request) (fs : FileSystem) : Except Failure Documentation := do
  let paths ← (inputFiles (.ofFileSystem fs) request.files).mapError Failure.badInput
  (Registry.standard.invoke request.options fs.readText request.parser paths).mapError
    Failure.refused

def documentation (request : Request) (input : ByteArray) (fs : FileSystem) :
    Except Failure Documentation :=
  if request.files.isEmpty then fromInput request input else fromFiles request fs

def rendered (request : Request) (input : ByteArray) (fs : FileSystem) : Except Failure String :=
  match Format.ofName? request.format request.compact with
  | none => .error (.unknownFormat request.format)
  | some format => (documentation request input fs).map format.render

/-- What a request leaves: what goes to the standard output, the file system, and the failure that
ended it early. -/
structure Result where
  output : String
  files : FileSystem
  failure : Option Failure

/-- Makes the directory in which a path lies, where it is missing. What was made before a failure
stays, and so the file system is given back in either case. -/
def makeHolder (fs : FileSystem) (path : String) : FileSystem × Option Failure :=
  match Path.parent? path with
  | none => (fs, none)
  | some parent =>
    let growth := fs.makeTree parent
    (growth.files, growth.fault.map (Failure.missingDirectory parent))

/-- Writes a text to a file whose directory is made where it is missing. That stays when the file
cannot be written. -/
def writeOutput (fs : FileSystem) (path text : String) : Result :=
  match makeHolder fs path with
  | (ready, some failure) => ⟨"", ready, some failure⟩
  | (ready, none) =>
    match ready.writeText path text with
    | .ok written => ⟨"", written, none⟩
    | .error fault => ⟨"", ready, some (.notWritten path fault)⟩

def result (request : Request) (input : ByteArray) (fs : FileSystem) : Result :=
  match rendered request input fs, request.output with
  | .error failure, _ => ⟨"", fs, some failure⟩
  | .ok text, none => ⟨text, fs, none⟩
  | .ok text, some path => writeOutput fs path text

/-! ## The log

The events are worked out from the request and the files once more, next to the result and not on
the way to it. A run that fails has the events up to its failure, and its result is the same
whatever the log shows. -/

def inputEvents (request : Request) (input : ByteArray) : List Event :=
  match FileSystem.decode input with
  | .error _ => []
  | .ok text => Registry.standard.textEvents request.options request.parser [⟨inputName, text⟩]

def fileEvents (request : Request) (fs : FileSystem) : List Event :=
  inputWarnings (.ofFileSystem fs) request.files
    ++ match inputFiles (.ofFileSystem fs) request.files with
      | .error _ => []
      | .ok paths =>
        ⟨.debug, .program, "input files", [countField "files" paths.length]⟩
          :: Registry.standard.events request.options fs.readText request.parser paths

def events (request : Request) (input : ByteArray) (fs : FileSystem) : List Event :=
  if (Format.ofName? request.format request.compact).isNone then []
  else if request.files.isEmpty then inputEvents request input
  else fileEvents request fs

/-! ## Whole runs -/

/-- Runs a request. The report of a failure comes after the log, on the same output, so that the
documentation is alone on the other one. -/
def serve (request : Request) (invocation : Invocation) : Outcome :=
  let filter := Filter.choose invocation.logRequest request.verbose
  let log := filter.lines (events request invocation.input invocation.files)
  let result := result request invocation.input invocation.files
  match result.failure with
  | none => ⟨0, result.output, log, result.files⟩
  | some failure => ⟨1, result.output, log ++ failure.report, result.files⟩

def run (invocation : Invocation) : Outcome :=
  match Request.read invocation.arguments with
  | .ok request => serve request invocation
  | .error .helpWanted => ⟨0, helpText, "", invocation.files⟩
  | .error (.complaint complaint) => ⟨2, "", complaint.message, invocation.files⟩

end DocTree.CommandLine
