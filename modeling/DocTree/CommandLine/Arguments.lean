import DocTree.Text.Cut
import DocTree.Text.Similarity

/-!
# Arguments of the command line

What a user can ask for, and how a list of arguments is read. An option is given by a long name
(`--output`) or by a letter (`-o`), and its value follows as the next argument, after an equals
sign, or right after the letter. Letters of options without a value may be joined. Everything else
names an input; after `--` all arguments do.

What was given last waits until the next argument shows that it is complete: only then is an option
without its value noticed, and only then an option given twice. So the fault that is reported is not
always the first that a reader from left to right would see, and a message may mention arguments as
given that were never taken.

The same state machine is described without the waiting in `Proofs.CommandLines`: there a command
line says a list of arguments with their values, each of them known to be complete, and these are
taken one after the other.
-/

set_option autoImplicit false

namespace DocTree.CommandLine

open DocTree.Text

/-! ## What can be given

The inputs count as an argument among the others. They are listed with the options that were given,
and an input in a row of inputs waits like a value. -/

inductive Argument where
  | files
  | output
  | format
  | parser
  | linkTemplate
  | compact
  | verbose
  | help
deriving DecidableEq, Repr

namespace Argument

def options : List Argument :=
  [.output, .format, .parser, .linkTemplate, .compact, .verbose, .help]

def longName : Argument → String
  | .files => "files"
  | .output => "output"
  | .format => "format"
  | .parser => "parser"
  | .linkTemplate => "link-template"
  | .compact => "compact"
  | .verbose => "verbose"
  | .help => "help"

def letter? : Argument → Option Char
  | .output => some 'o'
  | .format => some 'f'
  | .linkTemplate => some 'l'
  | .verbose => some 'v'
  | .help => some 'h'
  | _ => none

def valueName? : Argument → Option String
  | .files => some "FILES"
  | .output => some "OUTPUT"
  | .format => some "FORMAT"
  | .parser => some "PARSER"
  | .linkTemplate => some "LINK_TEMPLATE"
  | _ => none

def takesValue (argument : Argument) : Bool := argument.valueName?.isSome

def text (argument : Argument) : String :=
  match argument, argument.valueName? with
  | .files, _ => "<FILES>..."
  | _, some value => "--" ++ argument.longName ++ " <" ++ value ++ ">"
  | _, none => "--" ++ argument.longName

def ofLongName? (name : String) : Option Argument :=
  options.find? fun option => option.longName == name

def ofLetter? (c : Char) : Option Argument := options.find? fun option => option.letter? == some c

def leastSimilarity : Float := 0.7

/-- The option whose name is most similar to one that is not known, of equals the last. -/
def suggest (name : String) : Option Argument :=
  let rated := options.map fun option =>
    (similarity name.toList option.longName.toList, option)
  let best := (rated.filter fun entry => leastSimilarity < entry.1).foldl
    (fun (best : Option (Float × Argument)) entry =>
      match best with
      | some other => if entry.1 < other.1 then best else some entry
      | none => some entry)
    none
  best.map Prod.snd

end Argument

/-- What a user asks for. A field with `Option` is one that can be left out; the others have a value
from the beginning. -/
structure Request where
  files : List String
  output : Option String
  format : String
  parser : String
  linkTemplate : Option String
  compact : Bool
  verbose : Bool
deriving DecidableEq, Repr

def Request.usual : Request := ⟨[], none, "json", "ndoc", none, false, false⟩

inductive Complaint where
  | missingValue (argument : Argument)
  | repeated (argument : Argument)
  | unexpectedValue (value : String) (argument : Argument) (given : List Argument)
  | unknownName (name : String) (given : List Argument)
  | unknownLetter (c : Char)
deriving DecidableEq, Repr

/-- Why reading a command line ends before its end. Asking for help is no mistake, and a run that is
asked for it succeeds. -/
inductive Stop where
  | complaint (complaint : Complaint)
  | helpWanted
deriving DecidableEq, Repr

/-! ## Reading

`take` is the one place where an argument changes the request, and every other function of the
progress says when it is called. `settle` takes what waits; it is called by whatever comes next and
at the end. -/

structure Progress where
  request : Request
  /-- The arguments that are complete, in the order in which they came. -/
  given : List Argument
  /-- The argument that may not be complete yet, and its values so far. -/
  waiting : Option (Argument × List String)
deriving DecidableEq, Repr

namespace Progress

def start : Progress := ⟨Request.usual, [], none⟩

def note (progress : Progress) (argument : Argument) : Progress :=
  { progress with
    given := if progress.given.contains argument then progress.given
      else progress.given ++ [argument] }

def once (progress : Progress) (argument : Argument) (f : Request → Request) :
    Except Stop Progress :=
  if progress.given.contains argument then .error (.complaint (.repeated argument))
  else .ok { progress.note argument with request := f progress.request }

/-- The progress after a complete argument with its values. The file to write to needs a name, which
is checked here since an empty argument can give it. -/
def take (progress : Progress) (argument : Argument) (values : List String) :
    Except Stop Progress :=
  match argument, values with
  | .files, values =>
    let request := progress.request
    .ok { progress.note .files with request := { request with files := request.files ++ values } }
  | .compact, _ => progress.once .compact fun request => { request with compact := true }
  | .verbose, _ => progress.once .verbose fun request => { request with verbose := true }
  | .help, _ => .error .helpWanted
  | argument, [] => .error (.complaint (.missingValue argument))
  | .output, value :: _ => do
    -- given twice is the complaint even where the name is empty as well
    let done ← progress.once .output fun request => { request with output := some value }
    if value = "" then .error (.complaint (.missingValue .output)) else .ok done
  | .format, value :: _ => progress.once .format fun request => { request with format := value }
  | .parser, value :: _ => progress.once .parser fun request => { request with parser := value }
  | .linkTemplate, value :: _ =>
    progress.once .linkTemplate fun request => { request with linkTemplate := some value }

def settle (progress : Progress) : Except Stop Progress :=
  match progress.waiting with
  | some (argument, values) => { progress with waiting := none }.take argument values
  | none => .ok progress

def add (progress : Progress) (argument : Argument) (values : List String) :
    Except Stop Progress := do
  let settled ← progress.settle
  settled.take argument values

def await (progress : Progress) (argument : Argument) : Except Stop Progress := do
  let settled ← progress.settle
  .ok { settled with waiting := some (argument, []) }

def addValue (progress : Progress) (value : String) : Progress :=
  { progress with
    waiting := progress.waiting.map fun entry => (entry.1, entry.2 ++ [value]) }

/-- The progress after an input. Inputs in a row wait together, so that they are taken as one
argument with several values. -/
def addFile (progress : Progress) (file : String) : Except Stop Progress :=
  match progress.waiting with
  | some (.files, _) => .ok (progress.addValue file)
  | _ => do
    let settled ← progress.settle
    .ok { settled with waiting := some (.files, [file]) }

/-- The arguments that a complaint may mention as given, the waiting one taken as complete. When it
cannot be, one that was given twice no longer counts, and an output without a name does. -/
def givenByNow (progress : Progress) : List Argument :=
  match progress.settle with
  | .ok settled => settled.given
  | .error (.complaint (.repeated argument)) => progress.given.filter fun other => other != argument
  | .error _ =>
    match progress.waiting with
    | some (argument, _ :: _) => (progress.note argument).given
    | _ => progress.given

def awaitsValue (progress : Progress) : Bool :=
  match progress.waiting with
  | some (.files, _) => false
  | some (_, []) => true
  | _ => false

/-! ## The forms of an argument

The four forms of an option with a value end in two calls, `add` where the value is there already
and `await` where it is the next argument. An argument that may be an option is never the value of
one, so `-o -v` lacks the name of a file. -/

def readLong (progress : Progress) (text : List Char) : Except Stop Progress :=
  let (name, value) := match firstCut (· == '=') text with
    | some cut => (String.ofList cut.before, some (String.ofList cut.after))
    | none => (String.ofList text, none)
  match Argument.ofLongName? name, value with
  | none, _ => .error (.complaint (.unknownName name progress.givenByNow))
  | some option, some value =>
    if option.takesValue then progress.add option [value]
    else .error (.complaint (.unexpectedValue value option progress.given))
  | some option, none =>
    if option.takesValue then progress.await option else progress.add option []

/-- Reads the letters after a hyphen. What follows the letter of an option with a value is that
value, without the equals sign that may be in front. -/
def readLetters (progress : Progress) : List Char → Except Stop Progress
  | [] => .ok progress
  | c :: rest =>
    match Argument.ofLetter? c with
    | none => .error (.complaint (.unknownLetter c))
    | some option =>
      if !option.takesValue then do
        let added ← progress.add option []
        added.readLetters rest
      else
        match rest with
        | [] => progress.await option
        | '=' :: value => progress.add option [String.ofList value]
        | value => progress.add option [String.ofList value]

def readArgument (progress : Progress) (argument : String) : Except Stop Progress :=
  match argument.toList with
  | '-' :: '-' :: text => progress.readLong text
  | '-' :: c :: text => progress.readLetters (c :: text)
  -- a hyphen alone is no option either
  | _ =>
    if progress.awaitsValue then .ok (progress.addValue argument) else progress.addFile argument

def readAll (progress : Progress) : List String → Except Stop Progress
  | [] => progress.settle
  | argument :: rest =>
    if argument = "--" then do
      let done ← rest.foldlM addFile progress
      done.settle
    else do
      let next ← progress.readArgument argument
      next.readAll rest

end Progress

def Request.read (arguments : List String) : Except Stop Request :=
  (Progress.start.readAll arguments).map Progress.request

end DocTree.CommandLine
